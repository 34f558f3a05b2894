import Swactor.Types

/-!
# The durable state of the namespace

The snapshot of the namespace is one file that is replaced as a whole. A commit validates the
next snapshot, writes it to a temporary file and renames that over the old one; only then the
snapshot in memory is exchanged. A commit that fails before the rename leaves both as they were.
One that fails after the rename leaves the new snapshot in the file and the old one in memory.

Paths and operation ids are only compared and are numbers here. The schema version, which is
constant, and the metrics are left out.
-/
namespace Swactor.Namespace

open Std (ExtTreeMap)

/-- `DataPath`. -/
abbrev DataPath := ℕ

/-- `OperationId([u8; 16])`. -/
abbrev OperationId := ℕ

structure StreamIncarnation where
  authorityEpoch : ℕ
  revision : ℕ
deriving DecidableEq, Repr

inductive SourceRecovery
  | file (path : String)
  | actor (actor : ActorAddress) (node : NodeId) (owner : Option ActorAddress)
deriving DecidableEq, Repr

/-- The owner of a source that is an actor. -/
def SourceRecovery.owner : SourceRecovery → Option ActorAddress
  | .actor _ _ owner => owner
  | .file _ => none

structure PersistedBinding where
  length : ℕ
  revision : ℕ
  recovery : SourceRecovery
deriving DecidableEq, Repr

inductive MutationRequest
  | register (path : DataPath) (length : ℕ) (recovery : SourceRecovery)
  | bindStream (path : DataPath)
  | unregister (path : DataPath)
  | rename (source destination : DataPath) (replace : Bool)
deriving DecidableEq, Repr

structure MutationReceipt where
  revision : ℕ
deriving DecidableEq, Repr

inductive MutationRejection
  | pathNotFound (path : DataPath)
  | pathExists (path : DataPath)
  | streamActive (path : DataPath)
  | pathReplaced (path : DataPath)
deriving DecidableEq, Repr

inductive PersistedMutationResult
  | committed (receipt : MutationReceipt)
  | rejected (rejection : MutationRejection)
deriving DecidableEq, Repr

structure PersistedOperation where
  request : MutationRequest
  result : PersistedMutationResult
deriving DecidableEq, Repr

/-- `streamRetirements` are the endpoints of displaced streams that have not acknowledged. -/
structure NamespaceSnapshot where
  authorityEpoch : ℕ := 0
  nextRevision : ℕ := 1
  bindings : ExtTreeMap DataPath PersistedBinding compare := ∅
  streamNodes : ExtTreeMap DataPath ℕ compare := ∅
  operations : ExtTreeMap OperationId PersistedOperation compare := ∅
  retirements : List ActorAddress := []
  streamRetirements : List (ActorAddress × StreamIncarnation) := []

inductive NamespaceStoreError
  | io
  | corrupt (reason : String)
  | revisionExhausted
  | authorityEpochExhausted
deriving DecidableEq, Repr

/-- The text of a store error. The reason of the operating system is left out. -/
def NamespaceStoreError.display : NamespaceStoreError → String
  | .io => "namespace storage I/O failed"
  | .corrupt reason => "namespace storage is corrupt: " ++ reason
  | .revisionExhausted => "namespace revision exhausted"
  | .authorityEpochExhausted => "namespace authority epoch exhausted"

namespace NamespaceSnapshot

variable (snapshot : NamespaceSnapshot)

/-- A revision that has been given out. -/
def inRange (revision : ℕ) : Bool :=
  revision ≠ 0 && revision < snapshot.nextRevision

def validate : Except NamespaceStoreError Unit :=
  if snapshot.nextRevision = 0 then .error (.corrupt "next namespace revision is zero")
  else if snapshot.bindings.toList.any (fun entry => !snapshot.inRange entry.2.revision) ||
      snapshot.streamNodes.toList.any (fun entry => !snapshot.inRange entry.2) then
    .error (.corrupt "binding revision is outside the committed revision range")
  else if snapshot.operations.toList.any (fun entry =>
      match entry.2.result with
      | .committed receipt => !snapshot.inRange receipt.revision
      | .rejected _ => false) then
    .error (.corrupt "operation revision is outside the committed revision range")
  else .ok ()

/-- The snapshot with one more operation. -/
def record (operationId : OperationId) (request : MutationRequest)
    (result : PersistedMutationResult) : NamespaceSnapshot :=
  { snapshot with operations := snapshot.operations.insert operationId ⟨request, result⟩ }

def streamBound (path : DataPath) (revision : ℕ) : NamespaceSnapshot :=
  { snapshot with
    bindings := snapshot.bindings.erase path
    streamNodes := snapshot.streamNodes.insert path revision }

def blobBound (path : DataPath) (binding : PersistedBinding) : NamespaceSnapshot :=
  { snapshot with
    streamNodes := snapshot.streamNodes.erase path
    bindings := snapshot.bindings.insert path binding }

def unbound (path : DataPath) : NamespaceSnapshot :=
  { snapshot with
    bindings := snapshot.bindings.erase path
    streamNodes := snapshot.streamNodes.erase path }

/-- What is bound to the source is bound to the destination instead, with a new revision. -/
def moved (source destination : DataPath) (revision : ℕ) : NamespaceSnapshot :=
  let bindings := (snapshot.bindings.erase source).erase destination
  let streamNodes := (snapshot.streamNodes.erase source).erase destination
  match snapshot.bindings[source]? with
  | some binding =>
      { snapshot with
        bindings := bindings.insert destination { binding with revision := revision }
        streamNodes := streamNodes }
  | none =>
      { snapshot with
        bindings := bindings
        streamNodes :=
          if source ∈ snapshot.streamNodes then streamNodes.insert destination revision
          else streamNodes }

/-- The retirement of a source is noted once. -/
def retire (retired : Option ActorAddress) : NamespaceSnapshot :=
  match retired with
  | none => snapshot
  | some source =>
      if source ∈ snapshot.retirements then snapshot
      else { snapshot with retirements := snapshot.retirements ++ [source] }

/-- The endpoint is to acknowledge that its stream was displaced. -/
def displace (endpoint : ActorAddress) (incarnation : StreamIncarnation) : NamespaceSnapshot :=
  { snapshot with
    streamRetirements :=
      snapshot.streamRetirements.filter (fun entry => entry.1 ≠ endpoint) ++
        [(endpoint, incarnation)] }

def displaceAll (endpoints : List ActorAddress) (incarnation : StreamIncarnation) :
    NamespaceSnapshot :=
  endpoints.foldl (fun next endpoint => next.displace endpoint incarnation) snapshot

/-- The endpoint has acknowledged. -/
def acknowledge (endpoint : ActorAddress) : NamespaceSnapshot :=
  { snapshot with
    streamRetirements := snapshot.streamRetirements.filter fun entry => entry.1 ≠ endpoint }

end NamespaceSnapshot

/-- What becomes of a commit: it succeeds, or fails before or after the file is replaced. -/
inductive CommitFate
  | succeeds
  | failsBefore
  | failsAfter
deriving DecidableEq, Repr

/-- The file, the snapshot in memory, and what becomes of the next commits. Commits beyond the
list succeed. -/
structure NamespaceStore where
  file : NamespaceSnapshot
  snapshot : NamespaceSnapshot
  fates : List CommitFate := []

namespace NamespaceStore

def commit (store : NamespaceStore) (next : NamespaceSnapshot) :
    NamespaceStore × Except NamespaceStoreError Unit :=
  match next.validate with
  | .error error => (store, .error error)
  | .ok () =>
      match store.fates with
      | [] => ({ store with file := next, snapshot := next }, .ok ())
      | .succeeds :: fates => (⟨next, next, fates⟩, .ok ())
      | .failsBefore :: fates => ({ store with fates := fates }, .error .io)
      | .failsAfter :: fates => ({ store with file := next, fates := fates }, .error .io)

/-- The three ways in which a commit ends. -/
theorem commit_cases (store : NamespaceStore) (next : NamespaceSnapshot) :
    ∃ fates, store.commit next = (⟨next, next, fates⟩, .ok ()) ∨
      ∃ error, store.commit next = (⟨store.file, store.snapshot, fates⟩, .error error) ∨
        store.commit next = (⟨next, store.snapshot, fates⟩, .error error) := by
  unfold commit
  cases next.validate with
  | error error => exact ⟨store.fates, .inr ⟨error, .inl rfl⟩⟩
  | ok _ =>
    cases hfates : store.fates with
    | nil => exact ⟨[], .inl (by simp)⟩
    | cons fate fates =>
      refine ⟨fates, ?_⟩
      cases fate with
      | succeeds => exact .inl rfl
      | failsBefore => exact .inr ⟨.io, .inl rfl⟩
      | failsAfter => exact .inr ⟨.io, .inr rfl⟩

end NamespaceStore

end Swactor.Namespace
