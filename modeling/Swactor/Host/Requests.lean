import Swactor.Host.BlobBinding
import Swactor.Host.StreamMoves
import Swactor.Namespace.Consistency

/-!
# What the bindings of a session ask of the namespace

The requests of a session are made by the actors it spawns. A blob binding that writes asks for
changes of its own path and one that reads for none. A stream binding makes one open, when it
starts, with the flags it was spawned with.
-/
namespace Swactor.Host

open BindingMode StreamEffect
open Namespace (DataPath NamespaceRequest)

attribute [local grind] HelperTask.request

/-- The paths whose entry a request can change. An open that neither ensures nor replaces leaves
every path what it is. -/
def changes : NamespaceRequest → List DataPath
  | .register registration => [registration.path]
  | .reserveBlob path _ | .unregister path _ => [path]
  | .rename source destination _ _ => [source, destination]
  | .openStream request => if request.ensure || request.replace then [request.path] else []
  | _ => []

namespace Entries

open Namespace

/-- Every path names a blob, or a stream, or nothing, as before. -/
structure Same (d d' : DataDirectory) : Prop where
  blobs : d'.snapshot.bindings = d.snapshot.bindings
  streams : ∀ path, path ∈ d'.snapshot.streamNodes ↔ path ∈ d.snapshot.streamNodes

variable {d : DataDirectory}

theorem Same.of_eq {d' : DataDirectory} (h : d'.snapshot = d.snapshot) : Same d d' :=
  ⟨congrArg _ h, fun path => by rw [h]⟩

theorem Same.of_record {d' : DataDirectory} {operationId : OperationId}
    {request : MutationRequest} {result : PersistedMutationResult}
    (h : d'.snapshot = d.snapshot.record operationId request result) : Same d d' := by
  refine ⟨?_, fun path => ?_⟩ <;> rw [h] <;> rfl

/-- A stream that is bound again stays a stream. -/
theorem same_bindStream {path : DataPath} (hnode : path ∈ d.snapshot.streamNodes)
    (hblob : path ∉ d.snapshot.bindings) (operationId : OperationId)
    (retired : Option ActorAddress) : Same d (d.bindStream path operationId retired).1 := by
  have hmutation := Mutation.bindStream (d := d) path operationId retired
  generalize d.bindStream path operationId retired = outcome at hmutation
  cases hmutation with
  | replayed | failed | tried => exact .of_eq rfl
  | rejected rejection fates => exact .of_record rfl
  | committed fates =>
    constructor
    · show (NamespaceSnapshot.retire _ retired).bindings = d.snapshot.bindings
      rw [NamespaceSnapshot.bindings_retire]
      exact DataDirectory.erase_of_getElem?_eq_none (by simpa using hblob)
    · intro other
      show other ∈ (NamespaceSnapshot.retire _ retired).streamNodes ↔ _
      rw [NamespaceSnapshot.streamNodes_retire]
      show other ∈ d.snapshot.streamNodes.insert path _ ↔ _
      rw [Std.ExtTreeMap.mem_insert]
      constructor
      · rintro (hsame | hmem)
        · rwa [← compare_eq_iff_eq.mp hsame]
        · exact hmem
      · exact .inr

variable {request : StreamOpenRequest}

theorem same_bindUnoccupied (hreplace : request.replace = false)
    (hnode : request.path ∈ d.snapshot.streamNodes) : Same d (d.bindUnoccupied request) := by
  unfold DataDirectory.bindUnoccupied
  split
  · exact .of_eq rfl
  · next hfree =>
    have hblob : request.path ∉ d.snapshot.bindings := fun hmem => hfree ⟨hmem, by simp [hreplace]⟩
    have hbound := same_bindStream hnode hblob request.operationId (d.boundSource request.path)
    dsimp only
    split
    · next d₁ receipt heq =>
      rw [heq] at hbound
      cases d.boundSource request.path with
      | none | some source => exact ⟨hbound.blobs, hbound.streams⟩
    · next d₁ error heq =>
      rw [heq] at hbound
      exact ⟨hbound.blobs, hbound.streams⟩

theorem same_joinStream (pending : PendingStream) : Same d (d.joinStream request pending) := by
  unfold DataDirectory.joinStream NamespaceStore.recordStreamParticipant
  cases d.store.snapshot.operations[request.operationId]? with
  | some existing =>
    by_cases hsame : existing.request = .bindStream request.path
    · simp only [hsame, if_true]
      exact .of_eq rfl
    · simp only [hsame, if_false]
      exact .of_eq rfl
  | none =>
    obtain ⟨fates, hok | ⟨error, hfail | hfail⟩⟩ := d.store.commit_cases
      (d.store.snapshot.record request.operationId (.bindStream request.path)
        (.committed ⟨pending.revision⟩))
    · simp only [hok]
      exact .of_record rfl
    · simp only [hfail]
      exact .of_eq rfl
    · simp only [hfail]
      exact .of_eq rfl

theorem same_placeStream (hreplace : request.replace = false)
    (hnode : request.path ∈ d.snapshot.streamNodes) : Same d (d.placeStream request) := by
  unfold DataDirectory.placeStream
  split
  · exact same_bindUnoccupied hreplace hnode
  · split_ifs
    · exact .of_eq rfl
    · exact .of_eq rfl
    · exact same_joinStream _
    · simp_all
    · exact .of_eq rfl
  · split_ifs
    · exact .of_eq rfl
    · simp_all
    · exact .of_eq rfl

/-- An open that neither ensures nor replaces leaves every path what it is. -/
theorem same_openStream (hensure : request.ensure = false) (hreplace : request.replace = false) :
    Same d (d.openStream request) := by
  have hplaced (hrefusal : d.refusal request = none) : Same d (d.placeStream request) := by
    apply same_placeStream hreplace
    unfold DataDirectory.refusal at hrefusal
    simp only [hensure, Bool.false_eq_true, if_false] at hrefusal
    split at hrefusal
    · split at hrefusal <;> cases hrefusal
    · next current hcurrent =>
      rw [Std.ExtTreeMap.mem_iff_isSome_getElem?, hcurrent]
      rfl
  unfold DataDirectory.openStream
  split
  · unfold DataDirectory.holdStreamOpenForFence
    split <;> exact .of_eq rfl
  · unfold DataDirectory.admitStream
    split
    · exact .of_eq rfl
    · split
      · exact .of_eq rfl
      · split
        · exact .of_eq rfl
        · exact hplaced ‹_›
    · split
      · exact .of_eq rfl
      · exact hplaced ‹_›

theorem same_openStream_sink : ∃ request, ∀ d, Same d (d.openStream request) :=
  ⟨⟨0, 0, .sink, 0, false, false, none, [], 0, 0⟩, fun _ => same_openStream rfl rfl⟩

end Entries

/-- The effect makes no request that changes anything but the path, and none for a read. -/
@[grind]
def BlobEffect.Proper (path : DataPath) (mode : BindingMode) : BlobEffect → Prop
  | .helper _ task => ∀ changed ∈ changes task.request, changed = path ∧ mode.isRead = false
  | _ => True

namespace BlobBinding

/-- The binding is at its path, and the requests it has made are proper. -/
@[grind]
def Fit (path : DataPath) (mode : BindingMode) (b : BlobBinding) : Prop :=
  b.path = path ∧ b.mode = mode ∧ ∀ effect ∈ b.sent, effect.Proper path mode

variable {path : DataPath} {mode : BindingMode} {b : BlobBinding} {env : BlobServices}

section

variable (h : Fit path mode b)

include h

@[grind ←]
theorem fit_emit {effect : BlobEffect} (heffect : effect.Proper path mode) :
    Fit path mode (b.emit effect) := by
  grind [emit]

@[grind ←]
theorem fit_emitAll {effects : List BlobEffect}
    (heffects : ∀ effect ∈ effects, effect.Proper path mode) :
    Fit path mode (b.emitAll effects) := by
  grind [emitAll]

@[grind ←]
theorem fit_releaseRetainedSource : Fit path mode b.releaseRetainedSource := by
  fun_cases releaseRetainedSource <;> grind [emit, emitAll]

variable (outcome : ReleaseOutcome)

@[grind ←]
theorem fit_beginReservationRelease : Fit path mode (b.beginReservationRelease env outcome).1 := by
  fun_cases beginReservationRelease <;>
    grind [emit, changes, hasNamespace, isRead]

@[grind ←]
theorem fit_finishWithoutLease : Fit path mode (b.finishWithoutLease env outcome) := by
  fun_cases finishWithoutLease with
  | case1 => grind
  | case2 b' hbegun =>
    have hreleased := @fit_releaseRetainedSource path mode b'
    cases outcome <;> grind [emitAll]

@[grind ←]
theorem fit_beginRelease : Fit path mode (b.beginRelease env outcome) := by
  have hreleased := fit_releaseRetainedSource h
  fun_cases beginRelease <;> grind

@[grind ←]
theorem fit_releasePublished : Fit path mode (b.releasePublished env outcome) := by
  fun_cases releasePublished
  grind [emit, emitAll]

@[grind ←]
theorem fit_beginUnpublish : Fit path mode (b.beginUnpublish env outcome) := by
  have hwrite : mode.hasNamespace = true → mode.isRead = false := by
    cases mode <;> simp [hasNamespace, isRead]
  fun_cases beginUnpublish <;> grind [emit, changes]

theorem fit_fail (error : HostError) : Fit path mode (b.fail env error) := by
  fun_cases fail
  grind [emit, emitAll]

theorem fit_onStart : Fit path mode (b.onStart env) := by
  have hfail := @fit_fail path mode
  fun_cases onStart <;>
    grind [emit, changes, hasNamespace, isRead]

@[grind ←]
theorem fit_startTransfer (binding : Namespace.BlobBinding) (expectedRevision : Option ℕ)
    (routes : Bool) : Fit path mode (b.startTransfer env binding expectedRevision routes) := by
  have hfail := @fit_fail path mode
  fun_cases startTransfer <;> grind [emit, emitAll]

@[grind ←]
theorem fit_grant (lease : DataPlane.BlobLease) (metadata : BlobMetadata) {opened : BlobEffect}
    (hopened : opened.Proper path mode) : Fit path mode (b.grant env lease metadata opened) := by
  fun_cases grant <;> grind [emit, emitAll]

@[grind ←]
theorem fit_publish (source : ActorAddress) : Fit path mode (b.publish env source) := by
  have hfail := @fit_fail path mode
  fun_cases publish <;>
    grind [emit, changes, hasNamespace, isRead]

@[grind ←]
theorem fit_abort (operation : ActorAddress) (leaseId generation : ℕ) :
    Fit path mode (b.abort env operation leaseId generation) := by
  fun_cases abort <;> grind [emit, emitAll]

@[grind ←]
theorem fit_releaseAnswered (result : Except HostError Unit) :
    Fit path mode (b.releaseAnswered env result) := by
  fun_cases releaseAnswered
  grind [emit, emitAll]

theorem fit_handle (m : HostBindingIn) : Fit path mode (b.handle env m) := by
  have hfail := @fit_fail path mode
  fun_cases handle <;> grind

theorem proper_of_fit {writable : DataPath → Prop}
    (hwritable : mode.isRead = false → writable path) :
    (∀ effect ∈ b.sent, effect.Proper b.path b.mode) ∧
      (b.mode.isRead = false → writable b.path) := by
  grind

end

end BlobBinding

/-- The directory is asked for a stream. -/
def StreamEffect.isOpening : StreamEffect → Bool
  | .openStream _ _ _ _ _ => true
  | _ => false

namespace StreamCore

variable {scope : StreamScope} {c c' : StreamCore}

/-- A binding stays at its path, asks for what its scope says, and is terminal when it has
fenced a displacement. -/
structure Asked (scope : StreamScope) (c c' : StreamCore) : Prop where
  path : c'.path = c.path
  opens : ∀ effect ∈ c'.sent, effect.isOpening = true → effect ∈ c.sent ∨ scope.asks effect
  fences : (∀ incarnation ∈ c.fencedDisplacements, c.terminal.isSome) →
    ∀ incarnation ∈ c'.fencedDisplacements, c'.terminal.isSome

theorem Asked.refl (c : StreamCore) : Asked scope c c :=
  ⟨rfl, fun _ hmem _ => .inl hmem, id⟩

theorem Asked.trans {c'' : StreamCore} (h : Asked scope c c') (h' : Asked scope c' c'') :
    Asked scope c c'' := by
  obtain ⟨hpath, hopens, hfences⟩ := h
  obtain ⟨hpath', hopens', hfences'⟩ := h'
  constructor <;> grind

variable {effect : StreamEffect}

@[grind →]
theorem isOpening_of_quiet (hquiet : effect.quiet = true) : effect.isOpening = false := by
  cases effect <;> simp_all [isOpening, quiet]

@[grind →]
theorem isOpening_of_mem_wakeAll {waiters : List ActorAddress} {result : Except StreamError Unit}
    (h : effect ∈ StreamBinding.wakeAll waiters result) : effect.isOpening = false := by
  grind [StreamBinding.wakeAll, isOpening]

theorem asked_move (hmove : StreamMove scope c c') : Asked scope c c' := by
  cases hmove <;> constructor <;>
    grind [emitAll, terminated, farewell, released, completed, isOpening]

theorem asked_moves (hmoves : StreamMoves scope c c') : Asked scope c c' := by
  induction hmoves with
  | refl => exact .refl c
  | tail _ hmove ih => exact ih.trans (asked_move hmove)

end StreamCore

namespace StreamBinding

variable {b : StreamBinding}

theorem asked_receive {scope : StreamScope} (b : StreamBinding) (env : StreamServices)
    (m : HostStreamIn) : StreamCore.Asked scope b.core (b.receive env m).core := by
  fun_cases receive <;> simp only [handle, core] <;> constructor <;>
    grind [emit, emitAll, completeRelease, isOpening]

/-- What a stream binding may ask for: to make or replace its path only if that is writable. -/
structure Rightful (writable : DataPath → Prop) (b : StreamBinding) : Prop where
  opens : ∀ role descriptor replace ensure expectedRevision,
    .openStream role descriptor replace ensure expectedRevision ∈ b.sent →
      (ensure || replace) = true → writable b.path
  fences : ∀ incarnation ∈ b.fencedDisplacements, b.terminal.isSome

variable {writable : DataPath → Prop}

theorem Rightful.step (h : b.Rightful writable) (input : HostStreamIn × StreamServices) :
    (b.step input).Rightful writable := by
  obtain ⟨m, env⟩ := input
  cases hrunning : b.stopped with
  | true =>
    simp only [StreamBinding.step, hrunning, if_true]
    exact h
  | false =>
    have hasked : StreamCore.Asked (b.scope m) b.core (b.step (m, env)).core :=
      (asked_receive b env m).trans
        (StreamCore.asked_moves (turns_step b env m hrunning h.fences).moves)
    have hpath : (b.step (m, env)).path = b.path := hasked.path
    refine ⟨fun role descriptor replace ensure revision hmem hflags => ?_, hasked.fences h.fences⟩
    rw [hpath]
    rcases hasked.opens _ hmem rfl with hmem | hasks
    · exact h.opens role descriptor replace ensure revision hmem hflags
    · cases hasks

/-- A binding that starts asks for what it was spawned with. -/
theorem rightful_start {spawn : StreamSpawn} (self : ActorAddress) (descriptor : List UInt8)
    (env : StreamServices)
    (hwritable : (spawn.ensure || spawn.replace) = true → writable spawn.path) :
    ((spawn.binding self descriptor).start env).Rightful writable := by
  obtain ⟨pending, hturns⟩ := turns_start (spawn.binding self descriptor) env rfl
  have hasked := StreamCore.asked_moves hturns.moves
  have hpath : ((spawn.binding self descriptor).start env).path = spawn.path := hasked.path
  refine ⟨fun role descriptor' replace ensure revision hmem hflags => ?_, hasked.fences ?_⟩
  · rw [hpath]
    rcases hasked.opens _ hmem rfl with hmem | hasks
    · simp [core, StreamSpawn.binding] at hmem
    · cases hasks
      exact hwritable hflags
  · simp [core, StreamSpawn.binding]

end StreamBinding

end Swactor.Host
