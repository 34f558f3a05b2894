import Swactor.Host.Session
import Swactor.Host.Requests

/-!
# What a session may change in the namespace

Whatever the child makes its session do, the paths whose entries the requests of the session can
change lie below its write prefixes. The exception is an open that only reads and has the policy
to ensure a stream: it creates the node, or replaces what is there, with the permission to read.
-/
namespace Swactor.Host

open Machine HelperTask List
open Std (ExtTreeMap)
open Namespace (DataPath NamespaceRequest)

/-- The effect asks for changes of writable paths only, as far as the session can know. -/
def SessionEffect.Rightful (writable : DataPath → Prop) : SessionEffect → Prop
  | .helper _ task => ∀ changed ∈ changes task.request, writable changed
  | .blob binding => binding.sent = [] ∧ (binding.mode.isRead = false → writable binding.path)
  | .stream binding => ∃ spawn self descriptor,
      binding = StreamSpawn.binding spawn self descriptor ∧
        ((spawn.ensure || spawn.replace) = true → writable spawn.path)
  | _ => True

/-- What the session has to know of the opens that wait. -/
structure PendingOpen.Entitled (writable : DataPath → Prop) (pending : PendingOpen) : Prop where
  valid : pending.options.validate = .ok ()
  write : pending.options.access.canWrite = true → writable pending.path.number

structure Session.Entitled (writable : DataPath → Prop) (s : Session) : Prop where
  access : ∀ path, s.access.canWrite path = true → writable path.number
  pending : ∀ (operation : ActorAddress) (pending : PendingOpen),
    s.pendingOpens[operation]? = some pending →
    pending.Entitled writable
  sent : ∀ effect ∈ s.sent, effect.Rightful writable

theorem OpenOptions.canWrite_of_allocation {options : OpenOptions} {allocation : BlobAllocation}
    (hvalid : options.validate = .ok ()) (halloc : options.allocation = some allocation) :
    options.access.canWrite = true := by
  unfold validate at hvalid
  split_ifs at hvalid with _ _ _ hfixed
  by_contra hread
  exact hfixed ⟨by simp [halloc], by simp [hread]⟩

namespace Session

variable {writable : DataPath → Prop} {s s' : Session} {env : SessionServices}

namespace Entitled

section

variable (h : s.Entitled writable)
include h

/-- Other fields do not matter. -/
theorem frame (haccess : s'.access = s.access) (hpending : s'.pendingOpens = s.pendingOpens)
    (hsent : s'.sent = s.sent) : s'.Entitled writable :=
  ⟨haccess ▸ h.access, hpending ▸ h.pending, hsent ▸ h.sent⟩

theorem emitAll {effects : List SessionEffect}
    (heffects : ∀ effect ∈ effects, effect.Rightful writable) :
    (s.emitAll effects).Entitled writable := by
  refine ⟨h.access, h.pending, fun known hknown => ?_⟩
  rcases mem_append.mp hknown with hknown | hknown
  · exact h.sent known hknown
  · exact heffects known hknown

theorem emit {effect : SessionEffect} (heffect : effect.Rightful writable) :
    (s.emit effect).Entitled writable :=
  h.emitAll (forall_mem_singleton.mpr heffect)

theorem erase (operation : ActorAddress) :
    Entitled writable { s with pendingOpens := s.pendingOpens.erase operation } :=
  ⟨h.access, fun known pending hmem =>
    h.pending known pending (Maps.getElem?_erase_eq_some.mp hmem).2, h.sent⟩

theorem clear : Entitled writable { s with pendingOpens := ∅ } :=
  ⟨h.access, by simp, h.sent⟩

end

end Entitled

section

variable (h : s.Entitled writable)

include h

variable (childSession : ActorAddress)

section

variable (operation : ActorAddress)

theorem entitled_spawnBlobRead (path : Paths.DataPath) (expectedRevision : Option ℕ) :
    (s.spawnBlobRead env childSession operation path expectedRevision).Entitled writable := by
  unfold spawnBlobRead
  split
  · exact h.emit trivial
  · split
    · next binding hbinding =>
      have hspawned : (s.emit (.blob (.namespaceRead binding operation path.number
          expectedRevision s.routes))).Entitled writable := h.emit ⟨rfl, nofun⟩
      exact hspawned.frame rfl rfl rfl
    · exact h.emit trivial

theorem entitled_spawnBlobWrite {path : Paths.DataPath} (hpath : writable path.number)
    (allocation : BlobAllocation) (reservation : Option Namespace.OperationId) :
    (s.spawnBlobWrite env childSession operation path allocation reservation).Entitled
      writable := by
  unfold spawnBlobWrite
  split
  · next binding hbinding =>
    have hspawned : (s.emit (.blob (.write binding operation path.number allocation.length
        allocation.digest reservation s.namespace s.publisher))).Entitled writable :=
      h.emit ⟨rfl, fun _ => hpath⟩
    exact hspawned.frame rfl rfl rfl
  · refine Entitled.emit (h.emitAll fun effect heffect => ?_) trivial
    split at heffect
    · rw [mem_singleton.mp heffect]
      trivial
    · simp at heffect

theorem entitled_spawnStream {spawn : StreamSpawn}
    (hspawn : (spawn.ensure || spawn.replace) = true → writable spawn.path) :
    (s.spawnStream env childSession operation spawn).Entitled writable := by
  unfold spawnStream
  split
  · exact h.emit trivial
  · split
    · exact h.emit trivial
    · next descriptor hdescriptor =>
      split
      · exact h.emit trivial
      · next binding hbinding =>
        have hspawned : (s.emit (.stream (spawn.binding binding descriptor))).Entitled writable :=
          h.emit ⟨spawn, binding, descriptor, rfl, hspawn⟩
        dsimp only
        split
        · refine Entitled.emit (hspawned.emit ?_) ?_ <;> trivial
        · exact hspawned.frame rfl rfl rfl

end

theorem entitled_revokeChildRoute : s.revokeChildRoute.Entitled writable := by
  unfold revokeChildRoute
  split
  · exact h.emitAll (by simp [SessionEffect.Rightful])
  · exact h

theorem entitled_revokeSession (revokeRoute : Bool) :
    (s.revokeSession revokeRoute).Entitled writable := by
  unfold revokeSession
  split
  · exact h
  · have hstate : Entitled writable { s with state := .revoked } := h.frame rfl rfl rfl
    have hroute : (if revokeRoute then revokeChildRoute { s with state := .revoked }
        else { s with state := .revoked }).Entitled writable := by
      split
      · exact entitled_revokeChildRoute hstate
      · exact hstate
    refine Entitled.frame (hroute.emitAll fun effect heffect => ?_).clear rfl rfl rfl
    simp only [mem_append, mem_map] at heffect
    rcases heffect with
      (((⟨_, -, rfl⟩ | ⟨_, -, rfl⟩) | ⟨_, -, rfl⟩) | ⟨_, -, rfl⟩) | ⟨_, -, rfl⟩ <;> trivial

theorem entitled_maybeFinishClose : s.maybeFinishClose.Entitled writable := by
  unfold maybeFinishClose
  split
  · refine Entitled.frame (entitled_revokeChildRoute ?_) rfl rfl rfl
    refine Entitled.frame (h.emitAll (fun effect heffect => ?_)) rfl rfl rfl
    simp only [mem_cons, mem_append, mem_map] at heffect
    rcases heffect with rfl | ⟨_, -, rfl⟩ | ⟨_, -, rfl⟩ <;> trivial
  · exact h

theorem entitled_beginClose (replyTo : Option ActorAddress) :
    (s.beginClose replyTo).Entitled writable := by
  unfold beginClose
  split
  · exact h.emitAll (by simp [SessionEffect.Rightful])
  · have hnoted : Entitled writable { s with closeReplies := s.closeReplies ++ replyTo.toList } :=
      h.frame rfl rfl rfl
    exact entitled_maybeFinishClose
      ((entitled_revokeSession hnoted false).frame rfl rfl rfl)

theorem entitled_beginChildClose : (s.beginChildClose childSession).Entitled writable := by
  unfold beginChildClose
  split
  · exact h.emit trivial
  · split
    · exact h.emit trivial
    · apply entitled_beginClose
      exact h.frame rfl rfl rfl

theorem entitled_attach (arenaGeneration sessionCapability : ℕ) (childNode : Option NodeId) :
    (s.attach env childSession arenaGeneration sessionCapability childNode).Entitled writable := by
  unfold attach
  dsimp only
  split
  · refine Entitled.frame (h.emitAll fun effect heffect => ?_) rfl rfl rfl
    rcases mem_append.mp heffect with heffect | heffect
    · obtain ⟨node, -, rfl⟩ := mem_map.mp heffect
      trivial
    · rw [mem_singleton.mp heffect]
      trivial
  · refine h.emitAll fun effect heffect => ?_
    rcases mem_append.mp heffect with heffect | heffect
    · obtain ⟨node, -, rfl⟩ := mem_map.mp heffect
      trivial
    · rcases mem_cons.mp heffect with rfl | heffect
      · trivial
      · obtain ⟨node, -, rfl⟩ := mem_map.mp heffect
        trivial

/-- A path that may be opened for writing is writable. -/
theorem writable_of_validateOpen {childSession : ActorAddress} {logical resolved : Paths.DataPath}
    {access : AccessMode} (hvalid : s.validateOpen childSession logical access = .ok resolved)
    (hwrite : access.canWrite = true) : writable resolved.number := by
  unfold validateOpen at hvalid
  split at hvalid
  · cases hvalid
  · split at hvalid
    · cases hvalid
    · split at hvalid
      · next hallowed =>
        cases hvalid
        apply h.access
        simpa [hwrite] using (Bool.and_eq_true_iff.mp hallowed).2
      · cases hvalid

theorem changes_validated {childSession operation : ActorAddress}
    {request valid : NamespaceOperation Paths.DataPath}
    (hvalid : s.validateNamespaceOperation childSession request = .ok valid) :
    ∀ changed ∈ changes (control operation childSession (numbered valid)).request,
      writable changed := by
  cases request with
  | lookup path =>
    cases hopen : s.validateOpen childSession path .readOnly with
    | error error => simp [validateNamespaceOperation, hopen, bind, Except.bind] at hvalid
    | ok resolved =>
      simp only [validateNamespaceOperation, hopen, bind, Except.bind] at hvalid
      cases hvalid
      simp [numbered, request, changes]
  | unlink path =>
    cases hopen : s.validateOpen childSession path .writeOnly with
    | error error => simp [validateNamespaceOperation, hopen, bind, Except.bind] at hvalid
    | ok resolved =>
      have hwritable := writable_of_validateOpen h hopen rfl
      simp only [validateNamespaceOperation, hopen, bind, Except.bind] at hvalid
      cases hvalid
      simpa [numbered, request, changes] using hwritable
  | rename source destination replace =>
    cases hsource : s.validateOpen childSession source .writeOnly with
    | error error => simp [validateNamespaceOperation, hsource, bind, Except.bind] at hvalid
    | ok from' =>
      cases hdestination : s.validateOpen childSession destination .writeOnly with
      | error error =>
        simp [validateNamespaceOperation, hsource, hdestination, bind, Except.bind] at hvalid
      | ok into =>
        have hfrom := writable_of_validateOpen h hsource rfl
        have hinto := writable_of_validateOpen h hdestination rfl
        simp only [validateNamespaceOperation, hsource, hdestination, bind, Except.bind] at hvalid
        cases hvalid
        simpa [numbered, request, changes] using ⟨hfrom, hinto⟩

variable (operation : ActorAddress)

theorem entitled_controlNamespace (request : NamespaceOperation Paths.DataPath)
    (childSession : ActorAddress) :
    (s.controlNamespace env operation request childSession).Entitled writable := by
  unfold controlNamespace
  split
  · exact h.emit trivial
  · next valid hvalid =>
    split
    · exact h.emit trivial
    · split
      · next actor hactor =>
        have hspawned : (s.emit (.helper actor (.control operation childSession
            (numbered valid)))).Entitled writable := h.emit (changes_validated h hvalid)
        exact hspawned.frame rfl rfl rfl
      · exact h.emit trivial

theorem entitled_openEnsured (operation : ActorAddress) {path : Paths.DataPath}
    (hpath : writable path.number) (options : OpenOptions) (replace : Bool) :
    (s.openEnsured env childSession operation path options replace).Entitled writable := by
  unfold openEnsured
  split
  · exact h.emit trivial
  · split
    · exact h.emit trivial
    · exact entitled_spawnStream h childSession operation fun _ => hpath

variable {pending : PendingOpen}

theorem entitled_await (hpending : pending.Entitled writable) {task : HelperTask}
    (htask : ∀ changed ∈ changes task.request, writable changed) :
    (s.await env operation pending task).Entitled writable := by
  unfold await
  split
  · next actor hactor =>
    have hemitted : (s.emit (.helper actor task)).Entitled writable := h.emit htask
    refine ⟨hemitted.access, fun known kept hmem => ?_, hemitted.sent⟩
    rw [ExtTreeMap.getElem?_insert] at hmem
    split at hmem
    · cases hmem
      exact hpending
    · exact h.pending known kept hmem
  · exact (h.erase operation).emit trivial

theorem entitled_openPath (path : Paths.DataPath) (options : OpenOptions) (policy : OpenPolicy)
    (childSession operation : ActorAddress)
    (hensured : ∀ replace resolved, policy = .ensureStream replace → options.access = .readOnly →
      s.validateOpen childSession path options.access = .ok resolved →
        s.access.canWrite resolved = true) :
    (s.openPath env path options policy childSession operation).Entitled writable := by
  unfold openPath
  split
  · exact h.emit trivial
  · next hvalid =>
    split
    · exact h.emit trivial
    · next resolved hresolved =>
      split
      · next replace =>
        refine entitled_openEnsured h childSession operation ?_ options replace
        cases haccess : options.access with
        | readOnly => exact h.access resolved (hensured replace resolved rfl haccess hresolved)
        | writeOnly | readWrite => exact writable_of_validateOpen h hresolved (by rw [haccess]; rfl)
      · split
        · exact h.emit trivial
        · refine entitled_await h operation
            ⟨hvalid, fun hwrite => writable_of_validateOpen h hresolved hwrite⟩ ?_
          simp [request, changes]

theorem entitled_openAbsent (hpending : pending.Entitled writable) :
    (s.openAbsent env operation pending).Entitled writable := by
  unfold openAbsent
  split
  · exact h.emit trivial
  · next allocation hallocation =>
    have hwritable := hpending.write
      (OpenOptions.canWrite_of_allocation hpending.valid hallocation)
    split
    · refine entitled_await h operation hpending ?_
      simpa [request, changes] using hwritable
    · exact entitled_spawnBlobWrite h _ operation hwritable allocation none

theorem entitled_openBlob (hpending : pending.Entitled writable) (revision : ℕ) :
    (s.openBlob env operation pending revision).Entitled writable := by
  unfold openBlob
  dsimp only
  split
  · exact h.emit trivial
  · split
    · exact entitled_spawnBlobRead h _ operation _ _
    · split
      · next hwrite =>
        split
        · exact h.emit trivial
        · exact entitled_spawnBlobWrite h _ operation (hpending.write hwrite.1) _ none
      · exact h.emit trivial

theorem entitled_openStreamNode (pending : PendingOpen) (revision : ℕ) :
    (s.openStreamNode env operation pending revision).Entitled writable := by
  unfold openStreamNode
  split
  · exact h.emit trivial
  · split
    · exact h.emit trivial
    · exact entitled_spawnStream h _ operation nofun

theorem entitled_openResolved (result : Except Namespace.NamespaceError Namespace.NamespaceNode) :
    (s.openResolved env operation result).Entitled writable := by
  have hlooked : Entitled writable { s with openLookups := s.openLookups.erase operation } :=
    h.frame rfl rfl rfl
  unfold openResolved
  dsimp only
  split
  · exact hlooked
  · next pending hmem =>
    have hpending := h.pending operation pending hmem
    have herased := hlooked.erase operation
    split
    · split
      · exact entitled_openAbsent herased operation hpending
      · exact herased.emit trivial
    · exact herased.emit trivial
    · split
      · exact entitled_openBlob herased operation hpending _
      · exact entitled_openStreamNode herased operation pending _

theorem entitled_blobReserved (reservedPath : DataPath) (reservation : Namespace.OperationId)
    (result : Except Namespace.NamespaceError Unit) :
    (s.blobReserved env operation reservedPath reservation result).Entitled writable := by
  have hlooked : Entitled writable { s with openLookups := s.openLookups.erase operation } :=
    h.frame rfl rfl rfl
  unfold blobReserved
  dsimp only
  split
  · split
    · exact hlooked.emit trivial
    · exact hlooked
  · next pending hmem =>
    have hpending := h.pending operation pending hmem
    have herased := hlooked.erase operation
    split
    · exact herased.emit trivial
    · split
      · exact herased.frame rfl rfl rfl
      · next allocation hallocation =>
        exact entitled_spawnBlobWrite herased _ operation (hpending.write
          (OpenOptions.canWrite_of_allocation hpending.valid hallocation)) allocation _

theorem entitled_cancelOpen : (s.cancelOpen operation).Entitled writable := by
  refine Entitled.frame (Entitled.erase (h.emitAll fun effect heffect => ?_) operation) rfl
    rfl rfl
  simp only [mem_append, mem_map] at heffect
  rcases heffect with (⟨_, -, rfl⟩ | ⟨_, -, rfl⟩) | ⟨_, -, rfl⟩ <;> trivial

theorem entitled_forward (binding : ActorAddress) (message : HostBindingIn) :
    (s.forward binding message).Entitled writable := by
  unfold forward
  split
  · exact h.emit trivial
  · exact h

theorem entitled_configureExecution (executionId : List Char) (replyTo : ActorAddress) :
    (s.configureExecution executionId replyTo).Entitled writable := by
  unfold configureExecution
  split
  · exact h.emit trivial
  · dsimp only
    split
    · refine Entitled.emit ?_ trivial
      exact ⟨h.access, h.pending, h.sent⟩
    · exact h.emit trivial

theorem entitled_handle (m : HostSessionIn)
    (hensured : ∀ path options replace childSession operation resolved,
      m = .openPath path options (.ensureStream replace) childSession operation →
      options.access = .readOnly → s.validateOpen childSession path options.access = .ok resolved →
        s.access.canWrite resolved = true) : (s.handle env m).Entitled writable := by
  cases m with
  | attach childSession arenaGeneration sessionCapability childNode =>
    exact entitled_attach h childSession arenaGeneration sessionCapability childNode
  | «namespace» operation request childSession =>
    exact entitled_controlNamespace h operation request childSession
  | namespaceResolved operation childSession result =>
    apply entitled_maybeFinishClose
    split
    · refine Entitled.emit ?_ trivial
      exact h.frame rfl rfl rfl
    · exact h
  | cancelNamespace operation =>
    apply entitled_maybeFinishClose
    refine Entitled.frame (h.emitAll fun effect heffect => ?_) rfl rfl rfl
    obtain ⟨_, -, rfl⟩ := mem_map.mp heffect
    trivial
  | openPath path options policy childSession operation =>
    refine entitled_openPath h path options policy childSession operation ?_
    rintro replace resolved rfl hread hresolved
    exact hensured path options replace childSession operation resolved rfl hread hresolved
  | openResolved operation result => exact entitled_openResolved h operation result
  | blobReserved operation path reservation result =>
    exact entitled_blobReserved h operation path reservation result
  | cancelOpen operation => exact entitled_cancelOpen h operation
  | streamControl binding message =>
    show (if _ then _ else _ : Session).Entitled writable
    split
    · exact h.emit trivial
    · exact h
  | releaseBlob binding leaseId generation | sealWriteBlob binding operation lease metadata
  | abortWriteBlob binding operation leaseId generation => exact entitled_forward h binding _
  | bindingFaulted binding operation error =>
    show (if _ then _ else _ : Session).Entitled writable
    split
    · refine h.emitAll fun effect heffect => ?_
      obtain ⟨_, -, rfl⟩ := mem_map.mp heffect
      trivial
    · exact h
  | bindingDone binding | bindingDetached binding =>
    apply entitled_maybeFinishClose
    exact h.frame rfl rfl rfl
  | configureExecution executionId replyTo =>
    exact entitled_configureExecution h executionId replyTo
  | revoke => exact entitled_revokeSession h true
  | close replyTo => exact entitled_beginClose h replyTo
  | closeChild childSession => exact entitled_beginChildClose h childSession

end

end Session

/-- A session with the actors that it has spawned: what its own requests of the namespace are for,
and its bindings. -/
structure SessionHost where
  session : Session
  tasks : List HelperTask := []
  blobs : List BlobBinding := []
  streams : List StreamBinding := []

/-- A message for the session or for one of its bindings. A binding that the session spawns starts
in the same step. -/
inductive SessionHostAction
  | session (message : HostSessionIn) (env : SessionServices) (blob : BlobServices)
      (stream : StreamServices)
  | blob (index : ℕ) (message : HostBindingIn) (env : BlobServices)
  | stream (index : ℕ) (message : HostStreamIn) (env : StreamServices)

namespace SessionEffect

def task? : SessionEffect → Option HelperTask
  | .helper _ task => some task
  | _ => none

def blob? (env : BlobServices) : SessionEffect → Option BlobBinding
  | .blob binding => some (binding.onStart env)
  | _ => none

def stream? (env : StreamServices) : SessionEffect → Option StreamBinding
  | .stream binding => some (binding.start env)
  | _ => none

end SessionEffect

/-- The request that a blob binding has made. -/
def BlobEffect.request? : BlobEffect → Option NamespaceRequest
  | .helper _ task => some task.request
  | _ => none

/-- The request that a stream binding has made. -/
def StreamBinding.request? (b : StreamBinding) : StreamEffect → Option NamespaceRequest
  | .openStream role descriptor replace ensure expectedRevision =>
      some (streamOpen ⟨b.path, role, b.self, descriptor, replace, ensure,
        expectedRevision, streamOperationId b.self⟩).request
  | .closeStream path incarnation => some (streamClose path incarnation).request
  | _ => none

namespace SessionHost

def step (h : SessionHost) : SessionHostAction → SessionHost
  | .session message env blob stream =>
      let session := h.session.step (message, env)
      { session := session
        tasks := h.tasks ++ session.sent.filterMap SessionEffect.task?
        blobs := h.blobs ++ session.sent.filterMap (SessionEffect.blob? blob)
        streams := h.streams ++ session.sent.filterMap (SessionEffect.stream? stream) }
  | .blob index message env => { h with blobs := h.blobs.modify index (·.step (message, env)) }
  | .stream index message env =>
      { h with streams := h.streams.modify index (·.step (message, env)) }

/-- Every request that the actors of the session have made. -/
def requests (h : SessionHost) : List NamespaceRequest :=
  h.tasks.map request ++
    h.blobs.flatMap (fun binding => binding.sent.filterMap BlobEffect.request?) ++
    h.streams.flatMap fun binding => binding.sent.filterMap binding.request?

/-- A read that may make a stream of its path, and that the session admits, names a path that the
session may write. -/
def Admitted (h : SessionHost) : SessionHostAction → Prop
  | .session (.openPath path options (.ensureStream _) childSession _) _ _ _ =>
      options.access = .readOnly →
        (h.session.validateOpen childSession path options.access).toOption.all
          h.session.access.canWrite = true
  | _ => True

variable {writable : DataPath → Prop} {h : SessionHost}

structure Entitled (writable : DataPath → Prop) (h : SessionHost) : Prop where
  session : h.session.Entitled writable
  tasks : ∀ task ∈ h.tasks, ∀ changed ∈ changes task.request, writable changed
  blobs : ∀ binding ∈ h.blobs, (∀ effect ∈ binding.sent, effect.Proper binding.path binding.mode) ∧
    (binding.mode.isRead = false → writable binding.path)
  streams : ∀ binding ∈ h.streams, binding.Rightful writable

theorem mem_of_mem_modify {α : Type} {entries : List α} {index : ℕ} {f : α → α} {entry : α}
    (hmem : entry ∈ entries.modify index f) :
    entry ∈ entries ∨ ∃ known ∈ entries, f known = entry := by
  obtain ⟨i, hi⟩ := mem_iff_getElem?.mp hmem
  rw [getElem?_modify] at hi
  cases hknown : entries[i]? with
  | none => simp [hknown] at hi
  | some known =>
    have hold := mem_of_getElem? hknown
    split at hi
    · rw [hknown] at hi
      exact .inr ⟨known, hold, Option.some.inj hi⟩
    · rw [hknown] at hi
      exact .inl (Option.some.inj hi ▸ hold)

theorem entitled_step (hs : h.Entitled writable) (a : SessionHostAction)
    (hadmitted : h.Admitted a) : (h.step a).Entitled writable := by
  cases a with
  | session message env blob stream =>
    have hsession : (h.session.step (message, env)).Entitled writable := by
      have hquiet : Session.Entitled writable { h.session with sent := [] } :=
        ⟨hs.session.access, hs.session.pending, by simp⟩
      unfold Session.step
      split
      · exact hquiet
      · refine Session.entitled_handle hquiet message ?_
        rintro path options replace childSession operation resolved rfl hread hresolved
        have hpath := hadmitted hread
        rw [show h.session.validateOpen childSession path options.access = .ok resolved
          from hresolved] at hpath
        exact hpath
    refine ⟨hsession, fun task htask => ?_, fun binding hbinding => ?_, fun binding hbinding => ?_⟩
    · rcases mem_append.mp htask with htask | htask
      · exact hs.tasks task htask
      · obtain ⟨effect, heffect, hspawned⟩ := mem_filterMap.mp htask
        have hrightful := hsession.sent effect heffect
        cases effect <;> cases hspawned
        exact hrightful
    · rcases mem_append.mp hbinding with hbinding | hbinding
      · exact hs.blobs binding hbinding
      · obtain ⟨effect, heffect, hspawned⟩ := mem_filterMap.mp hbinding
        have hrightful := hsession.sent effect heffect
        cases effect with
        | blob spawned =>
          cases hspawned
          obtain ⟨hsent, hwritable⟩ := hrightful
          exact BlobBinding.proper_of_fit
            (BlobBinding.fit_onStart ⟨rfl, rfl, by simp [hsent]⟩) hwritable
        | _ => cases hspawned
    · rcases mem_append.mp hbinding with hbinding | hbinding
      · exact hs.streams binding hbinding
      · obtain ⟨effect, heffect, hspawned⟩ := mem_filterMap.mp hbinding
        have hrightful := hsession.sent effect heffect
        cases effect <;> cases hspawned
        obtain ⟨spawn, self, descriptor, rfl, hwritable⟩ := hrightful
        exact StreamBinding.rightful_start self descriptor stream hwritable
  | blob index message env =>
    refine ⟨hs.session, hs.tasks, fun binding hbinding => ?_, hs.streams⟩
    rcases mem_of_mem_modify hbinding with hbinding | ⟨old, hold, rfl⟩
    · exact hs.blobs binding hbinding
    · obtain ⟨hproper, hwritable⟩ := hs.blobs old hold
      unfold BlobBinding.step
      split
      · exact ⟨hproper, hwritable⟩
      · exact BlobBinding.proper_of_fit (BlobBinding.fit_handle ⟨rfl, rfl, hproper⟩ message)
          hwritable
  | stream index message env =>
    refine ⟨hs.session, hs.tasks, hs.blobs, fun binding hbinding => ?_⟩
    rcases mem_of_mem_modify hbinding with hbinding | ⟨old, hold, rfl⟩
    · exact hs.streams binding hbinding
    · exact (hs.streams old hold).step (message, env)

/-- The requests of entitled actors change only what is writable. -/
theorem Entitled.requests (hs : h.Entitled writable) {request : NamespaceRequest}
    (hrequest : request ∈ h.requests) : ∀ changed ∈ changes request, writable changed := by
  intro changed hchanged
  simp only [SessionHost.requests, mem_append, mem_map, mem_flatMap,
    mem_filterMap] at hrequest
  rcases hrequest with (⟨task, htask, rfl⟩ | ⟨binding, hbinding, effect, heffect, hmade⟩) |
    ⟨binding, hbinding, effect, heffect, hmade⟩
  · exact hs.tasks task htask changed hchanged
  · obtain ⟨hproper, hwritable⟩ := hs.blobs binding hbinding
    have hchange := hproper effect heffect
    cases effect <;> cases hmade
    obtain ⟨rfl, hwrite⟩ := hchange changed hchanged
    exact hwritable hwrite
  · have hrightful := hs.streams binding hbinding
    cases effect <;> cases hmade
    · next role descriptor replace ensure expectedRevision =>
      simp only [request, changes] at hchanged
      split at hchanged
      · next hflags =>
        rw [mem_singleton.mp hchanged]
        exact hrightful.opens role descriptor replace ensure expectedRevision heffect hflags
      · simp at hchanged
    · simp [request, changes] at hchanged

/-- For every access, every child and every sequence of messages to a session and to the bindings
that it spawns: no request changes a path outside the write prefixes of the session, as long as the
reads that may make a stream are of paths that the session may write. -/
theorem changes_within_write_prefixes {config : SessionConfig} {s : Session}
    (hnew : Session.new config = .ok s) {actions : List SessionHostAction}
    (hadmitted : Machine.Guarded Admitted step { session := s } actions) :
    ∀ request ∈ (actions.foldl step { session := s }).requests, ∀ changed ∈ changes request,
      ∃ path : Paths.DataPath, path.number = changed ∧ config.access.canWrite path = true := by
  have hstart : Entitled
      (fun changed => ∃ path : Paths.DataPath, path.number = changed ∧
        config.access.canWrite path = true) { session := s } := by
    unfold Session.new at hnew
    split at hnew
    · cases hnew
    · split at hnew
      · cases hnew
      · cases hnew
        refine ⟨⟨fun path hpath => ⟨path, rfl, hpath⟩, ?_, ?_⟩, ?_, ?_, ?_⟩ <;> simp
  have hrun := hadmitted.invariant (fun _ a hs ha => entitled_step hs a ha) hstart
  exact fun request hrequest => hrun.requests hrequest

/-- A session that may read everything and write below `/w`. -/
def sampleAccess : SessionConfig where
  self := 1
  arenaGeneration := 1
  sessionGeneration := 1
  capability := 0
  access := ⟨['e'], [⟨['/', 'r'], by decide⟩, ⟨['/', 'w'], by decide⟩], [⟨['/', 'w'], by decide⟩]⟩

/-- The session of the sample when it has been made. -/
def sampleSession : Session :=
  match Session.new sampleAccess with
  | .ok s => s
  | .error _ => { self := 0, arenaGeneration := 0, sessionGeneration := 0, capability := 0,
                  access := ⟨[], [], []⟩ }

/-- A child attaches and reads the path as a stream that may be made. -/
def ensuredRead (path : Paths.DataPath) : List SessionHostAction :=
  [.session (.attach 2 1 0 none) {} {} {},
   .session (.openPath path { access := .readOnly } (.ensureStream true) 2 3) {} {} {}]

/-- The stream that the read made is below `/w`. -/
theorem changes_within_write_prefixes_ensured :
    let requests := ((ensuredRead ⟨['/', 'w'], by decide⟩).foldl step
      { session := sampleSession }).requests
    (∃ request ∈ requests, Paths.DataPath.number ⟨['/', 'w'], by decide⟩ ∈ changes request) ∧
      ∀ request ∈ requests, ∀ changed ∈ changes request,
        ∃ path : Paths.DataPath, path.number = changed ∧
          sampleAccess.access.canWrite path = true := by
  refine ⟨by decide +kernel, ?_⟩
  refine changes_within_write_prefixes rfl ⟨trivial, fun _ => ?_, trivial⟩
  decide +kernel

/-- A session replaces by a stream what is at a path that it may not write. -/
theorem read_replaces_entry :
    ∃ request ∈ ((ensuredRead ⟨['/', 'r'], by decide⟩).foldl step
        { session := sampleSession }).requests, ∃ changed ∈ changes request,
      ∀ path : Paths.DataPath, path.number = changed →
        sampleAccess.access.canWrite path = false := by
  have hmade : ∃ request ∈ ((ensuredRead ⟨['/', 'r'], by decide⟩).foldl step
      { session := sampleSession }).requests,
      Paths.DataPath.number ⟨['/', 'r'], by decide⟩ ∈ changes request := by decide +kernel
  obtain ⟨request, hrequest, hchanged⟩ := hmade
  refine ⟨request, hrequest, _, hchanged, fun path hpath => ?_⟩
  rw [Paths.DataPath.number_injective hpath]
  decide +kernel

end SessionHost

end Swactor.Host
