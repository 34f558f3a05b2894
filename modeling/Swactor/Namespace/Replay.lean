import Swactor.Namespace.Handlers

/-!
# Retries of namespace mutations

A mutation that has been decided is recorded under the id of its operation, in memory and in the
file. Records stay, through failing commits and restarts, so a retry is answered from the record.
Two things around the record can interfere: a registration that is replayed still displaces the
stream that its path has by then, and an unregistration is not looked up while its path has a
stream.
-/
namespace Swactor.Namespace

open DataDirectoryIn DataDirectory NamespaceSnapshot List
open Std (ExtTreeMap)

/-- The id and the request under which a message is recorded. -/
def DataDirectoryIn.mutation : DataDirectoryIn → Option (OperationId × MutationRequest)
  | .register _ registration _ => some (registration.operationId, registration.request)
  | .unregister _ path operationId _ => some (operationId, .unregister path)
  | .rename _ source destination replace operationId _ =>
      some (operationId, .rename source destination replace)
  | .openStream request => some (request.operationId, .bindStream request.path)
  | _ => none

/-- The message that answers a mutation with the result. -/
def DataDirectoryIn.answer (epoch : ℕ) (result : Except NamespaceError MutationReceipt) :
    DataDirectoryIn → Option Sent
  | .register requestId _ replyTo => some (.reply replyTo (.registered requestId epoch result))
  | .unregister requestId _ _ replyTo =>
      some (.reply replyTo (.unregistered requestId epoch result))
  | .rename requestId _ _ _ _ replyTo => some (.reply replyTo (.renamed requestId epoch result))
  | .openStream request =>
      match result with
      | .ok _ => none
      | .error error =>
          some (.opened request.opening request.replyTo request.requestId epoch (.error error))
  | _ => none

theorem Moves.authorityEpoch {scope : Scope} {d d' : DataDirectory} (h : Moves scope d d') :
    d'.authorityEpoch = d.authorityEpoch := by
  induction h with
  | refl => rfl
  | tail _ hmove ih =>
    rw [← ih]
    cases hmove with
    | committed fates hupdate => cases hupdate <;> rfl
    | _ => rfl

namespace DataDirectory

/-- The message is a retry of a committed registration whose path has a stream by now. -/
def evicts (d : DataDirectory) : DataDirectoryIn → Bool
  | .register _ registration _ =>
      registration.path ∈ d.streams &&
        (d.store.replay registration.operationId registration.request).any Except.isOk
  | _ => false

variable {d : DataDirectory} {env : Surroundings} {requestId : ℕ} {replyTo : ActorAddress}
  {result : Except NamespaceError MutationReceipt}

theorem streams_queueStreamDisplacement (endpoint : ActorAddress)
    (incarnation : StreamIncarnation) :
    (d.queueStreamDisplacement endpoint incarnation).streams = d.streams := by
  unfold queueStreamDisplacement
  split
  · rfl
  · split <;> rfl

theorem streams_displaceStream (path : DataPath) :
    (d.displaceStream path).streams = d.streams.erase path := by
  unfold displaceStream
  split
  · next hentry => exact (erase_of_getElem?_eq_none hentry).symm
  · rfl
  · rw [streams_queueStreamDisplacement, streams_queueStreamDisplacement]

theorem moves_displaceStream (path : DataPath) : Moves .all d (d.displaceStream path) :=
  Deeds.moves (deeds_displaceStream fun _ _ => trivial)

theorem displaceStream_of_notMem {path : DataPath} (h : path ∉ d.streams) :
    d.displaceStream path = d := by
  have hentry : d.streams[path]? = none := by simpa using h
  simp only [displaceStream, hentry]

/-- A replayed registration is answered; a committed one displaces the stream of its path. -/
theorem handle_register_of_replay {registration : BlobRegistration}
    (h : d.store.replay registration.operationId registration.request = some result) :
    d.handle env (.register requestId registration replyTo) =
      (if result.isOk then d.displaceStream registration.path else d).send
        (.reply replyTo (.registered requestId d.authorityEpoch result)) := by
  have hregister : ∀ retired, d.register registration retired = (d, result) := by
    intro retired
    simp only [register, h]
  simp only [handle, hregister, retiredBy_of_mem (mem_operations_of_replay h)]
  cases result with
  | error error => rfl
  | ok receipt =>
    show (d.displaceStream registration.path).send (.reply replyTo (.registered requestId
      (d.displaceStream registration.path).authorityEpoch (.ok receipt))) = _
    rw [(moves_displaceStream registration.path).authorityEpoch]
    rfl

variable {operationId : OperationId}

theorem handle_unregister_of_replay {path : DataPath} (hclear : path ∉ d.streams)
    (h : d.store.replay operationId (.unregister path) = some result) :
    d.handle env (.unregister requestId path operationId replyTo) =
      d.send (.reply replyTo (.unregistered requestId d.authorityEpoch result)) := by
  have hunregister : ∀ retired, d.unregister path operationId retired = (d, result) := by
    intro retired
    simp only [unregister, h]
  simp only [handle, if_neg hclear, hunregister, retiredBy_of_mem (mem_operations_of_replay h),
    queueRetired, ite_self]

theorem handle_rename_of_replay {source destination : DataPath} {replace : Bool}
    (h : d.store.replay operationId (.rename source destination replace) = some result) :
    d.handle env (.rename requestId source destination replace operationId replyTo) =
      d.send (.reply replyTo (.renamed requestId d.authorityEpoch result)) := by
  have hrename : d.rename source destination replace operationId = (d, result) := by
    simp only [rename, h]
  simp only [handle, hrename, retiredBy_of_mem (mem_operations_of_replay h), queueRetired,
    ite_self]

theorem exists_replay_of_mem (request : MutationRequest) (h : operationId ∈ d.snapshot.operations) :
    ∃ result, d.store.replay operationId request = some result :=
  Option.ne_none_iff_exists'.mp fun hnone => replay_eq_none.mp hnone h

/-- A retry of a recorded registration, unregistration or rename sends its answer and changes
nothing, unless it is a committed registration whose path has a stream by now. -/
theorem retry_quiet_iff (d : DataDirectory) (env : Surroundings) (m : DataDirectoryIn)
    {operationId : OperationId} {request : MutationRequest}
    (hm : m.mutation = some (operationId, request)) (hopen : ∀ request, m ≠ .openStream request)
    (hrecorded : operationId ∈ d.snapshot.operations) :
    (∃ result reply, m.answer d.authorityEpoch result = some reply ∧
      d.handle env m = d.send reply) ↔ ¬d.evicts m := by
  obtain ⟨result, hreplay⟩ := exists_replay_of_mem request hrecorded
  cases m with
  | register requestId registration replyTo =>
    cases hm
    rw [handle_register_of_replay hreplay]
    simp only [evicts, hreplay, Option.any_some, Bool.and_eq_true, decide_eq_true_eq]
    constructor
    · rintro ⟨answered, reply, -, hquiet⟩ ⟨hmem, hok⟩
      have hstreams := congrArg streams hquiet
      rw [if_pos hok] at hstreams
      have herased : d.streams.erase registration.path = d.streams :=
        (streams_displaceStream registration.path).symm.trans hstreams
      rw [← herased] at hmem
      simp at hmem
    · intro hquiet
      refine ⟨result, _, rfl, ?_⟩
      by_cases hok : result.isOk = true
      · rw [if_pos hok, displaceStream_of_notMem fun hmem => hquiet ⟨hmem, hok⟩]
      · rw [if_neg hok]
  | unregister requestId path known replyTo =>
    cases hm
    simp only [evicts, Bool.false_eq_true, not_false_eq_true, iff_true]
    by_cases hclear : path ∈ d.streams
    · exact ⟨.error (.wrongEntryType path .blob .stream), _, rfl,
        by simp only [handle, if_pos hclear]⟩
    · exact ⟨result, _, rfl, handle_unregister_of_replay hclear hreplay⟩
  | rename requestId source destination replace known replyTo =>
    cases hm
    simp only [evicts, Bool.false_eq_true, not_false_eq_true, iff_true]
    exact ⟨result, _, rfl, handle_rename_of_replay hreplay⟩
  | openStream request => exact absurd rfl (hopen request)
  | _ => simp [mutation] at hm

end DataDirectory

/-- A blob of eight bytes at path 0, registered by operation 1. -/
def sampleBlob : BlobRegistration := ⟨0, 1, 1, 8, .file "blob", 1, none⟩

/-- A sink at path 0, opened by operation 2 in place of what is there. -/
def sampleSinkOpen : StreamOpenRequest := ⟨2, 0, .sink, 5, true, true, none, [], 2, 9⟩

/-- The registration is retried after an open has replaced its blob. -/
def lateRetry : List AuthorityAction :=
  [.restart {}, .deliver (.register 1 sampleBlob 9) {}, .deliver (.openStream sampleSinkOpen) {}]

/-- The late retry takes the stream off the path and tells its opener that it was replaced. -/
theorem late_retry_evicts_stream :
    ∃ d, Authority.run lateRetry = .up d ∧ 1 ∈ d.snapshot.operations ∧ 0 ∈ d.streams ∧
      0 ∉ (d.handle {} (.register 3 sampleBlob 9)).streams ∧
      .opened sampleSinkOpen.opening 9 2 1 (.error (.pathReplaced 0)) ∈
        (d.handle {} (.register 3 sampleBlob 9)).sent := by
  refine ⟨_, rfl, ?_⟩
  decide +kernel

theorem retry_quiet_once :
    ∃ d, Authority.run (lateRetry.take 2) = .up d ∧ 1 ∈ d.snapshot.operations ∧
      ∃ result reply, answer d.authorityEpoch result
          (.register 3 sampleBlob 9) = some reply ∧
        d.handle {} (.register 3 sampleBlob 9) = d.send reply := by
  refine ⟨_, rfl, by decide +kernel, ?_⟩
  exact (retry_quiet_iff _ {} (.register 3 sampleBlob 9) rfl nofun
    (by decide +kernel)).mpr (by decide +kernel)

/-- A committed receipt, or one of the rejections that are recorded. -/
def Decided (result : Except NamespaceError MutationReceipt) : Prop :=
  match result with
  | .ok _ => True
  | .error error => ∃ rejection : MutationRejection, error = rejection.error

/-- The operation is recorded with the request and the result. -/
def Records (snapshot : NamespaceSnapshot) (operationId : OperationId)
    (request : MutationRequest) (result : Except NamespaceError MutationReceipt) : Prop :=
  ∃ operation, snapshot.operations[operationId]? = some operation ∧
    operation.request = request ∧ operation.result.answer = result

/-- Whatever is recorded in the one snapshot is recorded in the other. -/
def Extends (snapshot next : NamespaceSnapshot) : Prop :=
  ∀ (operationId : OperationId) (operation : PersistedOperation),
    snapshot.operations[operationId]? = some operation →
      next.operations[operationId]? = some operation

theorem Extends.rfl {snapshot : NamespaceSnapshot} : Extends snapshot snapshot :=
  fun _ _ => id

section Records

variable {store : NamespaceStore} {operationId : OperationId} {request : MutationRequest}
  {result : Except NamespaceError MutationReceipt}

theorem not_decided_conflict (operationId : OperationId) :
    ¬Decided (.error (.operationConflict operationId)) := by
  rintro ⟨rejection, h⟩
  cases rejection <;> cases h

theorem not_decided_storage (reason : String) : ¬Decided (.error (.storage reason)) := by
  rintro ⟨rejection, h⟩
  cases rejection <;> cases h

theorem records_replay (h : store.replay operationId request = some result)
    (hdecided : Decided result) : Records store.snapshot operationId request result := by
  obtain ⟨operation, hoperation, hresult⟩ := Option.map_eq_some_iff.mp h
  by_cases hsame : operation.request = request
  · rw [if_neg (not_not.mpr hsame)] at hresult
    exact ⟨operation, hoperation, hsame, hresult⟩
  · rw [if_pos hsame] at hresult
    subst hresult
    exact absurd hdecided (not_decided_conflict operationId)

theorem replay_of_records (h : Records store.snapshot operationId request result)
    (other : MutationRequest) :
    store.replay operationId other =
      some (if other = request then result else .error (.operationConflict operationId)) := by
  obtain ⟨operation, hoperation, rfl, rfl⟩ := h
  simp only [NamespaceStore.replay, hoperation, Option.map_some]
  by_cases hsame : other = operation.request
  · simp [hsame]
  · rw [if_pos (Ne.symm hsame), if_neg hsame]

theorem Records.mono {snapshot next : NamespaceSnapshot}
    (h : Records snapshot operationId request result) (hextends : Extends snapshot next) :
    Records next operationId request result := by
  obtain ⟨operation, hoperation, hrest⟩ := h
  exact ⟨operation, hextends _ _ hoperation, hrest⟩

theorem records_record (snapshot : NamespaceSnapshot) (recorded : PersistedMutationResult) :
    Records (snapshot.record operationId request recorded) operationId request
      recorded.answer :=
  ⟨⟨request, recorded⟩, by simp [record], rfl, rfl⟩

end Records

variable {operationId : OperationId} {request : MutationRequest} {m : DataDirectoryIn}
  {result : Except NamespaceError MutationReceipt}

/-- What a mutation returns, if decided, is recorded, and nothing has been sent yet. -/
structure Decides (d : DataDirectory) (operationId : OperationId) (request : MutationRequest)
    (outcome : DataDirectory × Except NamespaceError MutationReceipt) : Prop where
  sent : outcome.1.sent = d.sent
  epoch : outcome.1.authorityEpoch = d.authorityEpoch
  records : Decided outcome.2 → Records outcome.1.snapshot operationId request outcome.2

theorem Mutation.decides {d done : DataDirectory} {accepted : Prop}
    {edit : ℕ → NamespaceSnapshot → NamespaceSnapshot}
    {outcome : DataDirectory × Except NamespaceError MutationReceipt}
    (h : Mutation d operationId request accepted (d.store.mutated operationId request edit) done
      outcome)
    (hsent : done.sent = d.sent) (hepoch : done.authorityEpoch = d.authorityEpoch) :
    Decides d operationId request outcome := by
  cases h with
  | replayed hreplay => exact ⟨rfl, rfl, records_replay hreplay⟩
  | rejected rejection fates =>
    exact ⟨rfl, rfl, fun _ => records_record d.snapshot (.rejected rejection)⟩
  | failed fates reason | tried fates reason =>
    exact ⟨rfl, rfl, fun hdecided => absurd hdecided (not_decided_storage reason)⟩
  | committed fates => exact ⟨hsent, hepoch, fun _ => records_record _ (.committed _)⟩

section Extends

variable {d d' : DataDirectory} {next : NamespaceSnapshot}

theorem extends_record {snapshot : NamespaceSnapshot} (hnew : operationId ∉ snapshot.operations)
    (request : MutationRequest) (result : PersistedMutationResult) :
    Extends snapshot (snapshot.record operationId request result) := by
  intro known operation hknown
  refine Maps.getElem?_insert_eq_some.mpr (.inr ⟨?_, hknown⟩)
  rintro rfl
  rw [ExtTreeMap.getElem?_eq_none hnew] at hknown
  cases hknown

theorem extends_mutated {store : NamespaceStore} (hnew : operationId ∉ store.snapshot.operations)
    (request : MutationRequest) {edit : ℕ → NamespaceSnapshot → NamespaceSnapshot}
    (hedit : ∀ revision snapshot, (edit revision snapshot).operations = snapshot.operations) :
    Extends store.snapshot (store.mutated operationId request edit) := by
  have hsame : (store.mutated operationId request edit).operations =
      (store.snapshot.record operationId request
        (.committed ⟨store.snapshot.nextRevision⟩)).operations := by
    simp only [NamespaceStore.mutated, record, hedit]
  intro known operation hknown
  rw [hsame]
  exact extends_record hnew request _ known operation hknown

variable (snapshot : NamespaceSnapshot)

theorem operations_retire (retired : Option ActorAddress) :
    (snapshot.retire retired).operations = snapshot.operations := by
  cases retired with
  | none => rfl
  | some source =>
    unfold retire
    dsimp only
    split <;> rfl

theorem operations_moved (source destination : DataPath) (revision : ℕ) :
    (snapshot.moved source destination revision).operations =
      snapshot.operations := by
  unfold moved
  split <;> rfl

theorem operations_displaceAll (endpoints : List ActorAddress) (incarnation : StreamIncarnation) :
    (snapshot.displaceAll endpoints incarnation).operations = snapshot.operations := by
  obtain ⟨entries, hentries⟩ := displaceAll_eq snapshot endpoints incarnation
  rw [hentries]

theorem Update.extends {scope : Scope} (h : Update scope d next d') : Extends d.snapshot next := by
  cases h with
  | recorded operationId request result hnew => exact extends_record hnew request result
  | retired | settled => exact fun _ _ => id
  | displaced active endpoint | fenced request active =>
    intro known operation hknown
    rw [operations_displaceAll]
    exact hknown
  | joined request pending hown hpending hfence hnew => exact extends_record hnew _ _
  | bound request retired hown hvacant hfence hnew =>
    exact extends_mutated hnew _ fun _ _ => operations_retire _ _

theorem Rebind.extends {message : DataDirectoryIn} (h : Rebind message d next d') :
    Extends d.snapshot next := by
  cases h with
  | registered requestId registration replyTo retired hm hnew
  | unregistered requestId path operationId replyTo retired hm hnew =>
    exact extends_mutated hnew _ fun _ _ => operations_retire _ _
  | renamed requestId source destination replace operationId replyTo retired hm hnew =>
    exact extends_mutated hnew _ fun _ _ =>
      (operations_retire _ _).trans (operations_moved _ _ _ _)

/-- What a snapshot records stays recorded in memory. -/
theorem stable_extends :
    Stable fun d => Extends snapshot d.snapshot where
  move hmove h := by
    cases hmove with
    | committed fates hupdate =>
      exact fun known operation hknown => hupdate.extends _ _ (h known operation hknown)
    | _ => exact h
  lift _ h := h
  confirm hconfirms h := by
    obtain rfl | ⟨_, _, _, -, -, rfl⟩ := hconfirms <;> exact h
  rebind _ hrebind h := fun known operation hknown =>
    hrebind.extends _ _ (h known operation hknown)
  refuse _ _ _ h := h

/-- What is recorded in memory is recorded in the file. -/
theorem stable_durable : Stable fun d => Extends d.snapshot d.store.file where
  move hmove h := by
    cases hmove with
    | tried fates hupdate => exact hupdate.extends
    | committed fates hupdate => exact fun _ _ => id
    | _ => exact h
  lift _ h := h
  confirm hconfirms h := by
    obtain rfl | ⟨_, _, _, -, -, rfl⟩ := hconfirms <;> exact h
  rebind _ _ _ := fun _ _ => id
  refuse _ hrebind hstore _ := by
    have h := hrebind.extends
    rw [snapshot, hstore] at h
    exact h

end Extends

/-- Records outlive failing commits, crashes and restarts. -/
theorem durable_extends (snapshot : NamespaceSnapshot) :
    Durable (fun d => Extends snapshot d.snapshot ∧ Extends d.snapshot d.store.file)
      (Extends snapshot) where
  stable := (stable_extends snapshot).and stable_durable
  receive _ h := h
  file h := fun known operation hknown => h.2 _ _ (h.1 known operation hknown)
  epoch _ h := h
  rebuild _ _ _ h := ⟨h, fun _ _ => id⟩

/-- No reply has been sent on the way. -/
def Discreet (d d' : DataDirectory) : Prop :=
  ∀ target out, Sent.reply target out ∈ d'.sent → Sent.reply target out ∈ d.sent

/-- What follows a mutation that went well takes nothing back and sends no reply. -/
theorem Decides.finish {d : DataDirectory}
    {outcome : DataDirectory × Except NamespaceError MutationReceipt}
    (h : Decides d operationId request outcome) (tail : DataDirectory → DataDirectory)
    (hmoves : ∀ d, Moves .all d (tail d)) (hdiscreet : ∀ d, Discreet d (tail d)) :
    let d₁ := if outcome.2.isOk then tail outcome.1 else outcome.1
    Discreet d d₁ ∧ d₁.authorityEpoch = d.authorityEpoch ∧
      (Decided outcome.2 → Records d₁.snapshot operationId request outcome.2) := by
  have hsent : Discreet d outcome.1 := by
    intro target out hmem
    rwa [h.sent] at hmem
  split
  · refine ⟨fun target out hmem => hsent _ _ (hdiscreet _ _ _ hmem),
      (hmoves _).authorityEpoch.trans h.epoch, fun hdecided => (h.records hdecided).mono ?_⟩
    exact (stable_extends outcome.1.snapshot).moves (hmoves outcome.1) fun _ _ => id
  · exact ⟨hsent, h.epoch, h.records⟩

namespace DataDirectory

variable {d : DataDirectory}

theorem discreet_send (d : DataDirectory) {message : Sent}
    (h : ∀ target out, message ≠ .reply target out) : Discreet d (d.send message) := by
  intro target out hmem
  rcases mem_append.mp hmem with hmem | hmem
  · exact hmem
  · exact absurd (mem_singleton.mp hmem).symm (h target out)

theorem discreet_queueRetired (retired : Option ActorAddress) :
    Discreet d (d.queueRetired retired) := by
  cases retired with
  | none => exact fun _ _ => id
  | some source =>
    exact discreet_send
      { d with pendingRetirements := d.pendingRetirements.insert source } nofun

theorem discreet_queueStreamDisplacement (endpoint : ActorAddress)
    (incarnation : StreamIncarnation) :
    Discreet d (d.queueStreamDisplacement endpoint incarnation) := by
  unfold queueStreamDisplacement
  split
  · exact fun _ _ => id
  · split
    · exact fun _ _ => id
    · intro target out hmem
      simpa [send] using hmem

theorem discreet_displaceStream (path : DataPath) : Discreet d (d.displaceStream path) := by
  unfold displaceStream
  split
  · exact fun _ _ => id
  · intro target out hmem
    simpa [send, sendStreamResult] using hmem
  · intro target out hmem
    have hsource := discreet_queueStreamDisplacement _ _ _ _ hmem
    exact discreet_queueStreamDisplacement (d := { d with streams := d.streams.erase path })
      _ _ _ _ hsource

/-- A registration, unregistration or rename is answered once, and a decided answer is
recorded. -/
theorem exists_answer (env : Surroundings) (hm : m.mutation = some (operationId, request))
    (hopen : ∀ request, m ≠ .openStream request) :
    ∃ d₁ result reply, m.answer d₁.authorityEpoch result = some reply ∧
      d.handle env m = d₁.send reply ∧ Discreet d d₁ ∧
      d₁.authorityEpoch = d.authorityEpoch ∧
      (Decided result → Records d₁.snapshot operationId request result) := by
  cases m with
  | register requestId registration replyTo =>
    cases hm
    have hfinish := fun retired =>
      ((Mutation.register (d := d) registration retired).decides rfl rfl).finish
      (fun d => (d.queueRetired retired).displaceStream registration.path)
      (fun _ => (moves_queueRetired retired).trans (moves_displaceStream registration.path))
      (fun _ _ _ hmem => discreet_queueRetired _ _ _ (discreet_displaceStream _ _ _ hmem))
    exact ⟨_, _, _, rfl, rfl, hfinish _⟩
  | unregister requestId path known replyTo =>
    cases hm
    have hfinish := fun retired =>
      ((Mutation.unregister (d := d) path operationId retired).decides rfl rfl).finish
      (fun d => d.queueRetired retired) (fun _ => moves_queueRetired retired)
      (fun _ => discreet_queueRetired retired)
    by_cases hclear : path ∈ d.streams
    · refine ⟨d, .error (.wrongEntryType path .blob .stream), _, rfl, ?_,
        fun _ _ => id, rfl, ?_⟩
      · simp only [handle, if_pos hclear]
      · rintro ⟨rejection, h⟩
        cases rejection <;> cases h
    · simp only [handle, if_neg hclear]
      exact ⟨_, _, _, rfl, rfl, hfinish _⟩
  | rename requestId source destination replace known replyTo =>
    cases hm
    have hfinish := fun retired =>
      ((Mutation.rename (d := d) source destination replace operationId).decides rfl rfl).finish
      (fun d => d.queueRetired retired) (fun _ => moves_queueRetired retired)
      (fun _ => discreet_queueRetired retired)
    exact ⟨_, _, _, rfl, rfl, hfinish _⟩
  | openStream request => exact absurd rfl (hopen request)
  | _ => simp [mutation] at hm

/-- Nothing stands between the message and the table of the operations: the path of an
unregistration has no stream, and the path of an open has no fence. -/
def clear (d : DataDirectory) : DataDirectoryIn → Prop
  | .unregister _ path _ _ => path ∉ d.streams
  | .openStream request => request.path ∉ d.streamReplacementFences
  | _ => True

/-- A replayed registration, unregistration or rename is answered from the table, and one that
is refused changes nothing. -/
theorem handle_of_replay (env : Surroundings) (hm : m.mutation = some (operationId, request))
    (hopen : ∀ request, m ≠ .openStream request) (hclear : d.clear m)
    (hreplay : d.store.replay operationId request = some result) :
    ∃ d₁ reply, m.answer d.authorityEpoch result = some reply ∧
      d.handle env m = d₁.send reply ∧ Discreet d d₁ ∧ (result.isOk = false → d₁ = d) := by
  cases m with
  | register requestId registration replyTo =>
    cases hm
    refine ⟨_, _, rfl, handle_register_of_replay hreplay, ?_, fun hfail => ?_⟩
    · split
      · exact discreet_displaceStream _
      · exact fun _ _ => id
    · rw [hfail]
      rfl
  | unregister requestId path known replyTo =>
    cases hm
    exact ⟨d, _, rfl, handle_unregister_of_replay hclear hreplay, fun _ _ => id,
      fun _ => rfl⟩
  | rename requestId source destination replace known replyTo =>
    cases hm
    exact ⟨d, _, rfl, handle_rename_of_replay hreplay, fun _ _ => id, fun _ => rfl⟩
  | openStream request => exact absurd rfl (hopen request)
  | _ => simp [mutation] at hm

end DataDirectory

variable {epoch : ℕ} {reply : Sent}

section

variable (hopen : ∀ request, m ≠ .openStream request)
include hopen

theorem answer_eq_reply (h : m.answer epoch result = some reply) :
    ∃ target out, reply = .reply target out := by
  cases m with
  | openStream request => exact absurd rfl (hopen request)
  | register | unregister | rename =>
    cases h
    exact ⟨_, _, rfl⟩
  | _ => cases h

theorem answer_injective {result' : Except NamespaceError MutationReceipt}
    (h : m.answer epoch result = some reply) (h' : m.answer epoch result' = some reply) :
    result = result' := by
  cases m with
  | openStream request => exact absurd rfl (hopen request)
  | register | unregister | rename =>
    rw [← h'] at h
    simpa [answer] using h
  | _ => cases h

/-- Among the messages of a handler that answers once, there is no other answer. -/
theorem mem_sent_iff {d d₁ : DataDirectory} {answered : Except NamespaceError MutationReceipt}
    {known : Sent} (hdiscreet : Discreet d d₁) (hempty : d.sent = [])
    (h : m.answer epoch result = some reply) (hknown : m.answer epoch answered = some known) :
    known ∈ (d₁.send reply).sent ↔ answered = result := by
  obtain ⟨target, out, rfl⟩ := answer_eq_reply hopen hknown
  constructor
  · intro hmem
    rcases mem_append.mp hmem with hmem | hmem
    · have hnone := hdiscreet target out hmem
      rw [hempty] at hnone
      cases hnone
    · rw [mem_singleton.mp hmem] at hknown
      exact answer_injective hopen hknown h
  · rintro rfl
    rw [hknown] at h
    cases h
    exact mem_append_right _ (mem_singleton.mpr rfl)

end

namespace Authority

/-- A decided answer is in the table when it is sent. -/
theorem records_of_answered {before : List AuthorityAction} {env : Surroundings} {reply : Sent}
    {d : DataDirectory} (hm : m.mutation = some (operationId, request))
    (hopen : ∀ request, m ≠ .openStream request) (hup : run (before ++ [.deliver m env]) = .up d)
    (hreply : m.answer d.authorityEpoch result = some reply) (hsent : reply ∈ d.sent)
    (hdecided : Decided result) : Records d.snapshot operationId request result := by
  rw [run_append] at hup
  obtain ⟨d', -, rfl⟩ := eq_up_of_deliver hup
  obtain ⟨d₁, answered, known, hknown, hhandle, hdiscreet, -, hrecords⟩ :=
    exists_answer (d := d'.received env) env hm hopen
  rw [hhandle] at hreply hsent ⊢
  have hsame : result = answered :=
    (mem_sent_iff hopen hdiscreet rfl hknown hreply).mp hsent
  subst hsame
  exact hrecords hdecided

/-- What is recorded at some point of a run is recorded ever after. -/
theorem extends_of_run {before : List AuthorityAction} {d₀ d : DataDirectory}
    (h₀ : run before = .up d₀) (between : List AuthorityAction)
    (h : run (before ++ between) = .up d) : Extends d₀.snapshot d.snapshot := by
  have hfile : (run before).Holds _ _ :=
    (durable_extends {}).foldl before (s := initial) fun _ _ => id
  rw [h₀] at hfile
  have hlater := (durable_extends d₀.snapshot).foldl between (s := .up d₀)
    ⟨fun _ _ => id, hfile.2⟩
  rw [run_append, h₀] at h
  rw [h] at hlater
  exact hlater.1

theorem request_ne_bindStream (hm : m.mutation = some (operationId, request))
    (hopen : ∀ request, m ≠ .openStream request) (path : DataPath) :
    MutationRequest.bindStream path ≠ request := by
  rintro rfl
  cases m with
  | openStream request => exact hopen request rfl
  | _ => simp [mutation, BlobRegistration.request] at hm

/-- What has been decided is answered the same by every later retry, and an operation id that is
used for another request is refused without any effect, whatever fails or restarts in between,
for every message that nothing keeps from the table of the operations. -/
theorem decided_answers_repeat (before between : List AuthorityAction)
    (m₀ m : DataDirectoryIn) (env₀ env : Surroundings)
    (result : Except NamespaceError MutationReceipt) {operationId : OperationId}
    {request request' : MutationRequest} {reply₀ : Sent} {d₀ d : DataDirectory}
    (hm₀ : m₀.mutation = some (operationId, request))
    (hopen₀ : ∀ request, m₀ ≠ .openStream request)
    (hup₀ : run (before ++ [.deliver m₀ env₀]) = .up d₀)
    (hreply₀ : m₀.answer d₀.authorityEpoch result = some reply₀) (hsent₀ : reply₀ ∈ d₀.sent)
    (hdecided : Decided result)
    (hup : run (before ++ .deliver m₀ env₀ :: between) = .up d)
    (hm : m.mutation = some (operationId, request')) (hclear : d.clear m) :
    ∃ d', run (before ++ .deliver m₀ env₀ :: (between ++ [.deliver m env])) = .up d' ∧
      (request' = request → ∀ answered known,
        m.answer d.authorityEpoch answered = some known →
          (known ∈ d'.sent ↔ answered = result)) ∧
      (request' ≠ request → ∃ reply,
        m.answer d.authorityEpoch (.error (.operationConflict operationId)) = some reply ∧
          d' = (d.received env).send reply) := by
  have hrecords₀ := records_of_answered hm₀ hopen₀ hup₀ hreply₀ hsent₀ hdecided
  have hrecords : Records d.snapshot operationId request result :=
    hrecords₀.mono (extends_of_run hup₀ between (by simpa using hup))
  refine ⟨(d.received env).handle env m, ?_, ?_⟩
  · rw [← cons_append, ← append_assoc, run_append, hup]
    rfl
  have hreplay : (d.received env).store.replay operationId request' = _ :=
    replay_of_records hrecords request'
  by_cases hopen : ∀ request, m ≠ .openStream request
  · obtain ⟨d₁, reply, hreply, hhandle, hdiscreet, hquiet⟩ :=
      handle_of_replay (d := d.received env) env hm hopen hclear hreplay
    rw [hhandle]
    constructor
    · intro hsame answered known hknown
      rw [if_pos hsame] at hreply
      exact mem_sent_iff hopen hdiscreet rfl hreply hknown
    · intro hother
      rw [if_neg hother] at hreply hquiet
      exact ⟨reply, hreply, by rw [hquiet rfl]⟩
  · push Not at hopen
    obtain ⟨request₁, rfl⟩ := hopen
    cases hm
    have hother : MutationRequest.bindStream request₁.path ≠ request :=
      request_ne_bindStream hm₀ hopen₀ request₁.path
    refine ⟨fun hsame => absurd hsame hother, fun _ => ⟨_, rfl, ?_⟩⟩
    rw [if_neg hother] at hreplay
    have hfence : (d.received env).streamReplacementFences[request₁.path]? = none :=
      ExtTreeMap.getElem?_eq_none hclear
    simp only [DataDirectory.handle, DataDirectory.openStream, hfence,
      admitStream, hreplay]
    rfl

/-- The registration is answered, the directory restarts, and the operation is used again. -/
theorem decided_answers_repeat_restarted :
    ∃ d₀ d d',
      run [.restart {}, .deliver (.register 1 sampleBlob 9) {}] = .up d₀ ∧
      run [.restart {}, .deliver (.register 1 sampleBlob 9) {}, .crash, .restart {}] = .up d ∧
      run [.restart {}, .deliver (.register 1 sampleBlob 9) {}, .crash, .restart {},
        .deliver (.unregister 2 0 1 9) {}] = .up d' ∧
      d' = (d.received {}).send
        (.reply 9 (.unregistered 2 2 (.error (.operationConflict 1)))) := by
  refine ⟨_, _, _, rfl, rfl, rfl, ?_⟩
  obtain ⟨d', hd', -, hconflict⟩ := decided_answers_repeat [.restart {}] [.crash, .restart {}]
    (.register 1 sampleBlob 9) (.unregister 2 0 1 9) {} {} (.ok ⟨1⟩) rfl nofun rfl rfl
    (by decide +kernel) trivial rfl rfl (by show 0 ∉ _; decide +kernel)
  cases hd'
  obtain ⟨reply, hreply, hquiet⟩ := hconflict nofun
  rw [hquiet]
  cases hreply
  rfl

/-- A rejected unregistration is answered otherwise once its path has a stream. -/
theorem rejection_hidden_by_stream :
    ∃ d₀ d,
      run [.restart {}, .deliver (.unregister 1 0 1 9) {}] = .up d₀ ∧
      d₀.sent = [.reply 9 (.unregistered 1 1 (.error (.pathNotFound 0)))] ∧
      run [.restart {}, .deliver (.unregister 1 0 1 9) {},
        .deliver (.openStream sampleSinkOpen) {}, .deliver (.unregister 3 0 1 9) {}] = .up d ∧
      d.sent = [.reply 9 (.unregistered 3 1 (.error (.wrongEntryType 0 .blob .stream)))] := by
  refine ⟨_, _, rfl, ?_, rfl, ?_⟩ <;> decide +kernel

end Authority

end Swactor.Namespace
