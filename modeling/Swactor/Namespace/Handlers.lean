import Swactor.Namespace.Moves

/-!
# The handlers of the namespace as moves

Every message is handled by moves, by moves around the lifting of the ready fences, or by one
mutation that binds or unbinds a path. A property that each of these parts keeps is kept by every
message.
-/
namespace Swactor.Namespace

open DataDirectory
open Relation (ReflTransGen)

/-- Nothing, or that the endpoint of the message has acknowledged. -/
def Confirms (message : DataDirectoryIn) (d d' : DataDirectory) : Prop :=
  d' = d ∨ ∃ endpoint incarnation acknowledged,
    message = .streamDisplaced endpoint incarnation ∧
      d.pendingStreamDisplacements[endpoint]? = some ⟨incarnation, acknowledged⟩ ∧
      d' = { d with
        pendingStreamDisplacements :=
          d.pendingStreamDisplacements.insert endpoint ⟨incarnation, true⟩ }

/-- What the handling of a message comes to. -/
inductive Handled (scope : Scope) (d : DataDirectory) : DataDirectory → Prop
  | moved {d' : DataDirectory} (h : Moves scope d d') : Handled scope d d'
  | resumed {d₀ d₁ d' : DataDirectory} (hconfirms : Confirms scope.message d d₀)
      (hbefore : Moves scope d₀ d₁)
      (hafter : Moves scope d₁.resumeStreamReplacementFences d') : Handled scope d d'
  | rebound {d₁ d₂ d' : DataDirectory} {next : NamespaceSnapshot} (fates : List CommitFate)
      (hbefore : Moves scope d d₁) (h : Rebind scope.message d₁ next d₂)
      (hafter : Moves scope { d₂ with store := ⟨next, next, fates⟩ } d') : Handled scope d d'
  | refused {d₁ d₂ : DataDirectory} {next : NamespaceSnapshot} (fates : List CommitFate)
      (target : ActorAddress) (out : DataDirectoryOut) (h : Rebind scope.message d₁ next d₂)
      (hstore : d₁.store = d.store) :
      Handled scope d
        ({ d with store := ⟨next, d.snapshot, fates⟩ }.send (.reply target out))

/-- The message neither opens a stream nor lets a fence be lifted. -/
def DataDirectoryIn.plain : DataDirectoryIn → Prop
  | .openStream _ | .streamDisplaced _ _ | .retryRetirements | .retirementRouteChanged _ => False
  | _ => True

/-- What the handling of such a message comes to. -/
inductive Mutates (scope : Scope) (d : DataDirectory) : DataDirectory → Prop
  | moved {d' : DataDirectory} (h : Moves scope d d') : Mutates scope d d'
  | rebound {d₁ d₂ d' : DataDirectory} {next : NamespaceSnapshot} (fates : List CommitFate)
      (hbefore : Moves scope d d₁) (h : Rebind scope.message d₁ next d₂)
      (hafter : Moves scope { d₂ with store := ⟨next, next, fates⟩ } d') : Mutates scope d d'
  | refused {d₁ d₂ : DataDirectory} {next : NamespaceSnapshot} (fates : List CommitFate)
      (target : ActorAddress) (out : DataDirectoryOut) (h : Rebind scope.message d₁ next d₂)
      (hstore : d₁.store = d.store) :
      Mutates scope d
        ({ d with store := ⟨next, d.snapshot, fates⟩ }.send (.reply target out))

theorem Rebind.plain {message : DataDirectoryIn} {d d' : DataDirectory} {next : NamespaceSnapshot}
    (h : Rebind message d next d') : message.plain := by
  cases h with
  | registered _ _ _ _ hm | unregistered _ _ _ _ _ hm | renamed _ _ _ _ _ _ _ hm =>
    subst hm
    trivial

namespace DataDirectory

variable {scope : Scope} {d : DataDirectory}

theorem deeds_retryDisplacement (endpoint : ActorAddress) :
    Deeds scope d (d.retryDisplacement endpoint) := by
  unfold retryDisplacement
  cases hpending : d.pendingStreamDisplacements[endpoint]? with
  | none => exact .refl
  | some pending =>
    obtain ⟨incarnation, acknowledged⟩ := pending
    cases acknowledged with
    | false => exact Move.deeds (.said (.displaced _ _) nofun) rfl rfl rfl
    | true =>
      have h : Update scope d _ _ := .settled endpoint incarnation hpending
      obtain ⟨fates, hok, hdone⟩ | ⟨store, error, hfail, hdone⟩ := h.deeds rfl rfl rfl rfl
      · simp only [hok]
        exact hdone
      · simp only [hfail]
        exact hdone

theorem deeds_retire (d : DataDirectory) (source : ActorAddress) :
    Deeds scope d (d.send (.retire source)) :=
  Move.deeds (.said (.retire source) nofun) rfl rfl rfl

/-- Functions that only do deeds, one after the other. -/
theorem deeds_foldl {A : Type} {f : DataDirectory → A → DataDirectory}
    (hf : ∀ d a, Deeds scope d (f d a)) (as : List A) : Deeds scope d (as.foldl f d) :=
  List.foldlRecOn _ _ .refl fun d' hd a _ => hd.trans (hf d' a)

variable {requestId : ℕ} {path : DataPath} {operationId : OperationId}
  {replyTo : Option ActorAddress}

section

variable (hm : scope.message = .cancelStream requestId path operationId replyTo)

include hm

theorem deeds_withdrawPending : Deeds scope d (d.withdrawPending path operationId) := by
  unfold withdrawPending
  split
  · next pending hpending =>
    split
    · next hsame =>
      refine Move.deeds (.dropped path (fun known hknown => .inr ⟨requestId, replyTo, ?_⟩)
        fun active hactive => by simp [hpending] at hactive) rfl rfl rfl
      have heq : pending = known := by
        have h := hpending.symm.trans hknown
        simpa using h
      rw [hm, ← heq, hsame]
    · exact .refl
  · exact .refl

theorem deeds_withdrawHeld : Deeds scope d (d.withdrawHeld path operationId) := by
  unfold withdrawHeld
  split
  · exact .refl
  · next fence hfence =>
    exact Move.deeds (.withdrawn path operationId fence ⟨requestId, replyTo, hm⟩ hfence) rfl rfl rfl

theorem deeds_cancelStream : Deeds scope d (d.cancelStream path operationId).1 := by
  unfold cancelStream
  split
  · exact (deeds_withdrawPending hm).trans (deeds_withdrawHeld hm)
  · next hnew =>
    have h : Update scope d _ _ := .recorded operationId (.bindStream path)
      (.rejected (.pathReplaced path)) hnew
    obtain ⟨fates, hok, hdone⟩ | ⟨store, error, hfail, hdone⟩ := h.deeds rfl rfl rfl rfl
    · rw [hok]
      exact (hdone.trans (deeds_withdrawPending hm)).trans (deeds_withdrawHeld hm)
    · rw [hfail]
      exact hdone

end

variable {replyTo : ActorAddress}

theorem deeds_closeStream {incarnation : StreamIncarnation}
    (hm : scope.message = .closeStream requestId path incarnation replyTo) :
    Deeds scope d (d.closeStream path incarnation).1 := by
  unfold closeStream
  split
  · next active hactive =>
    split
    · next hsame =>
      refine Move.deeds (.dropped path (fun pending hpending => by simp [hactive] at hpending)
        fun known hknown => .inr ⟨requestId, replyTo, ?_⟩) rfl rfl rfl
      have heq : active = known := by
        have h := hactive.symm.trans hknown
        simpa using h
      rw [hm, ← heq, hsame]
    · exact .refl
  · exact .refl
  · split <;> exact .refl

theorem deeds_reserveBlob (hm : scope.message = .reserveBlob requestId path operationId replyTo) :
    Deeds scope d (d.reserveBlob path operationId).1 := by
  unfold reserveBlob
  split
  · exact .refl
  · next hunbound =>
    rw [not_or] at hunbound
    split
    · split <;> exact .refl
    · exact Move.deeds (.reserved path operationId hunbound.1 hunbound.2 ⟨_, _, hm⟩) rfl rfl rfl

theorem deeds_releaseBlobReservation (path : DataPath) (operationId : OperationId) :
    Deeds scope d (d.releaseBlobReservation path operationId).1 := by
  unfold releaseBlobReservation
  split
  · split
    · exact Move.deeds (.unreserved path) rfl rfl rfl
    · exact .refl
  · exact .refl

end DataDirectory

/-- The scope of a message that is handled now. -/
def DataDirectory.scope (d : DataDirectory) (message : DataDirectoryIn)
    (own : StreamOpenRequest → Prop) : Scope where
  message := message
  own := own
  gone := fun active => ∃ requestId registration replyTo,
    message = .register requestId registration replyTo ∧
      d.streams[registration.path]? = some (.active active)

section Mutations

variable {scope : Scope} {d d' : DataDirectory}

theorem Mutates.handled (h : Mutates scope d d') : Handled scope d d' := by
  cases h with
  | moved hmoves => exact .moved hmoves
  | rebound fates hbefore hrebind hafter => exact .rebound fates hbefore hrebind hafter
  | refused fates target out hrebind hstore => exact .refused fates target out hrebind hstore

theorem Mutates.reply (h : Moves scope d d') (target : ActorAddress) (out : DataDirectoryOut) :
    Mutates scope d (d'.send (.reply target out)) :=
  .moved (h.tail (.said (.reply target out) nofun))

variable {operationId : OperationId}

theorem retiredBy_of_mem (h : operationId ∈ d.snapshot.operations) (path : DataPath) :
    d.retiredBy operationId path = none := by
  simp [retiredBy, h]

variable {request : MutationRequest}

theorem mem_operations_of_replay {replayed : Except NamespaceError MutationReceipt}
    (h : d.store.replay operationId request = some replayed) :
    operationId ∈ d.snapshot.operations := by
  by_contra hnew
  rw [replay_eq_none.mpr hnew] at h
  cases h

variable {own : StreamOpenRequest → Prop}

/-- The tail of a registration: the source it retires is asked to stop, the stream of the path
is displaced. -/
theorem mutates_registered {requestId : ℕ} {registration : BlobRegistration}
    {replyTo : ActorAddress} (retired : Option ActorAddress) (fates : List CommitFate)
    (hnew : registration.operationId ∉ d.snapshot.operations)
    (hreservation : d.blobReservations[registration.path]? = registration.reservation)
    (out : DataDirectoryOut) :
    let next := d.store.mutated registration.operationId registration.request
      (registration.edit retired)
    let d₁ := { d.registered registration with
      store := ⟨next, next, fates⟩, streams := d.streams }
    Mutates (d.scope (.register requestId registration replyTo) own) d
      (((d₁.queueRetired retired).displaceStream registration.path).send
        (.reply replyTo out)) := by
  intro next d₁
  have hstreams : (d₁.queueRetired retired).streams = d.streams := by
    cases retired <;> rfl
  have hrebind (hsettled : ∀ pending, d.streams[registration.path]? ≠ some (.pending pending)) :=
    Rebind.registered (d := d) requestId registration replyTo retired rfl hnew hreservation
      fun pending hpending => absurd hpending (hsettled pending)
  cases hentry : d.streams[registration.path]? with
  | none =>
    have hsame : (d₁.queueRetired retired).displaceStream registration.path =
        d₁.queueRetired retired := by
      simp only [displaceStream, hstreams, hentry]
    have hd₁ : d₁ = { d.registered registration with store := ⟨next, next, fates⟩ } := by
      simp only [d₁, registered, erase_of_getElem?_eq_none hentry]
    rw [hsame, hd₁]
    exact .rebound fates .refl (hrebind (by simp [hentry]))
      ((moves_queueRetired retired).tail (.said (.reply replyTo out) (by simp)))
  | some entry =>
    cases entry with
    | pending pending =>
      set told := (d.queueRetired retired).sendStreamResult (pending.opening registration.path)
        pending.requestId pending.replyTo (.error (.pathReplaced registration.path)) with htold
      have hbefore : Moves (d.scope (.register requestId registration replyTo) own) d told :=
        (moves_queueRetired retired).tail (.said _ (by simp))
      have hframe : told.store = d.store ∧ told.streams = d.streams ∧
          told.blobReservations = d.blobReservations := by
        cases retired <;> exact ⟨rfl, rfl, rfl⟩
      have hrebind := Rebind.registered (d := told) requestId registration replyTo retired rfl
        (by simpa only [snapshot, hframe.1] using hnew)
        (by rw [hframe.2.2]; exact hreservation)
        fun known hknown => by
          have heq : pending = known := by simpa [hframe.2.1, hentry] using hknown
          subst heq
          exact .inl ⟨_, _, _, _, List.mem_append_right _ (List.mem_singleton.mpr rfl)⟩
      rw [hframe.1] at hrebind
      have hlast : (d₁.queueRetired retired).displaceStream registration.path =
          { told.registered registration with store := ⟨next, next, fates⟩ } := by
        cases retired <;> simp [displaceStream, hstreams, hentry, htold] <;> rfl
      rw [hlast]
      exact .rebound fates hbefore hrebind (.single (.said (.reply replyTo out) (by simp)))
    | active active =>
      have hgone : (d.scope (.register requestId registration replyTo) own).gone active :=
        ⟨_, _, _, rfl, hentry⟩
      set vacated := { d.registered registration with store := ⟨next, next, fates⟩ }
      have hlast : (d₁.queueRetired retired).displaceStream registration.path =
          ((vacated.queueRetired retired).queueStreamDisplacement active.binding.source
            active.binding.incarnation).queueStreamDisplacement active.binding.sink
            active.binding.incarnation := by
        cases retired <;> simp [displaceStream, hstreams, hentry] <;> rfl
      rw [hlast]
      have hafter := ((moves_queueRetired (d := vacated) retired).trans
        (deeds_queueStreamDisplacement hgone (.inl rfl)).moves).trans
        (deeds_queueStreamDisplacement hgone (.inr rfl)).moves
      exact .rebound fates .refl (hrebind (by simp [hentry]))
        (hafter.tail (.said (.reply replyTo out) (by simp)))

/-- What the mutations share: a retry changes nothing but what follows it, and what fails is
answered and leaves at most the file changed. -/
theorem Mutation.mutates {message : DataDirectoryIn} {accepted : Prop} {next : NamespaceSnapshot}
    {done : DataDirectory} {outcome : DataDirectory × Except NamespaceError MutationReceipt}
    (h : Mutation d operationId request accepted next done outcome)
    (after : DataDirectory → DataDirectory) (target : ActorAddress) (out : DataDirectoryOut)
    (hreplayed : operationId ∈ d.snapshot.operations → Moves (d.scope message own) d (after d))
    (hrebind : operationId ∉ d.snapshot.operations → accepted → ∃ d₁ d₂, Rebind message d₁ next d₂ ∧
      d₁.store = d.store)
    (hcommitted : ∀ fates, operationId ∉ d.snapshot.operations → accepted →
      Mutates (d.scope message own) d ((after { done with store := ⟨next, next,
      fates⟩ }).send (.reply target out))) :
    Mutates (d.scope message own) d
      ((if outcome.2.isOk then after outcome.1 else outcome.1).send (.reply target out)) := by
  cases h with
  | @replayed result hreplay =>
    cases result with
    | error error => exact .reply .refl _ _
    | ok receipt => exact .reply (hreplayed (mem_operations_of_replay hreplay)) _ _
  | rejected rejection fates hnew =>
    exact .reply (.single (.committed fates (.recorded operationId request _ hnew))) _ _
  | failed fates reason => exact .reply (.single (.failed fates)) _ _
  | tried fates reason hnew hfile =>
    rcases hfile with ⟨rejection, rfl⟩ | ⟨haccepted, rfl⟩
    · exact .reply (.single (.tried fates (.recorded operationId request _ hnew))) _ _
    · obtain ⟨d₁, d₂, hrebinds, hstore⟩ := hrebind hnew haccepted
      exact .refused fates _ _ hrebinds hstore
  | committed fates hnew haccepted => exact hcommitted fates hnew haccepted

section

variable (env : Surroundings) (own : StreamOpenRequest → Prop) (requestId : ℕ)

theorem mutates_register (registration : BlobRegistration) (replyTo : ActorAddress) :
    Mutates (d.scope (.register requestId registration replyTo) own) d
      (d.handle env (.register requestId registration replyTo)) := by
  simp only [handle]
  generalize hretired : (d.retiredBy registration.operationId registration.path).filter
    (fun actor => actor ≠ registration.source) = retired
  refine (Mutation.register (d := d) registration retired).mutates
    (fun d => (d.queueRetired retired).displaceStream registration.path) _ _ (fun hmem => ?_)
    (fun hnew hreservation => ⟨_, _, .registered (d := { d with streams := ∅ }) requestId
      registration replyTo retired rfl hnew hreservation fun pending hpending => ?_, rfl⟩)
    (fun fates hnew hreservation => mutates_registered retired fates hnew hreservation _)
  · obtain rfl : none = retired := by
      rw [← hretired, retiredBy_of_mem hmem]
      rfl
    exact Deeds.moves (deeds_displaceStream fun active hactive => ⟨_, _, _, rfl, hactive⟩)
  · simp at hpending

theorem mutates_unregister (path : DataPath) (operationId : OperationId) (replyTo : ActorAddress) :
    Mutates (d.scope (.unregister requestId path operationId replyTo) own) d
      (d.handle env (.unregister requestId path operationId replyTo)) := by
  simp only [handle]
  split
  · exact .reply .refl _ _
  · next hvacant =>
    have hrebind (hnew : operationId ∉ d.snapshot.operations) :=
      Rebind.unregistered (d := d) requestId path operationId replyTo
        (d.retiredBy operationId path) rfl hnew (by simpa using hvacant)
    refine (Mutation.unregister (d := d) path operationId _).mutates
      (fun d => d.queueRetired _) _ _ (fun hmem => ?_)
      (fun hnew _ => ⟨_, _, hrebind hnew, rfl⟩) (fun fates hnew _ => ?_)
    · rw [retiredBy_of_mem hmem]
      exact .refl
    · exact .rebound fates .refl (hrebind hnew)
        ((moves_queueRetired _).tail (.said (.reply _ _) nofun))

theorem mutates_rename (source destination : DataPath) (replace : Bool) (operationId : OperationId)
    (replyTo : ActorAddress) :
    Mutates (d.scope (.rename requestId source destination replace operationId replyTo) own) d
      (d.handle env (.rename requestId source destination replace operationId replyTo)) := by
  have hrebind (hnew : operationId ∉ d.snapshot.operations)
      (hrejection : d.renameRejection source destination replace = none) :=
    Rebind.renamed (d := d) requestId source destination replace operationId replyTo
      (if source = destination then none else d.boundSource destination) rfl hnew hrejection
  refine (Mutation.rename (d := d) source destination replace operationId).mutates
    (fun known => known.queueRetired
      (if source = destination then none else d.retiredBy operationId destination))
    _ _ (fun hmem => ?_) (fun hnew hrejection => ⟨_, _, hrebind hnew hrejection, rfl⟩)
    (fun fates hnew hrejection => ?_)
  · rw [retiredBy_of_mem hmem, ite_self]
    exact .refl
  · exact .rebound fates .refl (hrebind hnew hrejection)
      ((moves_queueRetired _).tail (.said (.reply _ _) nofun))

end

end Mutations

section Handle

variable {d d' : DataDirectory} {scope : Scope} {m : DataDirectoryIn}

/-- Sends of retirements are moves. -/
theorem handled_retryRetirement {d₀ : DataDirectory} (env : Surroundings) (target : ActorAddress)
    (hconfirms : Confirms scope.message d d₀) :
    Handled scope d (d₀.retryRetirement env target) := by
  unfold retryRetirement
  refine .resumed hconfirms (deeds_retryDisplacement target).moves ?_
  dsimp only
  split
  · exact .single (.said (.retire target) nofun)
  · exact .refl

/-- The message mutates no blob and asks for no retirement. -/
def DataDirectoryIn.simple : DataDirectoryIn → Prop
  | .register .. | .unregister .. | .rename .. | .sourceRetired _ => False
  | m => m.plain

theorem deeds_handle (env : Surroundings) (own : StreamOpenRequest → Prop) (hm : m.simple) :
    Deeds (d.scope m own) d (d.handle env m) := by
  have hreply {d' : DataDirectory} (h : Deeds (d.scope m own) d d') (target : ActorAddress)
      (out : DataDirectoryOut) : Deeds (d.scope m own) d (d'.send (.reply target out)) :=
    h.trans (Move.deeds (.said (.reply target out) nofun) rfl rfl rfl)
  cases m with
  | resolve requestId path replyTo | lookup requestId path replyTo => exact hreply .refl _ _
  | reserveBlob requestId path operationId replyTo => exact hreply (deeds_reserveBlob rfl) _ _
  | releaseBlobReservation requestId path operationId replyTo =>
    exact hreply (deeds_releaseBlobReservation path operationId) _ _
  | cancelStream requestId path operationId replyTo =>
    have hdone : Deeds (d.scope (.cancelStream requestId path operationId replyTo) own) d
        (d.cancelStream path operationId).1 := deeds_cancelStream rfl
    cases replyTo with
    | none => exact hdone
    | some replyTo => exact hreply hdone _ _
  | closeStream requestId path incarnation replyTo => exact hreply (deeds_closeStream rfl) _ _
  | _ => exact hm.elim

/-- Every other message is handled without lifting a fence. -/
theorem mutates_handle (env : Surroundings) (own : StreamOpenRequest → Prop) (hm : m.plain) :
    Mutates (d.scope m own) d (d.handle env m) := by
  cases m with
  | register requestId registration replyTo =>
    exact mutates_register env own requestId registration replyTo
  | unregister requestId path operationId replyTo =>
    exact mutates_unregister env own requestId path operationId replyTo
  | rename requestId source destination replace operationId replyTo =>
    exact mutates_rename env own requestId source destination replace operationId replyTo
  | sourceRetired source => exact .moved (moves_confirmRetirement source)
  | openStream | streamDisplaced | retryRetirements | retirementRouteChanged => exact hm.elim
  | _ => exact .moved (Deeds.moves (deeds_handle env own trivial))

/-- Every message is handled by moves, by moves around the lifting of fences, or by binding or
unbinding a path. -/
theorem handled_handle (env : Surroundings) (m : DataDirectoryIn)
    (own : StreamOpenRequest → Prop) (hown : ∀ request, m = .openStream request → own request) :
    Handled (d.scope m own) d (d.handle env m) := by
  cases m with
  | openStream request => exact .moved (deeds_openStream (hown request rfl)).moves
  | streamDisplaced endpoint incarnation =>
    simp only [handle, confirmStreamDisplacement]
    cases hpending : d.pendingStreamDisplacements[endpoint]? with
    | none => exact .moved .refl
    | some pending =>
      obtain ⟨known, acknowledged⟩ := pending
      dsimp only
      by_cases hsame : known = incarnation
      · subst hsame
        rw [if_neg (not_not.mpr rfl)]
        exact handled_retryRetirement env endpoint
          (.inr ⟨endpoint, known, acknowledged, rfl, hpending, rfl⟩)
      · rw [if_pos hsame]
        exact .moved .refl
  | retryRetirements =>
    refine .resumed (.inl rfl) ?_ .refl
    exact (deeds_foldl (fun _ => deeds_retryDisplacement) _).moves.trans
      (deeds_foldl deeds_retire _).moves
  | retirementRouteChanged target => exact handled_retryRetirement env target (.inl rfl)
  | _ => exact Mutates.handled (mutates_handle env own trivial)

/-- Moves and lifted fences. -/
abbrev Settles (scope : Scope) : DataDirectory → DataDirectory → Prop :=
  ReflTransGen fun d d' => Move scope d d' ∨ ∃ path, d' = d.liftedFence path

theorem Moves.settles (h : Moves scope d d') : Settles scope d d' :=
  ReflTransGen.mono (fun _ _ => Or.inl) _ _ h

theorem settles_liftFence (hown : ∀ request, scope.own request) (path : DataPath) :
    Settles scope d (d.liftFence path) := by
  unfold liftFence
  cases d.streamReplacementFences[path]? with
  | none => exact .refl
  | some fence =>
    have hopens : Moves scope (d.liftedFence path)
        (fence.requests.foldl openStream (d.liftedFence path)) :=
      moves_foldl_openStream fun request _ => hown request
    exact .head (.inr ⟨path, rfl⟩) hopens.settles

theorem settles_resume (hown : ∀ request, scope.own request) :
    Settles scope d d.resumeStreamReplacementFences :=
  List.foldlRecOn _ _ .refl fun _ hd path _ => hd.trans (settles_liftFence hown path)

/-- A property that every part of a handler keeps. -/
structure Stable (P : DataDirectory → Prop) : Prop where
  move : ∀ {scope d d'}, Move scope d d' → P d → P d'
  lift : ∀ {d} (path : DataPath), P d → P (d.liftedFence path)
  confirm : ∀ {message d d'}, Confirms message d d' → P d → P d'
  rebind : ∀ {message d next d'} (fates : List CommitFate), Rebind message d next d' → P d →
    P { d' with store := ⟨next, next, fates⟩ }
  refuse : ∀ {message d₁ d next d₂} (fates : List CommitFate), Rebind message d₁ next d₂ →
    d₁.store = d.store → P d → P { d with store := ⟨next, d.snapshot, fates⟩ }

namespace Stable

variable {P P' : DataDirectory → Prop}

section

variable (h : Stable P)
include h

theorem and (h' : Stable P') : Stable fun d => P d ∧ P' d where
  move hmove hd := ⟨h.move hmove hd.1, h'.move hmove hd.2⟩
  lift path hd := ⟨h.lift path hd.1, h'.lift path hd.2⟩
  confirm hconfirms hd := ⟨h.confirm hconfirms hd.1, h'.confirm hconfirms hd.2⟩
  rebind fates hrebind hd := ⟨h.rebind fates hrebind hd.1, h'.rebind fates hrebind hd.2⟩
  refuse fates hrebind hstore hd :=
    ⟨h.refuse fates hrebind hstore hd.1, h'.refuse fates hrebind hstore hd.2⟩

theorem moves (hmoves : Moves scope d d') (hd : P d) : P d' := by
  induction hmoves with
  | refl => exact hd
  | tail _ hmove ih => exact h.move hmove ih

theorem settles (hsettles : Settles scope d d') (hd : P d) : P d' := by
  induction hsettles with
  | refl => exact hd
  | tail _ hmove ih =>
    rcases hmove with hmove | ⟨path, rfl⟩
    · exact h.move hmove ih
    · exact h.lift path ih

theorem resume (hd : P d) : P d.resumeStreamReplacementFences := by
  have hsettles : Settles .all d d.resumeStreamReplacementFences :=
    settles_resume fun _ => trivial
  exact h.settles hsettles hd

/-- It is kept by the handling of any message. -/
theorem handle (env : Surroundings) (m : DataDirectoryIn) (hd : P d) : P (d.handle env m) := by
  have hhandled := handled_handle (d := d) env m (fun _ => True) fun _ _ => trivial
  generalize d.handle env m = d' at hhandled
  cases hhandled with
  | moved hmoves => exact h.moves hmoves hd
  | resumed hconfirms hbefore hafter =>
    exact h.moves hafter (h.resume (h.moves hbefore (h.confirm hconfirms hd)))
  | rebound fates hbefore hrebind hafter =>
    exact h.moves hafter (h.rebind fates hrebind (h.moves hbefore hd))
  | refused fates target out hrebind hstore =>
    have hsaid : ∀ d', Move (d.scope m fun _ => True) d' (d'.send (.reply target out)) :=
      fun _ => .said (.reply target out) nofun
    exact h.move (hsaid _) (h.refuse fates hrebind hstore hd)

end

end Stable

end Handle

section Restart

/-- The directory that starts from its file in an epoch. -/
abbrev restarted (env : Surroundings) (file : NamespaceSnapshot) (epoch : ℕ)
    (fates : List CommitFate) : DataDirectory :=
  rebuild env ⟨{ file with authorityEpoch := epoch }, { file with authorityEpoch := epoch }, fates⟩
    file

/-- The directory starts from its file in the next epoch, or the file is left as it was or with
the next epoch. -/
theorem recover_cases (env : Surroundings) (file : NamespaceSnapshot) :
    (∃ epoch fates, recover env file = .ok (restarted env file epoch fates)) ∨
      recover env file = .error file ∨
      ∃ epoch, recover env file = .error { file with authorityEpoch := epoch } := by
  unfold recover
  cases file.validate with
  | error error => exact .inr (.inl rfl)
  | ok _ =>
    cases checkedAdd file.authorityEpoch 1 with
    | none => exact .inr (.inl rfl)
    | some epoch =>
      obtain ⟨fates, hok | ⟨error, hfail | hfail⟩⟩ := (NamespaceStore.mk file file
        env.fates).commit_cases { file with authorityEpoch := epoch }
      · exact .inl ⟨epoch, fates, by simp only [hok]⟩
      · exact .inr (.inl (by simp only [hfail]))
      · exact .inr (.inr ⟨epoch, by simp only [hfail]⟩)

/-- A property of the running directory and one of the file when it is down. -/
def Authority.Holds (P : DataDirectory → Prop) (Q : NamespaceSnapshot → Prop) :
    Authority → Prop
  | .down file => Q file
  | .up d => P d

theorem Authority.holds_start {P : DataDirectory → Prop} {Q : NamespaceSnapshot → Prop}
    {env : Surroundings} {file : NamespaceSnapshot} (hfile : Q file)
    (hepoch : ∀ epoch, Q { file with authorityEpoch := epoch })
    (hup : ∀ epoch fates, P ((restarted env file epoch fates).retryRetirements env)) :
    (Authority.start env file).Holds P Q := by
  unfold Authority.start
  obtain ⟨epoch, fates, hok⟩ | hfail | ⟨epoch, hfail⟩ := recover_cases env file
  · rw [hok]
    exact hup epoch fates
  · rw [hfail]
    exact hfile
  · rw [hfail]
    exact hepoch epoch

/-- What lets a property of the directory and one of its file carry each other over restarts. -/
structure Durable (P : DataDirectory → Prop) (Q : NamespaceSnapshot → Prop) : Prop where
  stable : Stable P
  receive : ∀ {d} (env : Surroundings), P d → P (d.received env)
  file : ∀ {d}, P d → Q d.store.file
  epoch : ∀ {file} (epoch : ℕ), Q file → Q { file with authorityEpoch := epoch }
  rebuild : ∀ {file} (env : Surroundings) (epoch : ℕ) (fates : List CommitFate), Q file →
    P (rebuild env
      ⟨{ file with authorityEpoch := epoch }, { file with authorityEpoch := epoch }, fates⟩ file)

namespace Durable

variable {P : DataDirectory → Prop} {Q : NamespaceSnapshot → Prop}

variable {s : Authority}

theorem file_of_holds (h : Durable P Q) (hs : s.Holds P Q) : Q s.file := by
  cases s with
  | down file => exact hs
  | up d => exact h.file hs

theorem step (h : Durable P Q) (a : AuthorityAction) (hs : s.Holds P Q) : (s.step a).Holds P Q := by
  cases a with
  | deliver message env =>
    cases s with
    | down file => exact hs
    | up d => exact h.stable.handle env message (h.receive env hs)
  | crash => exact h.file_of_holds hs
  | restart env =>
    have hfile := h.file_of_holds hs
    exact Authority.holds_start hfile (fun epoch => h.epoch epoch hfile) fun epoch fates =>
      h.stable.handle env .retryRetirements (h.rebuild env epoch fates hfile)

/-- They hold along every run. -/
theorem foldl (h : Durable P Q) (actions : List AuthorityAction) (hs : s.Holds P Q) :
    (actions.foldl Authority.step s).Holds P Q := by
  induction actions generalizing s with
  | nil => exact hs
  | cons a actions ih => exact ih (h.step a hs)

end Durable

namespace Authority

theorem run_append (actions rest : List AuthorityAction) :
    run (actions ++ rest) = rest.foldl step (run actions) :=
  List.foldl_append

/-- A running directory has been running before the message. -/
theorem eq_up_of_deliver {s : Authority} {m : DataDirectoryIn} {env : Surroundings}
    {d' : DataDirectory} (h : s.step (.deliver m env) = .up d') :
    ∃ d, s = .up d ∧ d' = (d.received env).handle env m := by
  cases s with
  | down file => cases h
  | up d =>
    cases h
    exact ⟨d, rfl, rfl⟩

end Authority

end Restart

end Swactor.Namespace
