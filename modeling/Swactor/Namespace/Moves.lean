import Swactor.Namespace.Directory

/-!
# What a handler of the namespace can do

Every handler is a sequence of small moves: something is said, an entry of a map changes, or a
commit is made, which succeeds with the change that goes with it or fails with or without the
file replaced. Each move states under which condition it is made, and invariants are proved
move by move. The mutations that bind or unbind a path are kept apart, because what is promised
about a path can end with them, and so is the lifting of a fence.
-/
namespace Swactor.Namespace

open DataDirectory NamespaceStore List
open Std (ExtTreeMap ExtTreeSet)
open Relation (ReflTransGen)

/-- The message that is handled, the open requests that are made, and the active streams that
have left their paths for good while it was handled. -/
structure Scope where
  message : DataDirectoryIn
  own : StreamOpenRequest → Prop
  gone : ActiveStream → Prop

/-- The scope in which nothing is ruled out. -/
def Scope.all : Scope := ⟨.retryRetirements, fun _ => True, fun _ => True⟩

/-- The scope of the opens of one path. -/
def Scope.at (scope : Scope) (path : DataPath) : Scope :=
  { scope with own := fun request => request.path = path ∧ scope.own request }

/-- An answer to the open is among the messages. -/
def Answered (sent : List Sent) (opening : StreamOpening) : Prop :=
  ∃ target requestId epoch result, Sent.opened opening target requestId epoch result ∈ sent

/-- The waiting open of the path, if there is one, has been answered or is cancelled. -/
def Excused (message : DataDirectoryIn) (d : DataDirectory) (path : DataPath) : Prop :=
  ∀ pending, d.streams[path]? = some (.pending pending) →
    Answered d.sent (pending.opening path) ∨
      ∃ requestId replyTo, message = .cancelStream requestId path pending.operationId replyTo

/-- A commit of the next snapshot and the directory, up to its store, after its success. -/
inductive Update (scope : Scope) (d : DataDirectory) : NamespaceSnapshot → DataDirectory → Prop
  | recorded (operationId : OperationId) (request : MutationRequest)
      (result : PersistedMutationResult) (hnew : operationId ∉ d.snapshot.operations) :
      Update scope d (d.snapshot.record operationId request result) d
  | retired (retirements : List ActorAddress)
      (pendingRetirements : ExtTreeSet ActorAddress compare) :
      Update scope d { d.snapshot with retirements := retirements }
        { d with pendingRetirements := pendingRetirements }
  | displaced (active : ActiveStream) (endpoint : ActorAddress) (hgone : scope.gone active)
      (hend : endpoint = active.binding.source ∨ endpoint = active.binding.sink) :
      Update scope d (d.snapshot.displaceAll [endpoint] active.binding.incarnation)
        { d with
          pendingStreamDisplacements := awaitAll d.pendingStreamDisplacements
            [endpoint] active.binding.incarnation }
  | settled (endpoint : ActorAddress) (incarnation : StreamIncarnation)
      (hack : d.pendingStreamDisplacements[endpoint]? = some ⟨incarnation, true⟩) :
      Update scope d (d.snapshot.acknowledge endpoint)
        { d with pendingStreamDisplacements := d.pendingStreamDisplacements.erase endpoint }
  | fenced (request : StreamOpenRequest) (active : ActiveStream) (hown : scope.own request)
      (hactive : d.streams[request.path]? = some (.active active))
      (hfence : d.streamReplacementFences[request.path]? = none) :
      Update scope d (d.snapshot.displaceAll active.endpoints active.binding.incarnation)
        { d with
          streams := d.streams.erase request.path
          pendingStreamDisplacements := awaitAll d.pendingStreamDisplacements
            active.endpoints active.binding.incarnation
          streamReplacementFences := d.streamReplacementFences.insert request.path
            ⟨active.binding.incarnation, active.endpoints, some active, [request]⟩
          sent := d.sent ++ active.endpoints.map fun endpoint =>
            .displaced endpoint active.binding.incarnation }
  | joined (request : StreamOpenRequest) (pending : PendingStream) (hown : scope.own request)
      (hpending : d.streams[request.path]? = some (.pending pending))
      (hfence : d.streamReplacementFences[request.path]? = none)
      (hnew : request.operationId ∉ d.snapshot.operations) :
      Update scope d (d.snapshot.record request.operationId (.bindStream request.path)
          (.committed ⟨pending.revision⟩))
        { d with
          streams := d.streams.insert request.path (.active (d.matched request pending))
          sent := d.sent ++
            [.opened (pending.opening request.path) pending.replyTo pending.requestId
                d.authorityEpoch (.ok (d.matched request pending).binding),
              .opened request.opening request.replyTo request.requestId d.authorityEpoch
                (.ok (d.matched request pending).binding)] }
  | bound (request : StreamOpenRequest) (retired : Option ActorAddress)
      (hown : scope.own request) (hvacant : d.streams[request.path]? = none)
      (hfence : d.streamReplacementFences[request.path]? = none)
      (hnew : request.operationId ∉ d.snapshot.operations)
      (hfree : request.path ∉ d.blobReservations) :
      Update scope d (d.store.mutated request.operationId (.bindStream request.path)
          fun revision snapshot => (snapshot.streamBound request.path revision).retire retired)
        { d with
          sources := d.sources.erase request.path
          streams := d.streams.insert request.path
            (.pending (request.waiting d.snapshot.nextRevision)) }

inductive Move (scope : Scope) (d : DataDirectory) : DataDirectory → Prop
  | failed (fates : List CommitFate) :
      Move scope d { d with store := ⟨d.store.file, d.snapshot, fates⟩ }
  | tried {next : NamespaceSnapshot} {d' : DataDirectory} (fates : List CommitFate)
      (h : Update scope d next d') :
      Move scope d { d with store := ⟨next, d.snapshot, fates⟩ }
  | committed {next : NamespaceSnapshot} {d' : DataDirectory} (fates : List CommitFate)
      (h : Update scope d next d') :
      Move scope d { d' with store := ⟨next, next, fates⟩ }
  | said (message : Sent)
      (h : ∀ opening target requestId epoch binding,
        message ≠ .opened opening target requestId epoch (.ok binding)) :
      Move scope d (d.send message)
  | opened (opening : StreamOpening) (target : ActorAddress) (requestId : ℕ)
      (active : ActiveStream)
      (h : d.streams[opening.path]? = some (.active active) ∨
        ∃ fence, d.streamReplacementFences[opening.path]? = some fence ∧
          fence.old = some active) :
      Move scope d
        (d.send (.opened opening target requestId d.authorityEpoch (.ok active.binding)))
  | renewed (path : DataPath) (pending : PendingStream) (requestId : ℕ) (replyTo : ActorAddress)
      (h : d.streams[path]? = some (.pending pending)) :
      Move scope d
        { d with
          streams := d.streams.insert path
            (.pending { pending with requestId := requestId, replyTo := replyTo }) }
  | dropped (path : DataPath) (h : Excused scope.message d path)
      (hactive : ∀ active, d.streams[path]? = some (.active active) → scope.gone active ∨
        ∃ requestId replyTo,
          scope.message = .closeStream requestId path active.binding.incarnation replyTo) :
      Move scope d { d with streams := d.streams.erase path }
  | held (request : StreamOpenRequest) (fence : StreamReplacementFence)
      (hown : scope.own request)
      (h : d.streamReplacementFences[request.path]? = some fence) :
      Move scope d
        { d with
          streamReplacementFences := d.streamReplacementFences.insert request.path
            { fence with requests := hold request fence.requests } }
  | withdrawn (path : DataPath) (operationId : OperationId) (fence : StreamReplacementFence)
      (hm : ∃ requestId replyTo,
        scope.message = .cancelStream requestId path operationId replyTo)
      (h : d.streamReplacementFences[path]? = some fence) :
      Move scope d
        { d with
          streamReplacementFences := d.streamReplacementFences.insert path
            { fence with
              requests := fence.requests.filter fun request =>
                request.operationId ≠ operationId } }
  | reserved (path : DataPath) (operationId : OperationId)
      (hbinding : path ∉ d.snapshot.bindings) (hnode : path ∉ d.snapshot.streamNodes)
      (hm : ∃ requestId replyTo,
        scope.message = .reserveBlob requestId path operationId replyTo) :
      Move scope d { d with blobReservations := d.blobReservations.insert path operationId }
  | unreserved (path : DataPath) :
      Move scope d { d with blobReservations := d.blobReservations.erase path }
  | retiring (pendingRetirements : ExtTreeSet ActorAddress compare) :
      Move scope d { d with pendingRetirements := pendingRetirements }

/-- The path is bound to the source of the registration, and its stream is gone. -/
def DataDirectory.registered (d : DataDirectory) (registration : BlobRegistration) :
    DataDirectory :=
  { d with
    blobReservations :=
      if registration.reservation.isSome then d.blobReservations.erase registration.path
      else d.blobReservations
    sources := d.sources.insert registration.path (.available registration.source
      registration.sourceNode registration.recovery.owner)
    streams := d.streams.erase registration.path }

/-- The mutations that bind or unbind a path. -/
inductive Rebind (message : DataDirectoryIn) (d : DataDirectory) :
    NamespaceSnapshot → DataDirectory → Prop
  | registered (requestId : ℕ) (registration : BlobRegistration) (replyTo : ActorAddress)
      (retired : Option ActorAddress)
      (hm : message = .register requestId registration replyTo)
      (hnew : registration.operationId ∉ d.snapshot.operations)
      (hreservation : d.blobReservations[registration.path]? = registration.reservation)
      (hexcused : Excused message d registration.path) :
      Rebind message d (d.store.mutated registration.operationId registration.request
        (registration.edit retired)) (d.registered registration)
  | unregistered (requestId : ℕ) (path : DataPath) (operationId : OperationId)
      (replyTo : ActorAddress) (retired : Option ActorAddress)
      (hm : message = .unregister requestId path operationId replyTo)
      (hnew : operationId ∉ d.snapshot.operations) (hvacant : d.streams[path]? = none) :
      Rebind message d (d.store.mutated operationId (.unregister path)
          fun _ snapshot => (snapshot.unbound path).retire retired)
        { d with sources := d.sources.erase path }
  | renamed (requestId : ℕ) (source destination : DataPath) (replace : Bool)
      (operationId : OperationId) (replyTo : ActorAddress) (retired : Option ActorAddress)
      (hm : message = .rename requestId source destination replace operationId replyTo)
      (hnew : operationId ∉ d.snapshot.operations)
      (haccepted : d.renameRejection source destination replace = none) :
      Rebind message d (d.store.mutated operationId (.rename source destination replace)
          fun revision snapshot => (snapshot.moved source destination revision).retire retired)
        { d with sources := moveSource d.sources source destination }

abbrev Moves (scope : Scope) : DataDirectory → DataDirectory → Prop := ReflTransGen (Move scope)

section Commits

variable {scope : Scope} {d d' : DataDirectory} {next : NamespaceSnapshot}

/-- A commit is a move, whether it succeeds or not. -/
theorem Update.commit (h : Update scope d next d') :
    (∃ fates, d.store.commit next = (⟨next, next, fates⟩, .ok ()) ∧
        Move scope d { d' with store := ⟨next, next, fates⟩ }) ∨
      ∃ store error, d.store.commit next = (store, .error error) ∧
        Move scope d { d with store := store } := by
  obtain ⟨fates, hok | ⟨error, hfail | hfail⟩⟩ := d.store.commit_cases next
  · exact .inl ⟨fates, hok, .committed fates h⟩
  · exact .inr ⟨_, error, hfail, .failed fates⟩
  · exact .inr ⟨_, error, hfail, .tried fates h⟩

theorem replay_eq_none {store : NamespaceStore} {operationId : OperationId}
    {request : MutationRequest} :
    store.replay operationId request = none ↔ operationId ∉ store.snapshot.operations := by
  simp [replay]

/-- A rejection is recorded, or the commit fails. -/
theorem reject_moves (operationId : OperationId) (request : MutationRequest)
    (rejection : MutationRejection) (hnew : operationId ∉ d.snapshot.operations) :
    ∃ store error, d.store.reject operationId request rejection = (store, .error error) ∧
      Move scope d { d with store := store } := by
  unfold reject
  have h : Update scope d _ _ := .recorded operationId request (.rejected rejection) hnew
  obtain ⟨fates, hok, hmove⟩ | ⟨store, error, hfail, hmove⟩ := h.commit
  · rw [hok]
    exact ⟨_, _, rfl, hmove⟩
  · rw [hfail]
    exact ⟨_, _, rfl, hmove⟩

/-- A mutation is committed with the revision that was next, or it fails. -/
theorem mutate_cases (store : NamespaceStore) (operationId : OperationId)
    (request : MutationRequest) (edit : ℕ → NamespaceSnapshot → NamespaceSnapshot) :
    let next := store.mutated operationId request edit
    ∃ fates,
      store.mutate operationId request edit =
        (⟨next, next, fates⟩, .ok ⟨store.snapshot.nextRevision⟩) ∨
      ∃ reason,
        store.mutate operationId request edit =
          (⟨store.file, store.snapshot, fates⟩, .error (.storage reason)) ∨
        store.mutate operationId request edit =
          (⟨next, store.snapshot, fates⟩, .error (.storage reason)) := by
  intro next
  unfold mutate
  cases checkedAdd store.snapshot.nextRevision 1 with
  | none => exact ⟨store.fates, .inr ⟨_, .inl rfl⟩⟩
  | some _ =>
    obtain ⟨fates, hok | ⟨error, hfail | hfail⟩⟩ := store.commit_cases next
    · exact ⟨fates, .inl (by rw [hok])⟩
    · exact ⟨fates, .inr ⟨_, .inl (by rw [hfail])⟩⟩
    · exact ⟨fates, .inr ⟨_, .inr (by rw [hfail])⟩⟩

/-- How a mutation goes. A retry is answered from the record, what is not accepted is rejected, and
what is accepted commits `next` and makes the directory `done`. -/
inductive Mutation (d : DataDirectory) (operationId : OperationId) (request : MutationRequest)
    (accepted : Prop) (next : NamespaceSnapshot) (done : DataDirectory) :
    DataDirectory × Except NamespaceError MutationReceipt → Prop
  | replayed {result : Except NamespaceError MutationReceipt}
      (h : d.store.replay operationId request = some result) :
      Mutation d operationId request accepted next done (d, result)
  | rejected (rejection : MutationRejection) (fates : List CommitFate)
      (hnew : operationId ∉ d.snapshot.operations) :
      Mutation d operationId request accepted next done
        ({ d with
          store := ⟨d.snapshot.record operationId request (.rejected rejection),
            d.snapshot.record operationId request (.rejected rejection), fates⟩ },
          .error rejection.error)
  | failed (fates : List CommitFate) (reason : String) :
      Mutation d operationId request accepted next done
        ({ d with store := ⟨d.store.file, d.snapshot, fates⟩ }, .error (.storage reason))
  | tried {file : NamespaceSnapshot} (fates : List CommitFate) (reason : String)
      (hnew : operationId ∉ d.snapshot.operations)
      (hfile : (∃ rejection, file = d.snapshot.record operationId request (.rejected rejection)) ∨
        accepted ∧ file = next) :
      Mutation d operationId request accepted next done
        ({ d with store := ⟨file, d.snapshot, fates⟩ }, .error (.storage reason))
  | committed (fates : List CommitFate) (hnew : operationId ∉ d.snapshot.operations)
      (haccepted : accepted) :
      Mutation d operationId request accepted next done
        ({ done with store := ⟨next, next, fates⟩ }, .ok ⟨d.snapshot.nextRevision⟩)

namespace Mutation

variable {operationId : OperationId} {request : MutationRequest} {accepted : Prop}
  {done : DataDirectory}

section

variable (hnew : operationId ∉ d.snapshot.operations)

include hnew

theorem reject (rejection : MutationRejection) :
    Mutation d operationId request accepted next done
      ({ d with store := (d.store.reject operationId request rejection).1 },
        (d.store.reject operationId request rejection).2) := by
  unfold NamespaceStore.reject
  obtain ⟨fates, hok | ⟨error, hfail | hfail⟩⟩ :=
    d.store.commit_cases (d.store.snapshot.record operationId request (.rejected rejection))
  · rw [hok]
    exact .rejected rejection fates hnew
  · rw [hfail]
    exact .failed fates _
  · rw [hfail]
    exact .tried fates _ hnew (.inl ⟨rejection, rfl⟩)

theorem mutate (edit : ℕ → NamespaceSnapshot → NamespaceSnapshot) (haccepted : accepted)
    {after : NamespaceStore → DataDirectory} (hafter : ∀ store, after store = { done with store }) :
    Mutation d operationId request accepted (d.store.mutated operationId request edit) done
      (match d.store.mutate operationId request edit with
      | (store, .error error) => ({ d with store := store }, .error error)
      | (store, .ok receipt) => (after store, .ok receipt)) := by
  obtain ⟨fates, hok | ⟨reason, hfail | hfail⟩⟩ := mutate_cases d.store operationId request edit
  · simp only [hok, hafter]
    exact .committed fates hnew haccepted
  · simp only [hfail]
    exact .failed fates reason
  · simp only [hfail]
    exact .tried fates reason hnew (.inr ⟨haccepted, rfl⟩)

end

theorem register (registration : BlobRegistration) (retired : Option ActorAddress) :
    Mutation d registration.operationId registration.request
      (d.blobReservations[registration.path]? = registration.reservation)
      (d.store.mutated registration.operationId registration.request (registration.edit retired))
      { d.registered registration with streams := d.streams }
      (d.register registration retired) := by
  unfold DataDirectory.register
  dsimp only
  split
  · next hreplay => exact .replayed hreplay
  · next hreplay =>
    have hnew := replay_eq_none.mp hreplay
    split
    · split
      · exact reject hnew _
      · exact reject hnew _
    · next hreservation => exact mutate hnew _ (not_not.mp hreservation) fun _ => rfl

theorem unregister (path : DataPath) (operationId : OperationId) (retired : Option ActorAddress) :
    Mutation d operationId (.unregister path) True
      (d.store.mutated operationId (.unregister path)
        fun _ snapshot => (snapshot.unbound path).retire retired)
      { d with sources := d.sources.erase path } (d.unregister path operationId retired) := by
  unfold DataDirectory.unregister
  dsimp only
  split
  · next hreplay => exact .replayed hreplay
  · next hreplay =>
    have hnew := replay_eq_none.mp hreplay
    split
    · exact reject hnew _
    · split
      · exact reject hnew _
      · exact mutate hnew _ trivial fun _ => rfl

theorem rename (source destination : DataPath) (replace : Bool) (operationId : OperationId) :
    Mutation d operationId (.rename source destination replace)
      (d.renameRejection source destination replace = none)
      (d.store.mutated operationId (.rename source destination replace) fun revision snapshot =>
        (snapshot.moved source destination revision).retire
          (if source = destination then none else d.boundSource destination))
      { d with sources := moveSource d.sources source destination }
      (d.rename source destination replace operationId) := by
  unfold DataDirectory.rename
  dsimp only
  generalize (if source = destination then none else d.boundSource destination) = retired
  split
  · next hreplay => exact .replayed hreplay
  · next hreplay =>
    have hnew := replay_eq_none.mp hreplay
    split
    · exact reject hnew _
    · next hrejection => exact mutate hnew _ hrejection fun _ => rfl

theorem bindStream (path : DataPath) (operationId : OperationId) (retired : Option ActorAddress) :
    Mutation d operationId (.bindStream path) (path ∉ d.blobReservations)
      (d.store.mutated operationId (.bindStream path) fun revision snapshot =>
        (snapshot.streamBound path revision).retire retired)
      { d with sources := d.sources.erase path } (d.bindStream path operationId retired) := by
  unfold DataDirectory.bindStream
  split
  · next hreplay => exact .replayed hreplay
  · next hreplay =>
    have hnew := replay_eq_none.mp hreplay
    split
    · exact reject hnew _
    · next hfree => exact mutate hnew _ hfree fun _ => rfl

end Mutation

/-- A mutation that goes with an update, as a move. -/
theorem Update.mutate {operationId : OperationId} {request : MutationRequest}
    {edit : ℕ → NamespaceSnapshot → NamespaceSnapshot}
    (h : Update scope d (d.store.mutated operationId request edit) d') :
    (∃ store, d.store.mutate operationId request edit =
        (store, .ok ⟨d.snapshot.nextRevision⟩) ∧ Move scope d { d' with store := store }) ∨
      ∃ store error, d.store.mutate operationId request edit = (store, .error error) ∧
        Move scope d { d with store := store } := by
  obtain ⟨fates, hok | ⟨reason, hfail | hfail⟩⟩ := mutate_cases d.store operationId request edit
  · exact .inl ⟨_, hok, .committed fates h⟩
  · exact .inr ⟨_, _, hfail, .failed fates⟩
  · exact .inr ⟨_, _, hfail, .tried fates h⟩

end Commits

namespace DataDirectory

variable {scope : Scope} {d : DataDirectory}

theorem moves_queueRetired (retired : Option ActorAddress) :
    Moves scope d (d.queueRetired retired) := by
  cases retired with
  | none => exact .refl
  | some source =>
    exact (ReflTransGen.single (.retiring _)).tail (.said (.retire source) nofun)

theorem moves_confirmRetirement (source : ActorAddress) :
    Moves scope d (d.confirmRetirement source) := by
  unfold confirmRetirement
  split
  · exact .refl
  · have h : Update scope d _ _ :=
      .retired (d.snapshot.retirements.filter fun retired => retired ≠ source)
        (d.pendingRetirements.erase source)
    obtain ⟨fates, hok, hmove⟩ | ⟨store, error, hfail, hmove⟩ := h.commit
    · rw [hok]
      exact .single hmove
    · rw [hfail]
      exact .single hmove

theorem moves_answerOpen_error (request : StreamOpenRequest) (error : NamespaceError) :
    Moves scope d (d.answerOpen request (.error error)) :=
  .single (.said _ (by simp))

variable {request : StreamOpenRequest}

theorem moves_bindUnoccupied (hown : scope.own request) (hvacant : d.streams[request.path]? = none)
    (hfence : d.streamReplacementFences[request.path]? = none)
    (hnew : request.operationId ∉ d.snapshot.operations) :
    Moves scope d (d.bindUnoccupied request) := by
  unfold bindUnoccupied
  split
  · exact moves_answerOpen_error request _
  · unfold bindStream
    rw [replay_eq_none.mpr hnew]
    by_cases hfree : request.path ∈ d.blobReservations
    · obtain ⟨store, error, hreject, hmove⟩ := reject_moves request.operationId
        (.bindStream request.path) (.pathExists request.path) hnew
      simp only [hfree, if_true, hreject]
      exact (ReflTransGen.single hmove).trans (moves_answerOpen_error request _)
    · have h : Update scope d _ _ :=
        .bound request (d.boundSource request.path) hown hvacant hfence hnew hfree
      obtain ⟨store, hok, hmove⟩ | ⟨store, error, hfail, hmove⟩ := h.mutate
      · simp only [hfree, if_false, hok]
        refine (ReflTransGen.single hmove).trans ?_
        cases d.boundSource request.path with
        | none => exact .refl
        | some source =>
          exact (ReflTransGen.single (.retiring _)).tail (.said (.retire source) nofun)
      · simp only [hfree, if_false, hfail]
        exact (ReflTransGen.single hmove).trans (moves_answerOpen_error request _)

end DataDirectory

/-- The sources of the blobs and what is persisted of them are as they were, up to a file that
catches up with memory. -/
structure Rests (d d' : DataDirectory) : Prop where
  sources : d'.sources = d.sources
  pending : d'.pendingRetirements = d.pendingRetirements
  bindings : d'.snapshot.bindings = d.snapshot.bindings
  retirements : d'.snapshot.retirements = d.snapshot.retirements
  file : d'.store.file = d.store.file ∨ d'.store.file.bindings = d.snapshot.bindings ∧
    d'.store.file.retirements = d.snapshot.retirements

/-- What a handler that mutates no blob does: moves that leave the sources alone, and the binding
of a free path to a stream, which can retire one. -/
inductive Deed (scope : Scope) (d : DataDirectory) : DataDirectory → Prop
  | move {d' : DataDirectory} (h : Move scope d d') (hrests : Rests d d') : Deed scope d d'
  | bind (request : StreamOpenRequest) (hown : scope.own request)
      (hvacant : d.streams[request.path]? = none)
      (hfence : d.streamReplacementFences[request.path]? = none)
      (hnew : request.operationId ∉ d.snapshot.operations) :
      Deed scope d (d.bindUnoccupied request)

abbrev Deeds (scope : Scope) : DataDirectory → DataDirectory → Prop := ReflTransGen (Deed scope)

section Deeds

variable {scope : Scope} {d d' : DataDirectory} {next : NamespaceSnapshot}

theorem Deeds.moves (h : Deeds scope d d') : Moves scope d d' := by
  induction h with
  | refl => exact .refl
  | tail _ hdeed ih =>
    cases hdeed with
    | move hmove => exact ih.tail hmove
    | bind request hown hvacant hfence hnew =>
      exact ih.trans (moves_bindUnoccupied hown hvacant hfence hnew)

/-- A move that leaves the store alone. -/
theorem Move.deeds (h : Move scope d d') (hsources : d'.sources = d.sources)
    (hpending : d'.pendingRetirements = d.pendingRetirements) (hstore : d'.store = d.store) :
    Deeds scope d d' := by
  have hsnapshot : d'.snapshot = d.snapshot := congrArg NamespaceStore.snapshot hstore
  exact .single (.move h ⟨hsources, hpending, congrArg _ hsnapshot, congrArg _ hsnapshot,
    .inl (congrArg _ hstore)⟩)

/-- A commit that leaves the sources alone, whether it succeeds or not. -/
theorem Update.deeds (h : Update scope d next d') (hsources : d'.sources = d.sources)
    (hpending : d'.pendingRetirements = d.pendingRetirements)
    (hbindings : next.bindings = d.snapshot.bindings)
    (hretirements : next.retirements = d.snapshot.retirements) :
    (∃ fates, d.store.commit next = (⟨next, next, fates⟩, .ok ()) ∧
        Deeds scope d { d' with store := ⟨next, next, fates⟩ }) ∨
      ∃ store error, d.store.commit next = (store, .error error) ∧
        Deeds scope d { d with store := store } := by
  have hfile : next = d.store.file ∨ next.bindings = d.snapshot.bindings ∧
      next.retirements = d.snapshot.retirements := .inr ⟨hbindings, hretirements⟩
  obtain ⟨fates, hok | ⟨error, hfail | hfail⟩⟩ := d.store.commit_cases next
  · exact .inl ⟨fates, hok, .single (.move (.committed fates h)
      ⟨hsources, hpending, hbindings, hretirements, hfile⟩)⟩
  · exact .inr ⟨_, error, hfail, .single (.move (.failed fates) ⟨rfl, rfl, rfl, rfl, .inl rfl⟩)⟩
  · exact .inr ⟨_, error, hfail, .single (.move (.tried fates h) ⟨rfl, rfl, rfl, rfl, hfile⟩)⟩

/-- Only the streams that are to be acknowledged change. -/
theorem displaceAll_eq (snapshot : NamespaceSnapshot) (endpoints : List ActorAddress)
    (incarnation : StreamIncarnation) : ∃ streamRetirements,
      snapshot.displaceAll endpoints incarnation = { snapshot with streamRetirements } := by
  induction endpoints generalizing snapshot with
  | nil => exact ⟨_, rfl⟩
  | cons endpoint rest ih => exact ih (snapshot.displace endpoint incarnation)

end Deeds

namespace DataDirectory

variable {scope : Scope} {d : DataDirectory}

theorem deeds_answerOpen_error (request : StreamOpenRequest) (error : NamespaceError) :
    Deeds scope d (d.answerOpen request (.error error)) :=
  Move.deeds (.said _ (by simp)) rfl rfl rfl

theorem deeds_queueStreamDisplacement {active : ActiveStream} {endpoint : ActorAddress}
    (hgone : scope.gone active)
    (hend : endpoint = active.binding.source ∨ endpoint = active.binding.sink) :
    Deeds scope d (d.queueStreamDisplacement endpoint active.binding.incarnation) := by
  unfold queueStreamDisplacement
  split
  · exact .refl
  · have h : Update scope d (d.snapshot.displace endpoint active.binding.incarnation) _ :=
      .displaced active endpoint hgone hend
    obtain ⟨fates, hok, hdone⟩ | ⟨store, error, hfail, hdone⟩ := h.deeds rfl rfl rfl rfl
    · rw [hok]
      exact hdone.trans (Move.deeds (.said (.displaced _ _) nofun) rfl rfl rfl)
    · rw [hfail]
      exact hdone

variable {path : DataPath} {request : StreamOpenRequest} {fence : StreamReplacementFence}

theorem erase_of_getElem?_eq_none {V : Type} {m : ExtTreeMap DataPath V compare}
    (h : m[path]? = none) : m.erase path = m := by
  ext1 a
  rw [Maps.getElem?_erase_ite]
  split
  · simp_all
  · rfl

/-- The entry leaves its path; a waiting open is told, an active stream is displaced. -/
theorem deeds_displaceStream
    (hgone : ∀ active, d.streams[path]? = some (.active active) → scope.gone active) :
    Deeds scope d (d.displaceStream path) := by
  unfold displaceStream
  cases hentry : d.streams[path]? with
  | none => exact .refl
  | some entry =>
    cases entry with
    | pending pending =>
      have hsaid : Move scope d (d.sendStreamResult (pending.opening path) pending.requestId
          pending.replyTo (.error (.pathReplaced path))) := .said _ (by simp)
      have hdropped : Move scope (d.sendStreamResult (pending.opening path) pending.requestId
          pending.replyTo (.error (.pathReplaced path))) _ :=
        .dropped path (fun known hknown => by
          have heq : pending = known := by
            have h := hentry.symm.trans hknown
            simpa using h
          subst heq
          exact .inl ⟨_, _, _, _, mem_append_right _ (mem_singleton.mpr rfl)⟩)
          fun active hactive => by
            have h := hentry.symm.trans hactive
            simp at h
      exact (hsaid.deeds rfl rfl rfl).trans (hdropped.deeds rfl rfl rfl)
    | active active =>
      have hdropped : Move scope d { d with streams := d.streams.erase path } :=
        .dropped path (fun known hknown => by simp [hentry] at hknown)
          fun known hknown => .inl (hgone known hknown)
      exact ((hdropped.deeds rfl rfl rfl).trans
        (deeds_queueStreamDisplacement (hgone active hentry) (.inl rfl))).trans
        (deeds_queueStreamDisplacement (hgone active hentry) (.inr rfl))

theorem deeds_beginStreamReplacement {active : ActiveStream} (hown : scope.own request)
    (hactive : d.streams[request.path]? = some (.active active))
    (hfence : d.streamReplacementFences[request.path]? = none) :
    Deeds scope d ({ d with streams := d.streams.erase request.path }.beginStreamReplacement
      request active) := by
  unfold beginStreamReplacement
  have h : Update scope d _ _ := .fenced request active hown hactive hfence
  obtain ⟨entries, hentries⟩ :=
    displaceAll_eq d.snapshot active.endpoints active.binding.incarnation
  obtain ⟨fates, hok, hdone⟩ | ⟨store, error, hfail, hdone⟩ :=
    h.deeds rfl rfl (by rw [hentries]) (by rw [hentries])
  · simp only [hok]
    exact hdone
  · simp only [hfail, Maps.insert_erase_of_getElem? hactive]
    exact hdone.trans (deeds_answerOpen_error request _)

/-- A success is the match of the displaced stream. -/
theorem oldReply_eq_ok {binding : StreamMatch} (h : oldReply fence request = some (.ok binding)) :
    ∃ old, fence.old = some old ∧ old.binding = binding := by
  unfold oldReply at h
  cases hold : fence.old with
  | none => simp [hold] at h
  | some old =>
    rw [hold, Option.bind_some] at h
    refine ⟨old, rfl, ?_⟩
    cases hrole : request.role <;>
    · simp only [hrole] at h
      split_ifs at h
      · simpa using h
      all_goals simp at h

section

variable (hown : scope.own request)
include hown

theorem deeds_holdStreamOpenForFence
    (hfence : d.streamReplacementFences[request.path]? = some fence) :
    Deeds scope d (d.holdStreamOpenForFence request fence) := by
  unfold holdStreamOpenForFence
  cases hreply : oldReply fence request with
  | none => exact Move.deeds (.held request fence hown hfence) rfl rfl rfl
  | some result =>
    cases result with
    | error error => exact deeds_answerOpen_error request error
    | ok binding =>
      obtain ⟨old, hold, rfl⟩ := oldReply_eq_ok hreply
      exact Move.deeds (.opened request.opening request.replyTo request.requestId old
        (.inr ⟨fence, hfence, hold⟩)) rfl rfl rfl

theorem deeds_joinStream {pending : PendingStream}
    (hpending : d.streams[request.path]? = some (.pending pending))
    (hfence : d.streamReplacementFences[request.path]? = none)
    (hnew : request.operationId ∉ d.snapshot.operations) :
    Deeds scope d (d.joinStream request pending) := by
  have hnone : d.store.snapshot.operations[request.operationId]? = none := by
    simpa using hnew
  have h : Update scope d _ _ := .joined request pending hown hpending hfence hnew
  unfold joinStream recordStreamParticipant
  rw [hnone]
  obtain ⟨fates, hok, hdone⟩ | ⟨store, error, hfail, hdone⟩ := h.deeds rfl rfl rfl rfl
  · simp only [hok]
    convert hdone using 1
    simp [answerOpen, sendStreamResult, send]
  · simp only [hfail]
    exact hdone.trans (deeds_answerOpen_error request _)

theorem deeds_placeStream (hfence : d.streamReplacementFences[request.path]? = none)
    (hknown : request.operationId ∉ d.snapshot.operations ∨ d.isCurrent request) :
    Deeds scope d (d.placeStream request) := by
  unfold placeStream
  cases hentry : d.streams[request.path]? with
  | none =>
    have hnew : request.operationId ∉ d.snapshot.operations := by
      simpa [isCurrent, hentry] using hknown
    exact .single (.bind request hown hentry hfence hnew)
  | some entry =>
    cases entry with
    | pending pending =>
      by_cases hsame : pending.operationId = request.operationId
      · dsimp only
        rw [if_pos hsame]
        split
        · exact deeds_answerOpen_error request _
        · exact Move.deeds
            (.renewed request.path pending request.requestId request.replyTo hentry) rfl rfl rfl
      · have hnew : request.operationId ∉ d.snapshot.operations := by
          simpa [isCurrent, hentry, hsame] using hknown
        dsimp only
        rw [if_neg hsame]
        split_ifs
        · exact deeds_joinStream hown hentry hfence hnew
        · have hdisplaced : d.displaceStream request.path =
              { d with streams := d.streams.erase request.path }.sendStreamResult
                (pending.opening request.path) pending.requestId pending.replyTo
                (.error (.pathReplaced request.path)) := by
            simp [displaceStream, hentry]
          refine (deeds_displaceStream fun active hactive => ?_).tail
            (.bind request hown ?_ ?_ ?_)
          · simp [hentry] at hactive
          · rw [hdisplaced]
            simp [sendStreamResult, send]
          · rw [hdisplaced]
            exact hfence
          · rw [hdisplaced]
            exact hnew
        · exact deeds_answerOpen_error request _
    | active active =>
      dsimp only
      split_ifs
      · exact Move.deeds (.opened request.opening request.replyTo request.requestId active
          (.inl hentry)) rfl rfl rfl
      · exact deeds_beginStreamReplacement hown hentry hfence
      · exact deeds_answerOpen_error request _

theorem deeds_openStream : Deeds scope d (d.openStream request) := by
  unfold openStream
  cases hfence : d.streamReplacementFences[request.path]? with
  | some fence => exact deeds_holdStreamOpenForFence hown hfence
  | none =>
    unfold admitStream
    cases hreplay : d.store.replay request.operationId (.bindStream request.path) with
    | none =>
      cases d.refusal request with
      | some error => exact deeds_answerOpen_error request error
      | none => exact deeds_placeStream hown hfence (.inl (replay_eq_none.mp hreplay))
    | some replayed =>
      cases replayed with
      | error error => exact deeds_answerOpen_error request error
      | ok receipt =>
        by_cases hcurrent : d.isCurrent request = true
        · simp only [hcurrent, not_true, if_false]
          cases d.refusal request with
          | some error => exact deeds_answerOpen_error request error
          | none => exact deeds_placeStream hown hfence (.inr hcurrent)
        · simp only [hcurrent]
          exact deeds_answerOpen_error request _

end

/-- The held requests are requests that are made, each at the path of its fence. -/
def HeldOwn (own : StreamOpenRequest → Prop) (d : DataDirectory) : Prop :=
  ∀ (path : DataPath) (fence : StreamReplacementFence),
    d.streamReplacementFences[path]? = some fence →
      ∀ request ∈ fence.requests, request.path = path ∧ own request

variable {requests : List StreamOpenRequest}

theorem mem_hold {known : StreamOpenRequest} (h : known ∈ hold request requests) :
    known = request ∨ known ∈ requests := by
  induction requests with
  | nil => simpa [hold] using h
  | cons first rest ih =>
    unfold hold at h
    split at h
    · rcases mem_cons.mp h with h | h
      · exact .inl h
      · exact .inr (mem_cons_of_mem _ h)
    · rcases mem_cons.mp h with h | h
      · exact .inr (by simp [h])
      · rcases ih h with h | h
        · exact .inl h
        · exact .inr (mem_cons_of_mem _ h)

theorem HeldOwn.insert {own : StreamOpenRequest → Prop} (h : HeldOwn own d)
    (hfence : ∀ request ∈ fence.requests, request.path = path ∧ own request) :
    HeldOwn own
      { d with streamReplacementFences := d.streamReplacementFences.insert path fence } := by
  intro other known hknown
  rcases Maps.getElem?_insert_eq_some.mp hknown with ⟨rfl, rfl⟩ | ⟨-, hknown⟩
  · exact hfence
  · exact h other known hknown

theorem heldOwn_move {own : StreamOpenRequest → Prop} {d' : DataDirectory}
    (hscope : ∀ request, scope.own request → own request) (hmove : Move scope d d')
    (h : HeldOwn own d) : HeldOwn own d' := by
  cases hmove with
  | committed fates hupdate =>
    cases hupdate with
    | fenced request active hown =>
      exact h.insert fun known hknown => by
        rw [mem_singleton.mp hknown]
        exact ⟨rfl, hscope request hown⟩
    | _ => exact h
  | held request fence hown hfence =>
    exact h.insert fun known hknown => by
      rcases mem_hold hknown with rfl | hknown
      · exact ⟨rfl, hscope known hown⟩
      · exact h _ _ hfence known hknown
  | withdrawn path operationId fence hm hfence =>
    exact h.insert fun known hknown => h _ _ hfence known (mem_of_mem_filter hknown)
  | _ => exact h

theorem moves_foldl_openStream (hown : ∀ request ∈ requests, scope.own request) :
    Moves scope d (requests.foldl openStream d) :=
  foldlRecOn _ _ .refl fun _ hd request hmem =>
    hd.trans (deeds_openStream (hown request hmem)).moves

/-- The lifting of the fence of a path. -/
def liftedFence (d : DataDirectory) (path : DataPath) : DataDirectory :=
  { d with streamReplacementFences := d.streamReplacementFences.erase path }

/-- A fence that is lifted goes, and the opens of its path are made. -/
theorem moves_liftFence (path : DataPath) (h : HeldOwn scope.own d) :
    Moves (scope.at path) (d.liftedFence path) (d.liftFence path) := by
  unfold liftFence
  cases hfence : d.streamReplacementFences[path]? with
  | none =>
    have hsame : d.liftedFence path = d := by
      unfold liftedFence
      rw [erase_of_getElem?_eq_none hfence]
    rw [hsame]
  | some fence => exact moves_foldl_openStream (h path fence hfence)

end DataDirectory

end Swactor.Namespace
