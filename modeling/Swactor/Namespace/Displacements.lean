import Swactor.Namespace.Generations
import Swactor.Lib.Machine

/-!
# What becomes of a displaced stream

A generation that has been matched stays at its path until it is closed, the directory goes down,
or it is displaced; then both its ends are recorded until they acknowledge, in memory and in the
file. An end is the key of its record, so this needs that opens use endpoints of their own, and
that the commits succeed by which a registration records the ends of the stream it displaces.
-/
namespace Swactor.Namespace

open DataDirectory NamespaceSnapshot
open Std (ExtTreeMap)

variable {owner : ActorAddress → OperationId} {acked : ActorAddress → StreamIncarnation → Prop}
  {ended known : DataPath → StreamMatch → Prop}

namespace DataDirectory

variable (acked : ActorAddress → StreamIncarnation → Prop) (d : DataDirectory)

/-- The match is the active stream of the path. -/
@[grind]
def Serves (path : DataPath) (binding : StreamMatch) : Prop :=
  ∃ active, d.streams[path]? = some (.active active) ∧ active.binding = binding

/-- The displacement of the endpoint is recorded and not acknowledged. -/
@[grind]
def Awaits (endpoint : ActorAddress) (incarnation : StreamIncarnation) : Prop :=
  d.pendingStreamDisplacements[endpoint]? = some ⟨incarnation, false⟩

/-- Both ends have acknowledged or are awaited. -/
@[grind]
def Settling (binding : StreamMatch) : Prop :=
  ∀ endpoint, endpoint = binding.source ∨ endpoint = binding.sink →
    acked endpoint binding.incarnation ∨ d.Awaits endpoint binding.incarnation

/-- The generation is at its path, has come to an end, or its ends are followed up. -/
@[grind]
def Follows (ended : DataPath → StreamMatch → Prop) (d : DataDirectory) (path : DataPath)
    (binding : StreamMatch) : Prop :=
  d.Serves path binding ∨ ended path binding ∨ d.Settling acked binding

end DataDirectory

/-- The snapshot has the endpoints that are awaited, each under one generation, and the operations
of all endpoints that it has. -/
structure Recalls (owner : ActorAddress → OperationId)
    (pending : ExtTreeMap ActorAddress PendingStreamDisplacement compare)
    (snapshot : NamespaceSnapshot) : Prop where
  awaited : ∀ (endpoint : ActorAddress) (incarnation : StreamIncarnation),
    pending[endpoint]? = some ⟨incarnation, false⟩ →
      (endpoint, incarnation) ∈ snapshot.streamRetirements
  unique : ∀ endpoint incarnation incarnation',
    (endpoint, incarnation) ∈ snapshot.streamRetirements →
      (endpoint, incarnation') ∈ snapshot.streamRetirements → incarnation = incarnation'
  opened : ∀ endpoint incarnation, (endpoint, incarnation) ∈ snapshot.streamRetirements →
    owner endpoint ∈ snapshot.operations

section Recalls

variable {pending : ExtTreeMap ActorAddress PendingStreamDisplacement compare}
  {snapshot next : NamespaceSnapshot}

theorem mem_operations_of_extends {operationId : OperationId} (hextends : Extends snapshot next)
    (h : operationId ∈ snapshot.operations) : operationId ∈ next.operations := by
  have hoperation := ExtTreeMap.getElem?_eq_some_getElem h
  have hnext := hextends operationId _ hoperation
  grind

theorem Recalls.extends (h : Recalls owner pending snapshot) (hextends : Extends snapshot next)
    (hsame : next.streamRetirements = snapshot.streamRetirements) :
    Recalls owner pending next := by
  obtain ⟨hawaited, hunique, hopened⟩ := h
  constructor <;> grind [mem_operations_of_extends]

variable {endpoints : List ActorAddress}

/-- New displacements, of endpoints that are not awaited. -/
theorem Recalls.displaceAll (h : Recalls owner pending snapshot) (incarnation : StreamIncarnation)
    (hfree : ∀ endpoint ∈ endpoints, pending[endpoint]? = none ∧
      owner endpoint ∈ snapshot.operations) :
    Recalls owner pending (snapshot.displaceAll endpoints incarnation) := by
  obtain ⟨hawaited, hunique, hopened⟩ := h
  constructor <;> grind [mem_streamRetirements_displaceAll, operations_displaceAll]

/-- The endpoints that are awaited from now on are in the snapshot. -/
theorem Recalls.awaitAll {incarnation : StreamIncarnation}
    (h : Recalls owner pending (snapshot.displaceAll endpoints incarnation)) :
    Recalls owner (awaitAll pending endpoints incarnation)
      (snapshot.displaceAll endpoints incarnation) := by
  obtain ⟨hawaited, hunique, hopened⟩ := h
  constructor <;> grind [mem_streamRetirements_displaceAll, getElem?_awaitAll]

/-- An endpoint that is not awaited goes. -/
theorem Recalls.acknowledge (h : Recalls owner pending snapshot) {endpoint : ActorAddress}
    (hacked : ∀ incarnation, pending[endpoint]? ≠ some ⟨incarnation, false⟩) :
    Recalls owner pending (snapshot.acknowledge endpoint) := by
  obtain ⟨hawaited, hunique, hopened⟩ := h
  constructor <;> grind [mem_streamRetirements_acknowledge, acknowledge]

/-- Fewer endpoints are awaited. -/
theorem Recalls.mono {pending' : ExtTreeMap ActorAddress PendingStreamDisplacement compare}
    (h : Recalls owner pending snapshot)
    (hpending : ∀ (endpoint : ActorAddress) (incarnation : StreamIncarnation),
      pending'[endpoint]? = some ⟨incarnation, false⟩ →
        pending[endpoint]? = some ⟨incarnation, false⟩) :
    Recalls owner pending' snapshot :=
  ⟨fun _ _ hknown => h.awaited _ _ (hpending _ _ hknown), h.unique, h.opened⟩

end Recalls

/-- What holds of the directory while every open uses an endpoint of its own: an endpoint that is
awaited is no longer in the table, and every match that is known or has been sent is followed. -/
structure Tracked (owner : ActorAddress → OperationId)
    (acked : ActorAddress → StreamIncarnation → Prop) (ended known : DataPath → StreamMatch → Prop)
    (d : DataDirectory) : Prop where
  members : ∀ (path : DataPath) (entry : RuntimeStream), d.streams[path]? = some entry →
    ∀ member ∈ entry.members, owner member.1 = member.2 ∧ Joined d.snapshot member.2 path
  spent : ∀ (endpoint : ActorAddress) (pending : PendingStreamDisplacement),
    d.pendingStreamDisplacements[endpoint]? = some pending →
      owner endpoint ∈ d.snapshot.operations ∧
      ∀ (path : DataPath) (entry : RuntimeStream), d.streams[path]? = some entry →
        ∀ member ∈ entry.members, member.1 ≠ endpoint
  memory : Recalls owner d.pendingStreamDisplacements d.snapshot
  file : Recalls owner d.pendingStreamDisplacements d.store.file
  held : d.HeldOwn (Owned owner)
  old : ∀ (path : DataPath) (fence : StreamReplacementFence) (old : ActiveStream),
    d.streamReplacementFences[path]? = some fence → fence.old = some old →
      d.Settling acked old.binding
  told : ∀ path binding, known path binding → d.Follows acked ended path binding
  sent : ∀ opening target requestId epoch binding,
    .opened opening target requestId epoch (.ok binding) ∈ d.sent →
      d.Follows acked ended opening.path binding

/-- The opens that a handler makes use endpoints of their own, and it neither displaces nor closes
an active stream. -/
structure Scope.Gentle (scope : Scope) (owner : ActorAddress → OperationId) : Prop where
  own : ∀ request, scope.own request → Owned owner request
  gone : ∀ active, ¬scope.gone active
  opens : ∀ requestId path incarnation replyTo,
    scope.message ≠ .closeStream requestId path incarnation replyTo

/-- If the message acknowledges a displacement that is pending, then `acked` has it. -/
@[grind]
def Notes (acked : ActorAddress → StreamIncarnation → Prop) (d : DataDirectory)
    (message : DataDirectoryIn) : Prop :=
  ∀ endpoint incarnation acknowledged, message = .streamDisplaced endpoint incarnation →
    d.pendingStreamDisplacements[endpoint]? = some ⟨incarnation, acknowledged⟩ →
      acked endpoint incarnation

/-- The opens that a fence has held are made again. -/
theorem DataDirectory.gentle_liftFence {d : DataDirectory} (h : d.HeldOwn (Owned owner))
    (path : DataPath) :
    ∃ scope : Scope, scope.Gentle owner ∧ Moves scope (d.liftedFence path) (d.liftFence path) := by
  let scope : Scope := ⟨.retryRetirements, Owned owner, fun _ => False⟩
  have hmoves : Moves (scope.at path) (d.liftedFence path) (d.liftFence path) :=
    moves_liftFence path h
  exact ⟨scope.at path, ⟨fun _ hown => hown.2, fun _ => id, nofun⟩, hmoves⟩

section Tracked

variable {scope : Scope} {d d' : DataDirectory} {next : NamespaceSnapshot}

section

variable (h : Tracked owner acked ended known d)

include h

variable {ended' : DataPath → StreamMatch → Prop}

theorem Tracked.mono {acked' : ActorAddress → StreamIncarnation → Prop}
    (hacked : ∀ endpoint incarnation, acked endpoint incarnation → acked' endpoint incarnation)
    (hended : ∀ path binding, ended path binding → ended' path binding) :
    Tracked owner acked' ended' known d := by
  obtain ⟨hmembers, hspent, hmemory, hfile, hheld, hold, htold, hsent⟩ := h
  constructor <;> grind

/-- A generation that counts as ended has ended, or its ends are followed up. -/
theorem Tracked.narrow
    (hended : ∀ path binding, ended path binding → ended' path binding ∨ d.Settling acked binding) :
    Tracked owner acked ended' known d := by
  obtain ⟨hmembers, hspent, hmemory, hfile, hheld, hold, htold, hsent⟩ := h
  constructor <;> grind

/-- The table is as it was, no match is sent, and what is no longer awaited has acknowledged. -/
theorem Tracked.relaxed (hstreams : d'.streams = d.streams)
    (hpending : ∀ (endpoint : ActorAddress) (pending : PendingStreamDisplacement),
      d'.pendingStreamDisplacements[endpoint]? = some pending →
        endpoint ∈ d.pendingStreamDisplacements)
    (hawaits : ∀ endpoint incarnation, d.Awaits endpoint incarnation →
      acked endpoint incarnation ∨ d'.Awaits endpoint incarnation)
    (hheld : d'.HeldOwn (Owned owner))
    (hfences : ∀ (path : DataPath) (fence : StreamReplacementFence),
      d'.streamReplacementFences[path]? = some fence →
        ∃ known, d.streamReplacementFences[path]? = some known ∧ known.old = fence.old)
    (hsent : ∀ opening target requestId epoch binding,
      .opened opening target requestId epoch (.ok binding) ∈ d'.sent →
        d.Follows acked ended opening.path binding) (hextends : Extends d.snapshot d'.snapshot)
    (hmemory : Recalls owner d'.pendingStreamDisplacements d'.snapshot)
    (hfile : Recalls owner d'.pendingStreamDisplacements d'.store.file) :
    Tracked owner acked ended known d' := by
  have hjoined := fun id path (h : Joined d.snapshot id path) => h.mono hextends
  have hrecorded := fun id => @mem_operations_of_extends d.snapshot d'.snapshot id hextends
  obtain ⟨hmembers, hspent, -, -, -, hold, htold, hsaid⟩ := h
  constructor <;> grind

/-- The table, the displacements and the fences are as they were. -/
theorem Tracked.frame (hstreams : d'.streams = d.streams)
    (hpending : d'.pendingStreamDisplacements = d.pendingStreamDisplacements)
    (hfences : d'.streamReplacementFences = d.streamReplacementFences)
    (hsent : ∀ opening target requestId epoch binding,
      .opened opening target requestId epoch (.ok binding) ∈ d'.sent →
        d.Follows acked ended opening.path binding) (hextends : Extends d.snapshot d'.snapshot)
    (hmemory : Recalls owner d.pendingStreamDisplacements d'.snapshot)
    (hfile : Recalls owner d.pendingStreamDisplacements d'.store.file) :
    Tracked owner acked ended known d' := by
  have hheld := h.held
  rw [← hpending] at hmemory hfile
  refine h.relaxed hstreams ?_ ?_ ?_ ?_ hsent hextends hmemory hfile <;>
    grind [DataDirectory.HeldOwn]

/-- An entry takes a path that no active stream has. -/
theorem Tracked.placed (path : DataPath) (entry : RuntimeStream)
    (hvacant : ∀ active, d.streams[path]? ≠ some (.active active))
    (hmembers : ∀ member ∈ entry.members, owner member.1 = member.2 ∧
      Joined d'.snapshot member.2 path ∧ d.pendingStreamDisplacements[member.1]? = none)
    (hstreams : d'.streams = d.streams.insert path entry)
    (hpending : d'.pendingStreamDisplacements = d.pendingStreamDisplacements)
    (hfences : d'.streamReplacementFences = d.streamReplacementFences)
    (hsent : ∀ opening target requestId epoch binding,
      .opened opening target requestId epoch (.ok binding) ∈ d'.sent →
        .opened opening target requestId epoch (.ok binding) ∈ d.sent ∨
          d'.Serves opening.path binding) (hextends : Extends d.snapshot d'.snapshot)
    (hmemory : Recalls owner d.pendingStreamDisplacements d'.snapshot)
    (hfile : Recalls owner d.pendingStreamDisplacements d'.store.file) :
    Tracked owner acked ended known d' := by
  have hjoined := fun id path (h : Joined d.snapshot id path) => h.mono hextends
  have hrecorded := fun id => @mem_operations_of_extends d.snapshot d'.snapshot id hextends
  obtain ⟨hown, hspent, -, -, hheld, hold, htold, hsaid⟩ := h
  constructor <;> grind [DataDirectory.HeldOwn]

/-- An entry leaves its path; if it is active its generation has come to an end. -/
theorem Tracked.dropped {path : DataPath}
    (hended : ∀ active, d.streams[path]? = some (.active active) → ended path active.binding) :
    Tracked owner acked ended known { d with streams := d.streams.erase path } := by
  obtain ⟨hmembers, hspent, hmemory, hfile, hheld, hold, htold, hsent⟩ := h
  constructor <;> grind [DataDirectory.HeldOwn]

/-- An entry leaves its path; a generation that was there counts as ended. -/
theorem Tracked.leave (path : DataPath) :
    Tracked owner acked (fun known binding => ended known binding ∨
      known = path ∧ d.Serves path binding) known { d with streams := d.streams.erase path } :=
  Tracked.dropped (h.mono (fun _ _ => id) fun _ _ => .inl) fun active hactive =>
    .inr ⟨rfl, active, hactive, rfl⟩

end

variable {endpoint : ActorAddress} {active : ActiveStream}

theorem exists_member (h : endpoint ∈ active.endpoints) :
    ∃ member ∈ (RuntimeStream.active active).members, member.1 = endpoint := by
  simpa [RuntimeStream.members, mem_endpoints, eq_comm] using h

section

variable (h : Tracked owner acked ended known d)

include h

variable {active : ActiveStream}

/-- The endpoints of an active stream are not awaited, and their operations are recorded. -/
theorem Tracked.free {path : DataPath} (hactive : d.streams[path]? = some (.active active)) :
    ∀ endpoint ∈ active.endpoints, d.pendingStreamDisplacements[endpoint]? = none ∧
      owner endpoint ∈ d.snapshot.operations := by
  intro endpoint hend
  obtain ⟨member, hmember, rfl⟩ := exists_member hend
  have hspent := h.spent member.1
  have hmembers := h.members path _ hactive member hmember
  grind [Joined]

/-- The next snapshot of a commit still has the endpoints that are awaited. -/
theorem Tracked.recalls (hgone : ∀ active, ¬scope.gone active) (hupdate : Update scope d next d') :
    Recalls owner d.pendingStreamDisplacements next := by
  have hextends := hupdate.extends
  cases hupdate with
  | recorded | retired | joined => exact h.memory.extends hextends rfl
  | displaced active endpoint hdisplaced => exact absurd hdisplaced (hgone active)
  | settled endpoint incarnation hack => exact h.memory.acknowledge (by grind)
  | fenced request active hown hactive => exact h.memory.displaceAll _ (h.free hactive)
  | bound request retired =>
    refine h.memory.extends hextends ?_
    simp [NamespaceStore.mutated, record, streamRetirements_retire,
      streamBound]

/-- No other entry has an end of an active stream. -/
theorem Tracked.absent {path : DataPath} (hactive : d.streams[path]? = some (.active active)) :
    ∀ endpoint ∈ active.endpoints, ∀ (known : DataPath) (entry : RuntimeStream),
      (d.streams.erase path)[known]? = some entry → ∀ member ∈ entry.members,
        member.1 ≠ endpoint := by
  rintro endpoint hend known entry hentry member hmember rfl
  obtain ⟨hne, hentry⟩ := Maps.getElem?_erase_eq_some.mp hentry
  obtain ⟨left, hleft, hsame⟩ := exists_member hend
  obtain ⟨howner, hjoined⟩ := h.members known entry hentry member hmember
  obtain ⟨howner', hjoined'⟩ := h.members path _ hactive left hleft
  rw [← howner, ← hsame, howner'] at hjoined
  exact hne (hjoined'.unique hjoined)

/-- Endpoints that no entry has are awaited from now on. -/
theorem Tracked.awaited {endpoints : List ActorAddress} {incarnation : StreamIncarnation}
    (hfree : ∀ endpoint ∈ endpoints, d.pendingStreamDisplacements[endpoint]? = none ∧
      owner endpoint ∈ d.snapshot.operations)
    (habsent : ∀ endpoint ∈ endpoints, ∀ (path : DataPath) (entry : RuntimeStream),
      d.streams[path]? = some entry → ∀ member ∈ entry.members, member.1 ≠ endpoint)
    (hstreams : d'.streams = d.streams)
    (hpending : d'.pendingStreamDisplacements =
      awaitAll d.pendingStreamDisplacements endpoints incarnation)
    (hstore : ∃ fates, d'.store = ⟨d.snapshot.displaceAll endpoints incarnation,
      d.snapshot.displaceAll endpoints incarnation, fates⟩)
    (hsent : ∀ opening target requestId epoch binding,
      .opened opening target requestId epoch (.ok binding) ∈ d'.sent →
        .opened opening target requestId epoch (.ok binding) ∈ d.sent)
    (hheld : d'.HeldOwn (Owned owner))
    (hfences : ∀ (path : DataPath) (fence : StreamReplacementFence) (old : ActiveStream),
      d'.streamReplacementFences[path]? = some fence → fence.old = some old →
        d.streamReplacementFences[path]? = some fence ∨ d'.Settling acked old.binding) :
    Tracked owner acked ended known d' := by
  obtain ⟨fates, hstore⟩ := hstore
  have hnext := (h.memory.displaceAll incarnation hfree).awaitAll
  have hrecorded : d'.snapshot.operations = d.snapshot.operations := by
    simp only [snapshot, hstore, operations_displaceAll]
  have hjoined (id : OperationId) (path : DataPath) (h : Joined d.snapshot id path) :
      Joined d'.snapshot id path := by
    simpa only [Joined, hrecorded] using h
  obtain ⟨hmembers, hspent, -, -, -, hold, htold, hsaid⟩ := h
  constructor
  · grind
  · grind [getElem?_awaitAll]
  · grind
  · grind
  · exact hheld
  all_goals grind [getElem?_awaitAll]

/-- A successful commit. -/
theorem Tracked.updated (hscope : ∀ request, scope.own request → Owned owner request)
    (hgone : ∀ active, ¬scope.gone active) (hupdate : Update scope d next d')
    (fates : List CommitFate) :
    Tracked owner acked ended known { d' with store := ⟨next, next, fates⟩ } := by
  have hmove : Move scope d { d' with store := ⟨next, next, fates⟩ } := .committed fates hupdate
  have hextends := hupdate.extends
  have hnext := h.recalls hgone hupdate
  have hheld := heldOwn_move hscope hmove h.held
  have hspent := h.spent
  cases hupdate with
  | recorded | retired => exact h.frame rfl rfl rfl h.sent hextends hnext hnext
  | displaced active endpoint hdisplaced => exact absurd hdisplaced (hgone active)
  | settled endpoint incarnation hack =>
    have hless : Recalls owner (d.pendingStreamDisplacements.erase endpoint)
        (d.snapshot.acknowledge endpoint) := hnext.mono (by grind)
    refine h.relaxed rfl ?_ ?_ hheld ?_ h.sent hextends hless hless <;> grind
  | fenced request active hown hactive hfence =>
    have hsettled : DataDirectory.Settling acked { d with
        pendingStreamDisplacements := awaitAll d.pendingStreamDisplacements active.endpoints
          active.binding.incarnation } active.binding := by
      intro endpoint hend
      right
      rw [DataDirectory.Awaits, getElem?_awaitAll, if_pos (mem_endpoints.mpr hend)]
    apply Tracked.narrow
    · refine Tracked.awaited (h.leave request.path) (h.free hactive) (h.absent hactive) rfl rfl
        ⟨fates, rfl⟩ ?_ hheld ?_
      · grind
      · grind
    · grind
  | joined request pending hown hpending hfence hnew =>
    have hmatched := fun member => @members_matched d request pending member
    have hrecorded := @joined_record d.snapshot request.operationId request.path
    have hmembers := h.members request.path _ hpending
    have hjoined := fun id path (h : Joined d.snapshot id path) => h.mono hextends
    refine h.placed request.path (.active (d.matched request pending)) ?_ ?_ rfl rfl rfl ?_
      hextends hnext hnext
    · grind
    · grind [RuntimeStream.members, Owned]
    · grind [PendingStream.opening, StreamOpenRequest.opening]
  | bound request retired hown hvacant hfence hnew =>
    have hrecorded := fun snapshot => @joined_record snapshot request.operationId request.path
    refine h.placed request.path (.pending (request.waiting d.snapshot.nextRevision)) ?_ ?_ rfl
      rfl rfl ?_ hextends hnext hnext
    · grind
    · grind [RuntimeStream.members, Owned, StreamOpenRequest.waiting, NamespaceStore.mutated]
    · grind

theorem Tracked.move (hgentle : scope.Gentle owner) (hmove : Move scope d d') :
    Tracked owner acked ended known d' := by
  obtain ⟨hscope, hgone, hopen⟩ := hgentle
  have hheld := heldOwn_move hscope hmove h.held
  have hspent := h.spent
  have hsent := h.sent
  have hold := h.old
  cases hmove with
  | failed fates => exact h.frame rfl rfl rfl h.sent .rfl h.memory h.file
  | tried fates hupdate =>
    exact h.frame rfl rfl rfl h.sent .rfl h.memory (h.recalls hgone hupdate)
  | committed fates hupdate => exact h.updated hscope hgone hupdate fates
  | said | opened =>
    refine h.frame rfl rfl rfl ?_ .rfl h.memory h.file
    grind [send]
  | renewed path pending requestId replyTo hpending =>
    have hmembers := h.members path _ hpending
    refine h.placed path (.pending { pending with requestId := requestId, replyTo := replyTo })
      ?_ ?_ rfl rfl rfl ?_ .rfl h.memory h.file <;>
      grind [RuntimeStream.members]
  | dropped path hexcused hactive => exact h.dropped (by grind)
  | held | withdrawn =>
    refine h.relaxed rfl ?_ ?_ hheld ?_ h.sent .rfl h.memory h.file <;> grind
  | reserved | unreserved | retiring =>
    exact h.frame rfl rfl rfl h.sent .rfl h.memory h.file

theorem Tracked.moves (hgentle : scope.Gentle owner) (hmoves : Moves scope d d') :
    Tracked owner acked ended known d' := by
  induction hmoves with
  | refl => exact h
  | tail _ hmove ih => exact ih.move hgentle hmove

theorem Tracked.send {message : Sent} (hother : ∀ opening target requestId epoch binding,
      message ≠ .opened opening target requestId epoch (.ok binding)) :
    Tracked owner acked ended known (d.send message) := by
  have hsent := h.sent
  refine h.frame rfl rfl rfl ?_ .rfl h.memory h.file
  grind [send]

theorem Tracked.lifted (path : DataPath) :
    Tracked owner acked ended known (d.liftedFence path) := by
  have hheld := h.held
  refine h.relaxed rfl ?_ ?_ ?_ ?_ h.sent .rfl h.memory h.file <;>
    grind [DataDirectory.HeldOwn, liftedFence]

theorem Tracked.liftFence (path : DataPath) :
    Tracked owner acked ended known (d.liftFence path) := by
  obtain ⟨scope, hgentle, hmoves⟩ := gentle_liftFence h.held path
  exact (h.lifted path).moves hgentle hmoves

theorem Tracked.resume : Tracked owner acked ended known d.resumeStreamReplacementFences :=
  List.foldlRecOn _ _ h fun _ hd path _ => hd.liftFence path

/-- The endpoint of the message has acknowledged. -/
theorem Tracked.confirms {message : DataDirectoryIn} (hacked : Notes acked d message)
    (hconfirms : Confirms message d d') : Tracked owner acked ended known d' := by
  obtain rfl | ⟨endpoint, incarnation, acknowledged, hm, hpending, rfl⟩ := hconfirms
  · exact h
  · refine h.relaxed rfl ?_ ?_ h.held ?_ h.sent .rfl (h.memory.mono ?_)
      (h.file.mono ?_) <;> grind

end

/-- The next snapshot of a mutation has the displacements as they were. -/
theorem Rebind.streamRetirements {message : DataDirectoryIn} (h : Rebind message d next d') :
    next.streamRetirements = d.snapshot.streamRetirements := by
  cases h <;> simp [NamespaceStore.mutated, record, BlobRegistration.edit,
    streamRetirements_retire, streamRetirements_moved, blobBound,
    unbound]

/-- The messages that are neither registrations nor closes. -/
theorem Tracked.handled (h : Tracked owner acked ended known d)
    (hgentle : scope.Gentle owner) (hregister : ∀ requestId registration replyTo,
      scope.message ≠ .register requestId registration replyTo)
    (hacked : Notes acked d scope.message) (hhandled : Handled scope d d') :
    Tracked owner acked ended known d' := by
  cases hhandled with
  | moved hmoves => exact h.moves hgentle hmoves
  | resumed hconfirms hbefore hafter =>
    have hconfirmed := (h.confirms hacked hconfirms).moves hgentle hbefore
    exact hconfirmed.resume.moves hgentle hafter
  | rebound fates hbefore hrebind hafter =>
    have hmoved := h.moves hgentle hbefore
    have hnext := hmoved.memory.extends hrebind.extends hrebind.streamRetirements
    refine Tracked.moves ?_ hgentle hafter
    have hextends := hrebind.extends
    cases hrebind with
    | registered requestId registration replyTo retired hm => exact absurd hm (hregister _ _ _)
    | unregistered | renamed =>
      exact hmoved.frame rfl rfl rfl hmoved.sent hextends hnext hnext
  | refused fates target out hrebind hstore =>
    have hmemory := h.memory
    rw [snapshot, ← hstore] at hmemory
    have hnext := hmemory.extends hrebind.extends hrebind.streamRetirements
    refine Tracked.send ?_ (by simp)
    exact h.frame rfl rfl rfl h.sent .rfl h.memory hnext

/-- The registration itself, before its source is retired and the stream of its path displaced. -/
theorem Tracked.register (h : Tracked owner acked ended known d) (registration : BlobRegistration)
    (retired : Option ActorAddress) :
    Tracked owner acked ended known (d.register registration retired).1 ∧
      (d.register registration retired).1.streams = d.streams := by
  have hrecorded (rejection : MutationRejection)
      (hnew : registration.operationId ∉ d.snapshot.operations) :=
    extends_record hnew registration.request (.rejected rejection)
  have hregistered (hnew : registration.operationId ∉ d.snapshot.operations)
      (hreservation : d.blobReservations[registration.path]? = registration.reservation) :=
    Rebind.registered (d := { d with streams := ∅ }) 0 registration 0 retired rfl hnew
      hreservation fun pending hpending => by simp at hpending
  have hmutation := Mutation.register (d := d) registration retired
  generalize d.register registration retired = outcome at hmutation
  cases hmutation with
  | replayed => exact ⟨h, rfl⟩
  | rejected rejection fates hnew =>
    have hnext := h.memory.extends (hrecorded rejection hnew) rfl
    exact ⟨h.frame rfl rfl rfl h.sent (hrecorded rejection hnew) hnext hnext, rfl⟩
  | failed fates reason =>
    exact ⟨h.frame rfl rfl rfl h.sent .rfl h.memory h.file, rfl⟩
  | tried fates reason hnew hfile =>
    refine ⟨h.frame rfl rfl rfl h.sent .rfl h.memory ?_, rfl⟩
    rcases hfile with ⟨rejection, rfl⟩ | ⟨hreservation, rfl⟩
    · exact h.memory.extends (hrecorded rejection hnew) rfl
    · have hrebind := hregistered hnew hreservation
      exact h.memory.extends hrebind.extends hrebind.streamRetirements
  | committed fates hnew hreservation =>
    have hrebind := hregistered hnew hreservation
    have hnext := h.memory.extends hrebind.extends hrebind.streamRetirements
    exact ⟨h.frame rfl rfl rfl h.sent hrebind.extends hnext hnext, rfl⟩

/-- The commits by which the ends of a stream are recorded one after the other succeed. -/
def NamespaceStore.recordsEnds (store : NamespaceStore) (binding : StreamMatch) : Bool :=
  let first := store.commit (store.snapshot.displace binding.source binding.incarnation)
  first.2.isOk && (binding.source = binding.sink ||
    (first.1.commit (first.1.snapshot.displace binding.sink binding.incarnation)).2.isOk)

/-- A registration that displaces an active stream succeeds in recording its ends. -/
def DataDirectory.recordsEnds (d : DataDirectory) (registration : BlobRegistration) : Bool :=
  let retired := (d.retiredBy registration.operationId registration.path).filter fun actor =>
    actor ≠ registration.source
  let outcome := d.register registration retired
  match d.streams[registration.path]? with
  | some (.active active) => !outcome.2.isOk || outcome.1.store.recordsEnds active.binding
  | _ => true

/-- A commit that succeeds. -/
theorem commit_eq_ok {store : NamespaceStore} {next : NamespaceSnapshot}
    (h : (store.commit next).2.isOk = true) :
    ∃ fates, store.commit next = (⟨next, next, fates⟩, .ok ()) := by
  obtain ⟨fates, hok | ⟨error, hfail | hfail⟩⟩ := store.commit_cases next
  · exact ⟨fates, hok⟩
  · rw [hfail] at h
    cases h
  · rw [hfail] at h
    cases h

variable {incarnation : StreamIncarnation}

theorem queueStreamDisplacement_of_commit (fates : List CommitFate)
    (hfree : d.pendingStreamDisplacements[endpoint]? = none)
    (hok : d.store.commit (d.snapshot.displace endpoint incarnation) =
      (⟨d.snapshot.displace endpoint incarnation, d.snapshot.displace endpoint incarnation, fates⟩,
      .ok ())) :
    d.queueStreamDisplacement endpoint incarnation =
      { d with
        store := ⟨d.snapshot.displace endpoint incarnation,
          d.snapshot.displace endpoint incarnation, fates⟩
        pendingStreamDisplacements :=
          d.pendingStreamDisplacements.insert endpoint ⟨incarnation, false⟩ }.send
        (.displaced endpoint incarnation) := by
  unfold queueStreamDisplacement
  rw [hfree, hok]
  rfl

theorem operations_queueStreamDisplacement (endpoint : ActorAddress)
    (incarnation : StreamIncarnation) :
    (d.queueStreamDisplacement endpoint incarnation).snapshot.operations =
      d.snapshot.operations := by
  unfold queueStreamDisplacement
  split
  · rfl
  · obtain ⟨fates, hok | ⟨error, hfail | hfail⟩⟩ :=
      d.store.commit_cases (d.snapshot.displace endpoint incarnation)
    · rw [hok]
      rfl
    · rw [hfail]
    · rw [hfail]

theorem getElem?_queueStreamDisplacement (endpoint other : ActorAddress)
    (incarnation : StreamIncarnation) :
    (d.queueStreamDisplacement endpoint incarnation).pendingStreamDisplacements[other]? =
        d.pendingStreamDisplacements[other]? ∨
      other = endpoint ∧
        (d.queueStreamDisplacement endpoint incarnation).pendingStreamDisplacements[other]? =
          some ⟨incarnation, false⟩ := by
  unfold queueStreamDisplacement
  split
  · exact .inl rfl
  · split
    · exact .inl rfl
    · by_cases hsame : endpoint = other
      · exact .inr ⟨hsame.symm, Maps.getElem?_insert_eq_some.mpr (.inl ⟨hsame, rfl⟩)⟩
      · left
        show (d.pendingStreamDisplacements.insert endpoint ⟨incarnation, false⟩)[other]? = _
        rw [Maps.getElem?_insert_ite, if_neg hsame]

/-- An endpoint that has left the table is recorded, or the commit fails. -/
theorem Tracked.queueStreamDisplacement (h : Tracked owner acked ended known d)
    (hfree : ∀ pending, d.pendingStreamDisplacements[endpoint]? = some pending →
      pending.incarnation = incarnation)
    (hrecorded : owner endpoint ∈ d.snapshot.operations)
    (habsent : ∀ (path : DataPath) (entry : RuntimeStream), d.streams[path]? = some entry →
      ∀ member ∈ entry.members, member.1 ≠ endpoint) :
    Tracked owner acked ended known (d.queueStreamDisplacement endpoint incarnation) := by
  unfold DataDirectory.queueStreamDisplacement
  split
  · exact h
  · next hnew =>
    have hnone : d.pendingStreamDisplacements[endpoint]? = none := by
      cases hpending : d.pendingStreamDisplacements[endpoint]? with
      | none => rfl
      | some pending =>
        rw [hpending] at hnew
        exact absurd (hfree pending hpending) (by simpa using hnew)
    have hends : ∀ known ∈ [endpoint], d.pendingStreamDisplacements[known]? = none ∧
        owner known ∈ d.snapshot.operations := by
      intro known hknown
      rw [List.mem_singleton.mp hknown]
      exact ⟨hnone, hrecorded⟩
    have hnext : Recalls owner d.pendingStreamDisplacements
        (d.snapshot.displace endpoint incarnation) := h.memory.displaceAll incarnation hends
    obtain ⟨fates, hok | ⟨error, hfail | hfail⟩⟩ :=
      d.store.commit_cases (d.snapshot.displace endpoint incarnation)
    · rw [hok]
      refine Tracked.send ?_ nofun
      refine h.awaited hends (fun known hknown => ?_) rfl rfl ⟨fates, rfl⟩
        (fun _ _ _ _ _ => id) h.held fun _ _ _ hfence _ => .inl hfence
      rw [List.mem_singleton.mp hknown]
      exact habsent
    · rw [hfail]
      exact h.frame rfl rfl rfl h.sent .rfl h.memory h.file
    · rw [hfail]
      exact h.frame rfl rfl rfl h.sent .rfl h.memory hnext

variable {path : DataPath}

/-- An active stream whose ends are free is displaced and the commits succeed. -/
theorem settling_displaceStream (hactive : d.streams[path]? = some (.active active))
    (hfree : ∀ endpoint ∈ active.endpoints, d.pendingStreamDisplacements[endpoint]? = none)
    (hrecords : d.store.recordsEnds active.binding = true) :
    (d.displaceStream path).Settling acked active.binding := by
  obtain ⟨hfirst, hsecond⟩ := Bool.and_eq_true_iff.mp hrecords
  obtain ⟨fates, hok⟩ := commit_eq_ok hfirst
  have hqueued : queueStreamDisplacement { d with streams := d.streams.erase path } _ _ = _ :=
    queueStreamDisplacement_of_commit fates (hfree _ (mem_endpoints.mpr (.inl rfl))) hok
  simp only [displaceStream, hactive, hqueued]
  set d₁ := DataDirectory.send _ _
  have hawaits (other : ActorAddress) : (d₁.queueStreamDisplacement other
      active.binding.incarnation).Awaits active.binding.source active.binding.incarnation := by
    rcases getElem?_queueStreamDisplacement (d := d₁) other active.binding.source
      active.binding.incarnation with hkept | ⟨-, hawaited⟩
    · exact hkept.trans (Maps.getElem?_insert_eq_some.mpr (.inl ⟨rfl, rfl⟩))
    · exact hawaited
  rintro endpoint (rfl | rfl)
  · exact .inr (hawaits _)
  · right
    by_cases hsame : active.binding.source = active.binding.sink
    · rw [← hsame]
      exact hawaits _
    · rw [decide_eq_false hsame, Bool.false_or, hok] at hsecond
      obtain ⟨fates', hok'⟩ := commit_eq_ok hsecond
      have hfree' : d₁.pendingStreamDisplacements[active.binding.sink]? = none := by
        show (d.pendingStreamDisplacements.insert active.binding.source _)[_]? = none
        rw [Maps.getElem?_insert_ite, if_neg hsame]
        exact hfree _ (mem_endpoints.mpr (.inr rfl))
      rw [queueStreamDisplacement_of_commit fates' hfree' hok']
      exact Maps.getElem?_insert_eq_some.mpr (.inl ⟨rfl, rfl⟩)

theorem Tracked.displaceStream (h : Tracked owner acked ended known d)
    (hrecords : ∀ active, d.streams[path]? = some (.active active) → ended path active.binding ∨
      d.store.recordsEnds active.binding = true) :
    Tracked owner acked ended known (d.displaceStream path) := by
  have hleft := h.leave path
  have hgone : Tracked owner acked (fun known binding => ended known binding ∨
      known = path ∧ d.Serves path binding) known (d.displaceStream path) := by
    unfold DataDirectory.displaceStream
    cases hentry : d.streams[path]? with
    | none => exact h.mono (fun _ _ => id) fun _ _ => .inl
    | some entry =>
      cases entry with
      | pending pending => exact hleft.send (by simp)
      | active active =>
        have hfree := h.free hentry
        have habsent := h.absent hentry
        have hsource := mem_endpoints.mpr (.inl (rfl : active.binding.source = _))
        have hsink := mem_endpoints.mpr (.inr (rfl : active.binding.sink = _))
        refine Tracked.queueStreamDisplacement (hleft.queueStreamDisplacement
          (fun pending hpending => ?_) (hfree _ hsource).2 (habsent _ hsource))
          (fun pending hpending => ?_) ?_ ?_
        · cases (hfree _ hsource).1.symm.trans hpending
        · rcases getElem?_queueStreamDisplacement (d := { d with streams := d.streams.erase path })
              active.binding.source active.binding.sink active.binding.incarnation with
            hsame | ⟨-, hqueued⟩
          · cases (hsame.trans (hfree _ hsink).1).symm.trans hpending
          · cases hqueued.symm.trans hpending
            rfl
        · rw [operations_queueStreamDisplacement]
          exact (hfree _ hsink).2
        · rw [streams_queueStreamDisplacement]
          exact habsent _ hsink
  refine hgone.narrow ?_
  rintro known binding (hended | ⟨rfl, active, hactive, rfl⟩)
  · exact .inl hended
  · exact (hrecords active hactive).imp_right
      (settling_displaceStream hactive fun endpoint hend => (h.free hactive endpoint hend).1)

theorem Tracked.queueRetired (h : Tracked owner acked ended known d)
    (retired : Option ActorAddress) : Tracked owner acked ended known (d.queueRetired retired) := by
  cases retired with
  | none => exact h
  | some source =>
    refine Tracked.send ?_ nofun
    exact h.frame rfl rfl rfl h.sent .rfl h.memory h.file

theorem Tracked.closeStream (h : Tracked owner acked ended known d)
    (hclosed : ∀ binding : StreamMatch, binding.incarnation = incarnation → d.Serves path binding →
      ended path binding) :
    Tracked owner acked ended known (d.closeStream path incarnation).1 := by
  unfold DataDirectory.closeStream
  split
  · next active hactive =>
    split
    · next hsame =>
      refine h.dropped fun other hother => ?_
      obtain rfl : active = other := by simpa [hactive] using hother
      exact hclosed active.binding hsame ⟨active, hactive, rfl⟩
    · exact h
  · exact h
  · split <;> exact h

theorem Tracked.handle (h : Tracked owner acked ended known d) (env : Surroundings)
    (m : DataDirectoryIn) (hown : ∀ request, m = .openStream request → Owned owner request)
    (hrecords : (∀ path binding, ended path binding) ∨ ∀ requestId registration replyTo,
      m = .register requestId registration replyTo → d.recordsEnds registration = true)
    (hclosed : ∀ requestId path (binding : StreamMatch) replyTo,
      m = .closeStream requestId path binding.incarnation replyTo → d.Serves path binding →
        ended path binding)
    (hacked : Notes acked d m) :
    Tracked owner acked ended known (d.handle env m) := by
  have hother (hopen : ∀ requestId path incarnation replyTo,
        m ≠ .closeStream requestId path incarnation replyTo)
      (hregister : ∀ requestId registration replyTo,
        m ≠ .register requestId registration replyTo) :
      Tracked owner acked ended known (d.handle env m) := by
    refine h.handled ⟨fun _ => id, ?_, hopen⟩ hregister hacked
      (handled_handle env m (Owned owner) hown)
    rintro active ⟨_, _, _, hm, -⟩
    exact hregister _ _ _ hm
  cases m with
  | closeStream requestId path incarnation replyTo =>
    refine Tracked.send (h.closeStream fun binding hsame hserves => ?_) (by simp)
    subst hsame
    exact hclosed requestId path binding replyTo rfl hserves
  | register requestId registration replyTo =>
    have hends := hrecords.imp_right fun hall => hall requestId registration replyTo rfl
    simp only [DataDirectory.handle]
    unfold recordsEnds at hends
    dsimp only at hends
    generalize (d.retiredBy registration.operationId registration.path).filter
      (fun actor => actor ≠ registration.source) = retired at hends
    obtain ⟨hregistered, hstreams⟩ := h.register registration retired
    refine Tracked.send ?_ (by simp)
    generalize d.register registration retired = outcome at hends hregistered hstreams
    obtain ⟨d₁, result⟩ := outcome
    split
    · next hok =>
      refine (hregistered.queueRetired retired).displaceStream fun active hactive => ?_
      refine hends.imp (fun hended => hended _ _) fun hends => ?_
      have hentry : d.streams[registration.path]? = some (.active active) := by
        rw [← hstreams]
        cases retired <;> exact hactive
      rw [hentry] at hends
      have hcommits : d₁.store.recordsEnds active.binding = true := by simpa [hok] using hends
      cases retired <;> exact hcommits
    · exact hregistered
  | _ => exact hother (by simp) (by simp)

end Tracked

end Swactor.Namespace
