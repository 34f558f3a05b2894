import Swactor.DataPlane.EdgeLifecycle
import Swactor.Lib.Trace

/-!
# The ring of an edge is given back once, and only after its teardown

A ring that an edge had installed is released after the pump has stopped, the worker has let go
of the ring and quiescence is proven, each of them while the edge was being torn down. Nothing
is asked for a ring after its edge has stopped. All of this rests on the arena never granting
one ring twice.

A ring whose installation is reported too late, when its edge is already stopping, had no pump
and is released without the proof that the pump stopped. The other two proofs are needed for every
ring that the worker was asked to install. An edge that has stopped can be provisioned anew under
the same id.
-/
namespace Swactor.DataPlane.Edge

open Machine Maps Trace EdgeRecord EdgeCommand EdgeLifecycleEvent EdgeEstablisher List

/-- The ring a command names. -/
def EdgeCommand.ring? : EdgeCommand → Option ℕ
  | .installWorkerRing _ ringId .. => some ringId
  | .uninstallWorkerRing _ ringId => some ringId
  | .stopPump _ ringId => some ringId
  | .releaseArenaLease ringId _ => some ringId
  | _ => none

/-- The edge a command names. -/
def EdgeCommand.edge? : EdgeCommand → Option ℕ
  | .leaseRing _ edgeId .. => some edgeId
  | .cancelQueuedLease _ edgeId => some edgeId
  | .installWorkerRing edgeId .. => some edgeId
  | .uninstallWorkerRing edgeId _ => some edgeId
  | .establishSend edgeId .. => some edgeId
  | .establishRecv edgeId _ => some edgeId
  | .stopPump edgeId _ => some edgeId
  | .releaseArenaLease .. => none

/-- Whether a command gives a ring back to the arena. -/
def EdgeCommand.releases (ringId : ℕ) : EdgeCommand → Bool
  | .releaseArenaLease released _ => released = ringId
  | _ => false

/-- Whether a command hands a ring to the worker for an edge. -/
def EdgeCommand.installs (edgeId ringId : ℕ) : EdgeCommand → Bool
  | .installWorkerRing edge ring .. => edge = edgeId ∧ ring = ringId
  | _ => false

theorem EdgeCommand.ring_of_releases {ringId : ℕ} {command : EdgeCommand}
    (h : command.releases ringId = true) : command.ring? = some ringId := by
  cases command with
  | releaseArenaLease released proof =>
    obtain rfl : released = ringId := of_decide_eq_true h
    rfl
  | _ => cases h

theorem EdgeCommand.releases_eq_false {command : EdgeCommand} (h : command.ring? = none)
    (ringId : ℕ) : command.releases ringId = false := by
  cases command <;> cases h <;> rfl

/-- The ring an event grants. -/
def EdgeEvent.leasedRing? : EdgeEvent → Option ℕ
  | .ringLeased _ ringId _ => some ringId
  | _ => none

/-- The edge that an event provisions at a node. -/
def EdgeEvent.provisionedEdge? (localNodeId : ℕ) : EdgeEvent → Option ℕ
  | .provisionTx provision =>
      if provision.localNodeId = localNodeId then some provision.edgeId else none
  | .provisionRx provision =>
      if provision.localNodeId = localNodeId then some provision.edgeId else none
  | _ => none

/-- The rings that the events of a run grant. -/
def grantedRings (events : List EdgeEvent) : List ℕ := events.filterMap EdgeEvent.leasedRing?

/-- The events that the teardown of a ring which the worker was handed waits for. -/
def workerProofs (ringId : ℕ) : List EdgeEvent := [.ringQuiesced ringId, .quiescenceProven ringId]

/-- The events that the teardown of an edge with an installed ring waits for. -/
def teardownProofs (edgeId ringId : ℕ) : List EdgeEvent :=
  .pumpStopped edgeId ringId :: workerProofs ringId

/-- A command of a step that takes an edge from `record` to `outcome`: the ring that is granted is
handed to the worker, the ring of the edge is wound down or given back after its teardown, or no
ring is concerned. -/
inductive Asks (edgeId : ℕ) (record : EdgeRecord) (event : EdgeEvent) (outcome : Outcome) :
    EdgeCommand → Prop
  | install {ringId : ℕ} {direction : RingDirection} {layout : RingLayout} {object : ObjectSpec}
      {spec : RingSpec} (hevent : event.leasedRing? = some ringId)
      (hring : outcome.record.ringId = some ringId)
      (hstate : outcome.record.state = .waitingForWorkerRing) :
      Asks edgeId record event outcome
        (.installWorkerRing edgeId ringId direction layout object spec)
  | plain {command : EdgeCommand} (hedge : command.edge? = some edgeId)
      (hnone : command.ring? = none) : Asks edgeId record event outcome command
  | stopPump {ringId : ℕ} (hheld : record.ringId = some ringId) :
      Asks edgeId record event outcome (.stopPump edgeId ringId)
  | uninstall {ringId : ℕ} (hheld : record.ringId = some ringId) :
      Asks edgeId record event outcome (.uninstallWorkerRing edgeId ringId)
  | release {ringId : ℕ} (hheld : record.ringId = some ringId)
      (hall : outcome.commands = [.releaseArenaLease ringId true])
      (hring : outcome.record.ringId = some ringId) (hstate : outcome.record.state = .stopped)
      (hquiesced : outcome.record.teardownQuiesced = true) :
      Asks edgeId record event outcome (.releaseArenaLease ringId true)

/-! ### Records -/

namespace EdgeRecord

/-- A record that waits for a lease has no ring, a record without a ring has no proofs, and a
record with a ring has asked the worker to install it. -/
structure Sound (record : EdgeRecord) : Prop where
  waiting : record.state = .waitingForLease → record.ringId = none
  unmarked : record.ringId = none →
    record.pumpStopped = false ∧ record.workerRingQuiesced = false ∧
      record.quiescenceProven = false
  requested : record.ringId ≠ none → record.workerRingRequested = true ∧ record.layout ≠ none

/-- The proofs of its teardown that a record has marked. -/
def marks (record : EdgeRecord) (edgeId ringId : ℕ) : List EdgeEvent :=
  (if record.pumpStopped then [.pumpStopped edgeId ringId] else []) ++
    ((if record.workerRingQuiesced then [.ringQuiesced ringId] else []) ++
      if record.quiescenceProven then [.quiescenceProven ringId] else [])

variable {record : EdgeRecord} {edgeId : ℕ} {command : EdgeCommand}

theorem Sound.marks_eq_nil (hsound : record.Sound) (hring : record.ringId = none)
    (edgeId ringId : ℕ) : record.marks edgeId ringId = [] := by
  obtain ⟨hpump, hquiesced, hproven⟩ := hsound.unmarked hring
  simp [marks, hpump, hquiesced, hproven]

/-- A ring is given back only with the worker's proofs, and with that of the pump if it ran. -/
theorem Sound.marks_of_quiesced (hsound : record.Sound) (hring : record.ringId ≠ none)
    (hquiesced : record.teardownQuiesced = true) (edgeId ringId : ℕ) :
    workerProofs ringId ⊆ record.marks edgeId ringId ∧
      (record.driverEstablished = true →
        teardownProofs edgeId ringId ⊆ record.marks edgeId ringId) := by
  have hcleanup : record.workerRingCleanupRequired = true := by
    simp [workerRingCleanupRequired, (hsound.requested hring).1]
  simp only [teardownQuiesced, hcleanup, Bool.not_true, Bool.false_or,
    Bool.and_eq_true] at hquiesced
  obtain ⟨⟨hpump, hworker⟩, hproven⟩ := hquiesced
  refine ⟨by simp [marks, workerProofs, hworker, hproven], fun hdriver => ?_⟩
  rw [hdriver, Bool.not_true, Bool.false_or] at hpump
  simp [marks, teardownProofs, workerProofs, hpump, hworker, hproven]

theorem sound_newTx (provision : ProvisionTx) (requestId actor : ℕ) :
    (newTx provision requestId actor).Sound := by
  constructor <;> simp [newTx]

theorem sound_newRx (provision : ProvisionRx) (requestId actor : ℕ) :
    (newRx provision requestId actor).Sound := by
  constructor <;> simp [newRx]

theorem stop_record (record : EdgeRecord) (edgeId : ℕ) (faults : List EdgeLifecycleEvent) :
    ∃ state, (state = .stopping ∨ state = .stopped) ∧
      (record.stop edgeId faults).record = { record with state := state } := by
  unfold stop
  split
  · exact ⟨.stopped, .inr rfl, rfl⟩
  · split
    · exact ⟨.stopped, .inr rfl, rfl⟩
    · exact ⟨.stopping, .inl rfl, rfl⟩

variable {faults : List EdgeLifecycleEvent} {event : EdgeLifecycleEvent}

theorem mem_events_stop (h : event ∈ (record.stop edgeId faults).events) :
    event ∈ faults ∨ event = .edgeStopped edgeId := by
  unfold stop at h
  split at h
  · simpa using h
  · split at h
    · simpa using h
    · exact .inl h

/-- With a ring there is something to tear down: stopping an edge releases nothing yet. -/
theorem Sound.mem_stop (hsound : record.Sound)
    (h : command ∈ (record.stop edgeId faults).commands) (told : EdgeEvent) (outcome : Outcome) :
    Asks edgeId record told outcome command := by
  have hcancel : command ∈ record.cancel edgeId → Asks edgeId record told outcome command := by
    intro hmem
    obtain ⟨requestId, -, rfl⟩ := mem_map.mp hmem
    exact .plain rfl rfl
  unfold stop at h
  split at h
  case h_1 => exact hcancel h
  case h_2 ringId hring =>
    have hcleanup : record.workerRingCleanupRequired = true := by
      simp [workerRingCleanupRequired, (hsound.requested (by simp [hring])).1]
    rw [if_neg (by simp [hcleanup])] at h
    rcases mem_append.mp h with h | h
    · exact hcancel h
    · have hcases : command = .stopPump edgeId ringId ∨
          command = .uninstallWorkerRing edgeId ringId := by
        cases hdriver : record.driverEstablished with
        | true => simpa [hdriver, hcleanup] using h
        | false => exact .inr (by simpa [hdriver, hcleanup] using h)
      rcases hcases with rfl | rfl
      · exact .stopPump hring
      · exact .uninstall hring

theorem settle_record (record : EdgeRecord) (edgeId ringId : ℕ) :
    ∃ state, (state = record.state ∨ state = .stopped) ∧
      (record.settle edgeId ringId).record = { record with state := state } := by
  unfold settle
  split
  · exact ⟨.stopped, .inr rfl, rfl⟩
  · exact ⟨record.state, .inl rfl, rfl⟩

theorem mem_settle {ringId : ℕ} (h : command ∈ (record.settle edgeId ringId).commands) :
    (record.settle edgeId ringId).commands = [.releaseArenaLease ringId true] ∧
      (record.settle edgeId ringId).record = { record with state := .stopped } ∧
      record.teardownQuiesced = true := by
  unfold settle at h ⊢
  split at h
  · rw [if_pos ‹_›]
    exact ⟨rfl, rfl, ‹_›⟩
  · cases h

theorem mem_events_settle {ringId : ℕ} (h : event ∈ (record.settle edgeId ringId).events) :
    event = .edgeStopped edgeId := by
  unfold settle at h
  split at h
  · simpa using h
  · cases h

theorem mem_establish {layout : RingLayout} (h : command ∈ record.establish edgeId layout) :
    command.edge? = some edgeId ∧ command.ring? = none := by
  unfold establish at h
  split at h
  · obtain ⟨peer, -, rfl⟩ := mem_map.mp h
    exact ⟨rfl, rfl⟩
  · obtain rfl := mem_singleton.mp h
    exact ⟨rfl, rfl⟩

end EdgeRecord

/-! ### One step of one edge -/

namespace Advance

variable {edgeId : ℕ} {record : EdgeRecord} {event : EdgeEvent} {outcome : Outcome}

section

variable (h : Advance edgeId record event outcome)
include h

theorem sound (hsound : record.Sound) : outcome.record.Sound := by
  obtain ⟨hwaiting, hunmarked, hrequested⟩ := hsound
  cases h with
  | leased requestId ringId layout hstate hrequest => constructor <;> simp
  | rejected requestId reason hstate hrequest | installed ringId layout hstate hring hlayout =>
    exact ⟨nofun, hunmarked, hrequested⟩
  | ready hstate => exact ⟨nofun, hunmarked, hrequested⟩
  | @stop _ faults hhalts hstopping hstopped =>
    obtain ⟨state, hstate, heq⟩ := record.stop_record edgeId faults
    rw [heq]
    refine ⟨fun h => ?_, hunmarked, hrequested⟩
    rcases hstate with rfl | rfl <;> cases h
  | pumpStopped ringId hstate hring | ringQuiesced ringId hstate hring
  | quiescenceProven ringId hstate hring =>
    obtain ⟨state, hstate', heq⟩ := settle_record _ edgeId ringId
    rw [heq]
    refine ⟨fun h => ?_, fun h => absurd (hring.symm.trans h) (by simp), hrequested⟩
    rcases hstate' with rfl | rfl
    · exact absurd (hstate.symm.trans h) (by decide)
    · cases h
  | markStopped => exact ⟨nofun, hunmarked, hrequested⟩

/-- An edge that has stopped stays as it is and asks for nothing. -/
theorem of_stopped (hstopped : record.state = .stopped) : outcome = ⟨record, [], []⟩ := by
  cases h with
  | leased requestId ringId layout hstate | rejected requestId reason hstate
  | installed ringId layout hstate | ready hstate | pumpStopped ringId hstate
  | ringQuiesced ringId hstate | quiescenceProven ringId hstate =>
    exact absurd (hstate.symm.trans hstopped) (by decide)
  | stop hhalts hstopping hstate => exact absurd hstopped hstate
  | markStopped => rw [← hstopped]

theorem ringId {ringId : ℕ} (hring : outcome.record.ringId = some ringId) :
    record.ringId = some ringId ∨ event.leasedRing? = some ringId := by
  cases h with
  | leased requestId granted layout => exact .inr hring
  | rejected | installed | ready | markStopped => exact .inl hring
  | @stop _ faults =>
    obtain ⟨state, -, heq⟩ := record.stop_record edgeId faults
    exact .inl (by rwa [heq] at hring)
  | pumpStopped asked | ringQuiesced asked | quiescenceProven asked =>
    obtain ⟨state, -, heq⟩ := settle_record _ edgeId asked
    rw [heq] at hring
    exact .inl hring

end

variable {command : EdgeCommand}

section

variable (h : Advance edgeId record event outcome)

include h

variable {ringId : ℕ}

theorem asks (hsound : record.Sound) (hmem : command ∈ outcome.commands) :
    Asks edgeId record event outcome command := by
  cases h with
  | leased requestId ringId layout =>
    obtain rfl := mem_singleton.mp hmem
    exact .install rfl rfl rfl
  | rejected | ready | markStopped => cases hmem
  | installed granted layout => exact .plain (mem_establish hmem).1 (mem_establish hmem).2
  | stop => exact hsound.mem_stop hmem _ _
  | pumpStopped asked _ hasked | ringQuiesced asked _ hasked | quiescenceProven asked _ hasked =>
    obtain ⟨hcommands, hrecord, hquiesced⟩ := mem_settle hmem
    rw [hcommands] at hmem
    obtain rfl := mem_singleton.mp hmem
    refine .release hasked hcommands ?_ ?_ ?_ <;> rw [hrecord]
    · exact hasked
    · exact hquiesced

theorem eq_of_ready {readyId actor : ℕ}
    (hmem : edgeReady readyId actor ∈ outcome.events) : readyId = edgeId := by
  cases h with
  | leased | installed | markStopped => cases hmem
  | rejected => simp at hmem
  | ready => exact (by simpa using hmem : readyId = edgeId ∧ _).1
  | stop hhalts =>
    rcases mem_events_stop hmem with hmem | hmem
    · cases hhalts <;> simp at hmem
    · cases hmem
  | pumpStopped asked | ringQuiesced asked | quiescenceProven asked =>
    cases mem_events_settle hmem

/-- A mark was there before or is made by the event it stands for, during the teardown. -/
theorem marks (hsound : record.Sound) (hring : outcome.record.ringId = some ringId)
    {proof : EdgeEvent} (hmem : proof ∈ outcome.record.marks edgeId ringId) :
    record.ringId = some ringId ∧
      (proof ∈ record.marks edgeId ringId ∨ event = proof ∧ record.state = .stopping) := by
  cases h with
  | leased requestId granted layout hstate =>
    have hnil := hsound.marks_eq_nil (hsound.waiting hstate) edgeId ringId
    exact absurd (hnil ▸ hmem) not_mem_nil
  | rejected | installed | ready | markStopped => exact ⟨hring, .inl hmem⟩
  | @stop _ faults =>
    obtain ⟨state, -, heq⟩ := record.stop_record edgeId faults
    rw [heq] at hmem hring
    exact ⟨hring, .inl hmem⟩
  | pumpStopped asked hstate hasked | ringQuiesced asked hstate hasked
  | quiescenceProven asked hstate hasked =>
    obtain ⟨state, -, heq⟩ := settle_record _ edgeId asked
    rw [heq] at hmem hring
    obtain rfl : asked = ringId := Option.some.inj (hasked.symm.trans hring)
    refine ⟨hring, ?_⟩
    simp only [marks, mem_append, if_true, mem_singleton] at hmem ⊢
    tauto

theorem driverEstablished (hdriver : record.driverEstablished = true) :
    outcome.record.driverEstablished = true := by
  cases h with
  | leased | rejected | ready | markStopped => exact hdriver
  | installed => rfl
  | @stop _ faults =>
    obtain ⟨state, -, heq⟩ := record.stop_record edgeId faults
    rwa [heq]
  | pumpStopped asked | ringQuiesced asked | quiescenceProven asked =>
    obtain ⟨state, -, heq⟩ := settle_record _ edgeId asked
    rwa [heq]

end

end Advance

/-! ### One step of the establisher -/

namespace EdgeEstablisher

variable {s : EdgeEstablisher} {event : EdgeEvent}

variable {edgeId : ℕ} {record : EdgeRecord} {command : EdgeCommand}

theorem Provisions.fresh (h : Provisions s edgeId record event command) :
    record.Sound ∧ record.ringId = none ∧ command.ring? = none ∧ command.edge? = some edgeId ∧
      event.provisionedEdge? s.localNodeId = some edgeId := by
  cases h with
  | tx provision hnode hedge hrecord =>
    subst hrecord
    exact ⟨sound_newTx .., rfl, rfl, rfl, by simp [EdgeEvent.provisionedEdge?, hnode, hedge]⟩
  | rx provision hnode hedge hrecord =>
    subst hrecord
    exact ⟨sound_newRx .., rfl, rfl, rfl, by simp [EdgeEvent.provisionedEdge?, hnode, hedge]⟩

theorem localNodeId_observe (s : EdgeEstablisher) (event : EdgeEvent) :
    (s.observe event).localNodeId = s.localNodeId := by
  have htransition := transition_observe s event
  generalize s.observe event = s' at htransition ⊢
  cases htransition <;> rfl

/-- Every record is sound. -/
def Sound (s : EdgeEstablisher) : Prop :=
  ∀ (edgeId : ℕ) (record : EdgeRecord), s.records[edgeId]? = some record → record.Sound

/-- Where a record comes from: it was there, it is new, or its edge has taken a step. -/
theorem record_observe (h : (s.observe event).records[edgeId]? = some record) :
    s.records[edgeId]? = some record ∨ (record.Sound ∧ record.ringId = none) ∨
      ∃ before outcome, s.records[edgeId]? = some before ∧
        Advance edgeId before event outcome ∧ outcome.record = record := by
  have htransition := transition_observe s event
  generalize s.observe event = s' at htransition h
  cases htransition with
  | skip | lateGrant => exact .inl h
  | provision hprovisions =>
    rcases getElem?_insert_eq_some.mp h with ⟨-, rfl⟩ | ⟨-, h⟩
    · obtain ⟨hsound, hnone, -⟩ := hprovisions.fresh
      exact .inr (.inl ⟨hsound, hnone⟩)
    · exact .inl h
  | edge hedge hadvance =>
    rcases getElem?_insert_eq_some.mp h with ⟨rfl, rfl⟩ | ⟨-, h⟩
    · exact .inr (.inr ⟨_, _, hedge, hadvance, rfl⟩)
    · exact .inl h

variable {ringId : ℕ} {commands : List EdgeCommand}

theorem record_observe_of_ring (h : (s.observe event).records[edgeId]? = some record)
    (hring : record.ringId = some ringId) :
    s.records[edgeId]? = some record ∨ ∃ before outcome, s.records[edgeId]? = some before ∧
      Advance edgeId before event outcome ∧ outcome.record = record :=
  (record_observe h).imp_right fun hnew =>
    hnew.resolve_left fun hfresh => absurd (hfresh.2.symm.trans hring) (by simp)

theorem Sound.observe (hsound : s.Sound) (event : EdgeEvent) : (s.observe event).Sound := by
  intro edgeId record hrecord
  rcases record_observe hrecord with hold | ⟨hnew, -⟩ | ⟨before, outcome, hedge, hadvance, rfl⟩
  · exact hsound edgeId record hold
  · exact hnew
  · exact hadvance.sound (hsound _ _ hedge)

/-- Every edge with the ring has stopped. -/
def Retired (s : EdgeEstablisher) (ringId : ℕ) : Prop :=
  ∀ (edgeId : ℕ) (record : EdgeRecord), s.records[edgeId]? = some record →
    record.ringId = some ringId → record.state = .stopped

/-- Unless it is granted anew, nothing is asked for a retired ring and it stays retired. -/
theorem Retired.observe (h : s.Retired ringId) (hsound : s.Sound)
    (hfresh : event.leasedRing? ≠ some ringId) :
    (s.observe event).Retired ringId ∧
      Grown (fun command => command.ring? ≠ some ringId) s.commands (s.observe event).commands := by
  constructor
  · intro edgeId record hrecord hring
    rcases record_observe_of_ring hrecord hring with
      hold | ⟨before, outcome, hedge, hadvance, rfl⟩
    · exact h edgeId record hold hring
    · have hstopped := h _ _ hedge ((hadvance.ringId hring).resolve_right hfresh)
      rw [hadvance.of_stopped hstopped]
      exact hstopped
  have htransition := transition_observe s event
  generalize s.observe event = s' at htransition ⊢
  cases htransition with
  | skip => exact .refl _
  | provision hprovisions =>
    refine ⟨_, rfl, fun command hmem => ?_⟩
    obtain rfl := mem_singleton.mp hmem
    simp [hprovisions.fresh.2.2.1]
  | lateGrant hevent =>
    refine ⟨_, rfl, fun command hmem hring => ?_⟩
    obtain rfl := mem_singleton.mp hmem
    exact hfresh (hevent ▸ hring)
  | edge hedge hadvance =>
    refine ⟨_, rfl, fun command hmem hring => ?_⟩
    cases hadvance.asks (hsound _ _ hedge) hmem with
    | install hevent => exact hfresh (hevent.trans hring)
    | plain _ hnone => exact absurd (hnone.symm.trans hring) (by simp)
    | stopPump hheld | uninstall hheld | release hheld =>
      rw [hadvance.of_stopped (h _ _ hedge (hheld.trans hring))] at hmem
      cases hmem

/-- Unless it is provisioned anew, an edge that has stopped stays as it is. -/
theorem observe_of_stopped (hsound : s.Sound) (hrecord : s.records[edgeId]? = some record)
    (hstopped : record.state = .stopped)
    (hnew : event.provisionedEdge? s.localNodeId ≠ some edgeId) :
    (s.observe event).records[edgeId]? = some record ∧
      Grown (fun command => command.edge? ≠ some edgeId) s.commands (s.observe event).commands ∧
      Grown (fun told => ∀ actor, told ≠ .edgeReady edgeId actor) s.events
        (s.observe event).events := by
  have htransition := transition_observe s event
  generalize s.observe event = s' at htransition ⊢
  cases htransition with
  | skip => exact ⟨hrecord, .refl _, .refl _⟩
  | provision hprovisions =>
    obtain ⟨-, -, -, hedge, hprovisioned⟩ := hprovisions.fresh
    have hne := fun h => hnew (hprovisioned.trans (congrArg some h))
    refine ⟨getElem?_insert_eq_some.mpr (.inr ⟨hne, hrecord⟩), ⟨_, rfl, fun command hmem => ?_⟩,
      .refl _⟩
    obtain rfl := mem_singleton.mp hmem
    rw [hedge]
    exact fun h => hne (Option.some.inj h)
  | lateGrant hevent =>
    refine ⟨hrecord, ⟨_, rfl, fun command hmem => ?_⟩, .refl _⟩
    obtain rfl := mem_singleton.mp hmem
    exact nofun
  | @edge edgeId' record' outcome hedge hadvance =>
    by_cases heq : edgeId' = edgeId
    · subst heq
      obtain rfl := Option.some.inj (hedge.symm.trans hrecord)
      rw [hadvance.of_stopped hstopped]
      exact ⟨getElem_apply .., ⟨[], rfl, nofun⟩, [], rfl, nofun⟩
    · refine ⟨getElem?_insert_eq_some.mpr (.inr ⟨heq, hrecord⟩), ⟨_, rfl, ?_⟩, _, rfl, ?_⟩
      · intro command hmem h
        cases hadvance.asks (hsound _ _ hedge) hmem with
        | install | stopPump | uninstall => exact heq (Option.some.inj h)
        | plain hedge => exact heq (Option.some.inj (hedge.symm.trans h))
        | release => cases h
      · rintro told hmem actor rfl
        exact heq (hadvance.eq_of_ready hmem).symm

/-! ### Histories -/

/-- The establisher after the events of a run. -/
def run (localNodeId : ℕ) (events : List EdgeEvent) : EdgeEstablisher :=
  events.foldl observe (new localNodeId)

theorem run_concat (localNodeId : ℕ) (past : List EdgeEvent) (event : EdgeEvent) :
    run localNodeId (past ++ [event]) = (run localNodeId past).observe event := by
  simp [run]

theorem mem_grantedRings_concat {past : List EdgeEvent} :
    ringId ∈ grantedRings (past ++ [event]) ↔
      ringId ∈ grantedRings past ∨ event.leasedRing? = some ringId := by
  simp [grantedRings]

/-- The edge has the ring and its record is in the given state. -/
def HoldsIn (s : EdgeEstablisher) (state : EdgeProvisionState) (edgeId ringId : ℕ) : Prop :=
  ∃ record, s.records[edgeId]? = some record ∧ record.state = state ∧
    record.ringId = some ringId

instance HoldsIn.decidable (s : EdgeEstablisher) (state : EdgeProvisionState)
    (edgeId ringId : ℕ) : Decidable (s.HoldsIn state edgeId ringId) :=
  decidable_of_iff
    (s.records[edgeId]?.any fun record => record.state = state ∧ record.ringId = some ringId) (by
      simp [HoldsIn, Option.any_eq_true])

/-- The edge waits for the worker to install the ring. -/
abbrev AwaitsInstall (s : EdgeEstablisher) (edgeId ringId : ℕ) : Prop :=
  s.HoldsIn .waitingForWorkerRing edgeId ringId

/-- The edge has the ring and is being torn down. -/
abbrev TearsDown (s : EdgeEstablisher) (edgeId ringId : ℕ) : Prop :=
  s.HoldsIn .stopping edgeId ringId

/-- Where the ring of a record comes from. -/
theorem ringId_observe (hrecord : (s.observe event).records[edgeId]? = some record)
    (hring : record.ringId = some ringId) :
    event.leasedRing? = some ringId ∨ ∃ before : EdgeRecord,
      s.records[edgeId]? = some before ∧ before.ringId = some ringId := by
  rcases record_observe_of_ring hrecord hring with hold | ⟨before, outcome, hedge, hadvance, rfl⟩
  · exact .inr ⟨record, hold, hring⟩
  · exact (hadvance.ringId hring).symm.imp_right fun hheld => ⟨before, hedge, hheld⟩

/-- A report that the edge waits for establishes its driver. -/
theorem ringInstalled_of_awaits (hsound : s.Sound) (h : s.AwaitsInstall edgeId ringId) :
    ∃ record layout, s.ringInstalled edgeId ringId =
      s.apply edgeId ⟨{ record with
        workerInstalled := true
        driverEstablished := true
        state := .waitingForDriver }, record.establish edgeId layout, []⟩ ∧
      s.records[edgeId]? = some record := by
  obtain ⟨record, hrecord, hstate, hring⟩ := h
  obtain ⟨layout, hlayout⟩ :=
    Option.ne_none_iff_exists'.mp ((hsound edgeId record hrecord).requested (by simp [hring])).2
  refine ⟨record, layout, ?_, hrecord⟩
  simp only [ringInstalled, hrecord, hstate, hring, hlayout]
  rw [if_neg (by simp)]
  cases hdirection : record.direction <;> cases hpeer : record.peerNodeId <;>
    simp [establish, hdirection, hpeer, setRecord_eq_apply, apply_push]

theorem commands_observe (s : EdgeEstablisher) (event : EdgeEvent) :
    ∃ commands, (s.observe event).commands = s.commands ++ commands := by
  have htransition := transition_observe s event
  generalize s.observe event = s' at htransition ⊢
  cases htransition with
  | skip => exact ⟨[], (append_nil _).symm⟩
  | provision | lateGrant | edge => exact ⟨_, rfl⟩

/-- A release is the only command of its step. The ring comes too late, or its edge has been
torn down. -/
theorem released_observe (hsound : s.Sound)
    (hcommands : (s.observe event).commands = s.commands ++ commands) (hmem : command ∈ commands)
    (hreleases : command.releases ringId = true) :
    commands = [.releaseArenaLease ringId true] ∧
      (event.leasedRing? = some ringId ∧ (s.observe event).records = s.records ∨
        ∃ (edgeId : ℕ) (record : EdgeRecord), (s.observe event).records[edgeId]? = some record ∧
          record.ringId = some ringId ∧ record.state = .stopped ∧
          record.teardownQuiesced = true) := by
  have htransition := transition_observe s event
  generalize s.observe event = s' at htransition hcommands ⊢
  cases htransition with
  | skip =>
    obtain rfl : commands = [] := by simpa using hcommands
    cases hmem
  | provision hprovisions =>
    obtain rfl := append_cancel_left hcommands
    obtain rfl := mem_singleton.mp hmem
    cases hprovisions <;> cases hreleases
  | lateGrant hevent =>
    obtain rfl := append_cancel_left hcommands
    obtain rfl := mem_singleton.mp hmem
    obtain rfl := of_decide_eq_true hreleases
    exact ⟨rfl, .inl ⟨by rw [hevent]; rfl, rfl⟩⟩
  | edge hedge hadvance =>
    obtain rfl := append_cancel_left hcommands
    cases hadvance.asks (hsound _ _ hedge) hmem with
    | install | stopPump | uninstall => cases hreleases
    | plain _ hnone => simp [releases_eq_false hnone] at hreleases
    | release _ hall hring hstate hquiesced =>
      obtain rfl := of_decide_eq_true hreleases
      exact ⟨hall, .inr ⟨_, _, getElem_apply .., hring, hstate, hquiesced⟩⟩

/-- The edge that a ring is handed to the worker for has it and is not stopped. -/
theorem installs_observe (hsound : s.Sound)
    (hcommands : (s.observe event).commands = s.commands ++ commands) (hmem : command ∈ commands)
    (hinstalls : command.installs edgeId ringId = true) :
    (s.observe event).HoldsIn .waitingForWorkerRing edgeId ringId := by
  have htransition := transition_observe s event
  generalize s.observe event = s' at htransition hcommands ⊢
  cases htransition with
  | skip =>
    obtain rfl : commands = [] := by simpa using hcommands
    cases hmem
  | provision hprovisions =>
    obtain rfl := append_cancel_left hcommands
    obtain rfl := mem_singleton.mp hmem
    cases hprovisions <;> cases hinstalls
  | lateGrant hevent =>
    obtain rfl := append_cancel_left hcommands
    obtain rfl := mem_singleton.mp hmem
    cases hinstalls
  | edge hedge hadvance =>
    obtain rfl := append_cancel_left hcommands
    cases hadvance.asks (hsound _ _ hedge) hmem with
    | install _ hring hstate =>
      obtain ⟨rfl, rfl⟩ := of_decide_eq_true hinstalls
      exact ⟨_, getElem_apply .., hstate, hring⟩
    | plain _ hnone => cases command <;> cases hnone <;> cases hinstalls
    | stopPump | uninstall | release => cases hinstalls

/-- The installation of the ring was reported when the edge waited for it. -/
def Installed (localNodeId : ℕ) (past : List EdgeEvent) (edgeId ringId : ℕ) : Prop :=
  Happened (fun s event => event = .ringInstalled edgeId ringId ∧ s.AwaitsInstall edgeId ringId)
    observe (new localNodeId) past

instance Installed.decidable (localNodeId : ℕ) (past : List EdgeEvent) (edgeId ringId : ℕ) :
    Decidable (Installed localNodeId past edgeId ringId) :=
  Happened.decidable _ _ _ _

/-- The proof arrived when the edge with its ring was being torn down. -/
def Proven (localNodeId : ℕ) (past : List EdgeEvent) (edgeId ringId : ℕ) (proof : EdgeEvent) :
    Prop :=
  Happened (fun s event => event = proof ∧ s.TearsDown edgeId ringId) observe (new localNodeId)
    past

variable {localNodeId : ℕ} {past : List EdgeEvent}

theorem installed_concat :
    Installed localNodeId (past ++ [event]) edgeId ringId ↔
      Installed localNodeId past edgeId ringId ∨
        event = .ringInstalled edgeId ringId ∧
          (run localNodeId past).AwaitsInstall edgeId ringId :=
  happened_concat

theorem proven_concat {proof : EdgeEvent} :
    Proven localNodeId (past ++ [event]) edgeId ringId proof ↔
      Proven localNodeId past edgeId ringId proof ∨
        event = proof ∧ (run localNodeId past).TearsDown edgeId ringId :=
  happened_concat

/-- Whether the worker was asked to install the ring for the edge. -/
def Handed (s : EdgeEstablisher) (edgeId ringId : ℕ) : Bool :=
  s.commands.any (installs edgeId ringId)

/-- The ring is with this edge alone, under a record that satisfies `P`, and it is given back only
after the proofs. -/
structure Bound (P : EdgeRecord → Prop) (proofs : List EdgeEvent) (localNodeId : ℕ)
    (past : List EdgeEvent) (edgeId ringId : ℕ) : Prop where
  granted : ringId ∈ grantedRings past
  held : ∀ (edgeId' : ℕ) (record : EdgeRecord),
    (run localNodeId past).records[edgeId']? = some record → record.ringId = some ringId →
      edgeId' = edgeId ∧ P record
  proven : ∀ command ∈ (run localNodeId past).commands, command.releases ringId = true →
    ∀ proof ∈ proofs, Proven localNodeId past edgeId ringId proof

/-- What the records and commands say about the past. -/
structure Accounted (localNodeId : ℕ) (past : List EdgeEvent) : Prop where
  sound : (run localNodeId past).Sound
  granted : ∀ (edgeId : ℕ) (record : EdgeRecord) (ringId : ℕ),
    (run localNodeId past).records[edgeId]? = some record → record.ringId = some ringId →
      ringId ∈ grantedRings past
  single : ∀ (edgeId edgeId' : ℕ) (record record' : EdgeRecord) (ringId : ℕ),
    (run localNodeId past).records[edgeId]? = some record →
      (run localNodeId past).records[edgeId']? = some record' →
      record.ringId = some ringId → record'.ringId = some ringId → edgeId = edgeId'
  heard : ∀ (edgeId : ℕ) (record : EdgeRecord) (ringId : ℕ),
    (run localNodeId past).records[edgeId]? = some record → record.ringId = some ringId →
      ∀ proof ∈ record.marks edgeId ringId, Proven localNodeId past edgeId ringId proof
  released : ∀ ringId, ∀ command ∈ (run localNodeId past).commands,
    command.releases ringId = true →
      ringId ∈ grantedRings past ∧ (run localNodeId past).Retired ringId
  once : ∀ ringId, (run localNodeId past).commands.countP (releases ringId) ≤ 1
  handed : ∀ edgeId ringId, (run localNodeId past).Handed edgeId ringId = true →
    Bound (fun _ => True) (workerProofs ringId) localNodeId past edgeId ringId
  installed : ∀ edgeId ringId, Installed localNodeId past edgeId ringId →
    Bound (fun record => record.driverEstablished = true) (teardownProofs edgeId ringId)
      localNodeId past edgeId ringId

theorem accounted_nil (localNodeId : ℕ) : Accounted localNodeId [] := by
  have hnone (edgeId : ℕ) : (run localNodeId []).records[edgeId]? = none := by simp [run, new]
  constructor
  · intro edgeId record h
    simp [hnone] at h
  · intro edgeId record ringId h
    simp [hnone] at h
  · intro edgeId edgeId' record record' ringId h
    simp [hnone] at h
  · intro edgeId record ringId h
    simp [hnone] at h
  · exact fun _ _ hmem => absurd hmem not_mem_nil
  · exact fun _ => Nat.zero_le _
  · exact fun _ _ h => absurd h Bool.false_ne_true
  · exact fun _ _ h => h.elim

namespace Accounted

variable (h : Accounted localNodeId past)
  (hfresh : ∀ ringId ∈ grantedRings past, event.leasedRing? ≠ some ringId)

include h hfresh

variable {edgeId : ℕ} {record : EdgeRecord} {ringId : ℕ}

omit hfresh in
theorem granted_concat
    (hrecord : ((run localNodeId past).observe event).records[edgeId]? = some record)
    (hring : record.ringId = some ringId) : ringId ∈ grantedRings (past ++ [event]) := by
  rw [mem_grantedRings_concat]
  rcases ringId_observe hrecord hring with hleased | ⟨before, hbefore, hheld⟩
  · exact .inr hleased
  · exact .inl (h.granted edgeId before ringId hbefore hheld)

theorem single_concat {edgeId' : ℕ} {record' : EdgeRecord}
    (hrecord : ((run localNodeId past).observe event).records[edgeId]? = some record)
    (hrecord' : ((run localNodeId past).observe event).records[edgeId']? = some record')
    (hring : record.ringId = some ringId) (hring' : record'.ringId = some ringId) :
    edgeId = edgeId' := by
  have hold (edgeId : ℕ) (record : EdgeRecord)
      (hrecord : (run localNodeId past).records[edgeId]? = some record)
      (hring : record.ringId = some ringId) : event.leasedRing? ≠ some ringId :=
    hfresh ringId (h.granted edgeId record ringId hrecord hring)
  have htransition := transition_observe (run localNodeId past) event
  generalize (run localNodeId past).observe event = s' at htransition hrecord hrecord'
  cases htransition with
  | skip | lateGrant => exact h.single _ _ _ _ ringId hrecord hrecord' hring hring'
  | provision hprovisions =>
    rcases getElem?_insert_eq_some.mp hrecord with ⟨-, rfl⟩ | ⟨-, hrecord⟩
    · exact absurd (hprovisions.fresh.2.1.symm.trans hring) (by simp)
    rcases getElem?_insert_eq_some.mp hrecord' with ⟨-, rfl⟩ | ⟨-, hrecord'⟩
    · exact absurd (hprovisions.fresh.2.1.symm.trans hring') (by simp)
    exact h.single _ _ _ _ ringId hrecord hrecord' hring hring'
  | edge hedge hadvance =>
    rcases getElem?_insert_eq_some.mp hrecord with ⟨rfl, rfl⟩ | ⟨hne, hrecord⟩
    · rcases getElem?_insert_eq_some.mp hrecord' with ⟨rfl, rfl⟩ | ⟨-, hrecord'⟩
      · rfl
      · have hheld := (hadvance.ringId hring).resolve_right (hold _ _ hrecord' hring')
        exact h.single _ _ _ _ ringId hedge hrecord' hheld hring'
    · rcases getElem?_insert_eq_some.mp hrecord' with ⟨rfl, rfl⟩ | ⟨-, hrecord'⟩
      · have hheld := (hadvance.ringId hring').resolve_right (hold _ _ hrecord hring)
        exact h.single _ _ _ _ ringId hrecord hedge hring hheld
      · exact h.single _ _ _ _ ringId hrecord hrecord' hring hring'

omit hfresh in
theorem heard_concat
    (hrecord : ((run localNodeId past).observe event).records[edgeId]? = some record)
    (hring : record.ringId = some ringId) {proof : EdgeEvent}
    (hmem : proof ∈ record.marks edgeId ringId) :
    Proven localNodeId (past ++ [event]) edgeId ringId proof := by
  rw [proven_concat]
  rcases record_observe_of_ring hrecord hring with hold | ⟨before, outcome, hedge, hadvance, rfl⟩
  · exact .inl (h.heard edgeId record ringId hold hring proof hmem)
  · obtain ⟨hheld, hmarked | ⟨hevent, hstate⟩⟩ := hadvance.marks (h.sound _ _ hedge) hring hmem
    · exact .inl (h.heard _ _ ringId hedge hheld proof hmarked)
    · exact .inr ⟨hevent, _, hedge, hstate, hheld⟩

variable {command : EdgeCommand}

theorem released_concat (hmem : command ∈ ((run localNodeId past).observe event).commands)
    (hreleases : command.releases ringId = true) :
    ringId ∈ grantedRings (past ++ [event]) ∧
      ((run localNodeId past).observe event).Retired ringId := by
  obtain ⟨commands, hcommands⟩ := commands_observe (run localNodeId past) event
  rw [hcommands] at hmem
  rw [mem_grantedRings_concat]
  rcases mem_append.mp hmem with hmem | hmem
  · obtain ⟨hgranted, hretired⟩ := h.released ringId command hmem hreleases
    exact ⟨.inl hgranted, (hretired.observe h.sound (hfresh ringId hgranted)).1⟩
  · obtain ⟨-, ⟨hleased, hrecords⟩ | ⟨edgeId, record, hrecord, hring, hstate, -⟩⟩ :=
      released_observe h.sound hcommands hmem hreleases
    · refine ⟨.inr hleased, fun edgeId record hrecord hring => ?_⟩
      rw [hrecords] at hrecord
      exact absurd hleased (hfresh ringId (h.granted edgeId record ringId hrecord hring))
    · refine ⟨mem_grantedRings_concat.mp (h.granted_concat hrecord hring), ?_⟩
      intro edgeId' record' hrecord' hring'
      obtain rfl := h.single_concat hfresh hrecord hrecord' hring hring'
      obtain rfl := Option.some.inj (hrecord.symm.trans hrecord')
      exact hstate

theorem once_concat (ringId : ℕ) :
    ((run localNodeId past).observe event).commands.countP (releases ringId) ≤ 1 := by
  obtain ⟨commands, hcommands⟩ := commands_observe (run localNodeId past) event
  rw [hcommands, countP_append]
  by_cases hnow : ∃ command ∈ commands, command.releases ringId = true
  · obtain ⟨command, hmem, hreleases⟩ := hnow
    obtain ⟨hall, -⟩ := released_observe h.sound hcommands hmem hreleases
    have hbefore : (run localNodeId past).commands.countP (releases ringId) = 0 := by
      rw [countP_eq_zero]
      intro earlier hearlier hreleased
      obtain ⟨hgranted, hretired⟩ := h.released ringId earlier hearlier hreleased
      obtain ⟨-, commands', hcommands', hnone⟩ :=
        hretired.observe h.sound (hfresh ringId hgranted)
      obtain rfl := append_cancel_left (hcommands.symm.trans hcommands')
      exact hnone command hmem (ring_of_releases hreleases)
    rw [hbefore, hall]
    simp [releases]
  · have hnone : commands.countP (releases ringId) = 0 := by
      rw [countP_eq_zero]
      exact fun command hmem hreleases => hnow ⟨command, hmem, hreleases⟩
    have := h.once ringId
    omega

variable {P : EdgeRecord → Prop} {proofs : List EdgeEvent}

/-- A ring stays bound if steps of its edge keep `P`, under which a teardown has all proofs. -/
theorem bound_concat (hbound : Bound P proofs localNodeId past edgeId ringId)
    (hP : ∀ before outcome, Advance edgeId before event outcome → P before → P outcome.record)
    (hmarks : ∀ record : EdgeRecord, record.Sound → record.ringId ≠ none → P record →
      record.teardownQuiesced = true → proofs ⊆ record.marks edgeId ringId) :
    Bound P proofs localNodeId (past ++ [event]) edgeId ringId := by
  have hold := hfresh ringId hbound.granted
  have hheld (edgeId' : ℕ) (record : EdgeRecord)
      (hrecord : ((run localNodeId past).observe event).records[edgeId']? = some record)
      (hring : record.ringId = some ringId) : edgeId' = edgeId ∧ P record := by
    rcases record_observe_of_ring hrecord hring with hkept | ⟨before, outcome, hedge, hadvance, rfl⟩
    · exact hbound.held edgeId' record hkept hring
    · obtain ⟨rfl, hbefore⟩ :=
        hbound.held _ _ hedge ((hadvance.ringId hring).resolve_right hold)
      exact ⟨rfl, hP before outcome hadvance hbefore⟩
  refine ⟨mem_grantedRings_concat.mpr (.inl hbound.granted), ?_, ?_⟩ <;> rw [run_concat]
  · exact hheld
  intro command hmem hreleases proof hproof
  obtain ⟨commands, hcommands⟩ := commands_observe (run localNodeId past) event
  rw [hcommands] at hmem
  rcases mem_append.mp hmem with hmem | hmem
  · exact proven_concat.mpr (.inl (hbound.proven command hmem hreleases proof hproof))
  · obtain ⟨-, ⟨hleased, -⟩ | ⟨edgeId', record, hrecord, hring, -, hquiesced⟩⟩ :=
      released_observe h.sound hcommands hmem hreleases
    · exact absurd hleased hold
    · obtain ⟨rfl, hrecordP⟩ := hheld edgeId' record hrecord hring
      have hsound := h.sound.observe event edgeId' record hrecord
      exact h.heard_concat hrecord hring
        (hmarks record hsound (by simp [hring]) hrecordP hquiesced hproof)

/-- A ring that an edge holds and that has not been given back is bound. -/
theorem bound_of_held
    (hrecord : ((run localNodeId past).observe event).records[edgeId]? = some record)
    (hring : record.ringId = some ringId) (hstate : record.state ≠ .stopped) (hrecordP : P record) :
    Bound P proofs localNodeId (past ++ [event]) edgeId ringId := by
  refine ⟨h.granted_concat hrecord hring, ?_, ?_⟩ <;> rw [run_concat]
  · intro edgeId' other hother hring'
    obtain rfl := h.single_concat hfresh hother hrecord hring' hring
    obtain rfl := Option.some.inj (hrecord.symm.trans hother)
    exact ⟨rfl, hrecordP⟩
  · intro command hmem hreleases
    exact absurd ((h.released_concat hfresh hmem hreleases).2 edgeId record hrecord hring) hstate

theorem handed_concat
    (hhanded : ((run localNodeId past).observe event).Handed edgeId ringId = true) :
    Bound (fun _ => True) (workerProofs ringId) localNodeId (past ++ [event]) edgeId ringId := by
  obtain ⟨commands, hcommands⟩ := commands_observe (run localNodeId past) event
  rw [Handed, hcommands, any_append, Bool.or_eq_true] at hhanded
  rcases hhanded with hhanded | hhanded
  · exact h.bound_concat hfresh (h.handed edgeId ringId hhanded) (fun _ _ _ _ => trivial)
      fun record hsound hring _ hquiesced => (hsound.marks_of_quiesced hring hquiesced _ _).1
  · obtain ⟨command, hmem, hinstalls⟩ := any_eq_true.mp hhanded
    obtain ⟨record, hrecord, hstate, hring⟩ :=
      installs_observe h.sound hcommands hmem hinstalls
    exact h.bound_of_held hfresh hrecord hring (by simp [hstate]) trivial

theorem installed_step (hinstalled : Installed localNodeId (past ++ [event]) edgeId ringId) :
    Bound (fun record => record.driverEstablished = true) (teardownProofs edgeId ringId)
      localNodeId (past ++ [event]) edgeId ringId := by
  rcases installed_concat.mp hinstalled with hinstalled | ⟨rfl, hawaits⟩
  · exact h.bound_concat hfresh (h.installed edgeId ringId hinstalled)
      (fun _ _ hadvance => hadvance.driverEstablished)
      fun record hsound hring hdriver hquiesced =>
        (hsound.marks_of_quiesced hring hquiesced _ _).2 hdriver
  · obtain ⟨record, layout, heq, hrecord⟩ := ringInstalled_of_awaits h.sound hawaits
    obtain ⟨record', hrecord', -, hring⟩ := hawaits
    obtain rfl := Option.some.inj (hrecord.symm.trans hrecord')
    have hafter :
        ((run localNodeId past).observe (.ringInstalled edgeId ringId)).records[edgeId]? =
          some { record with
            workerInstalled := true
            driverEstablished := true
            state := .waitingForDriver } := by
      rw [observe, heq, getElem_apply]
    exact h.bound_of_held hfresh hafter hring (by simp) rfl

theorem concat : Accounted localNodeId (past ++ [event]) := by
  constructor <;> try simp only [run_concat]
  · exact h.sound.observe event
  · exact fun _ _ _ => h.granted_concat
  · exact fun _ _ _ _ _ => h.single_concat hfresh
  · exact fun _ _ _ hrecord hring _ => h.heard_concat hrecord hring
  · exact fun _ _ => h.released_concat hfresh
  · exact h.once_concat hfresh
  · exact fun _ _ => h.handed_concat hfresh
  · exact fun _ _ => h.installed_step hfresh

end Accounted

variable {before after : List EdgeEvent}

theorem grantedRings_append (before after : List EdgeEvent) :
    grantedRings (before ++ after) = grantedRings before ++ grantedRings after :=
  filterMap_append

theorem nodup_grantedRings_of_append (hrings : (grantedRings (before ++ after)).Nodup) :
    (grantedRings before).Nodup := by
  rw [grantedRings_append] at hrings
  exact hrings.of_append_left

theorem leased_ne_of_mem (hrings : (grantedRings (past ++ [event])).Nodup)
    (hgranted : ringId ∈ grantedRings past) : event.leasedRing? ≠ some ringId := by
  rw [grantedRings_append, nodup_append'] at hrings
  exact fun hleased => hrings.2.2 hgranted (by simp [grantedRings, hleased])

/-- The history of every run in which no ring is granted twice. -/
theorem accounted (localNodeId : ℕ) {past : List EdgeEvent} (hrings : (grantedRings past).Nodup) :
    Accounted localNodeId past := by
  induction past using reverseRecOn with
  | nil => exact accounted_nil localNodeId
  | append_singleton past event ih =>
    exact (ih (nodup_grantedRings_of_append hrings)).concat fun _ => leased_ne_of_mem hrings

/-- A ring that was granted and retired stays retired, and nothing is asked for it. -/
theorem Retired.run (hrings : (grantedRings (before ++ after)).Nodup)
    (hgranted : ringId ∈ grantedRings before) (hretired : (run localNodeId before).Retired ringId) :
    (run localNodeId (before ++ after)).Retired ringId ∧
      Grown (fun command => command.ring? ≠ some ringId) (run localNodeId before).commands
        (run localNodeId (before ++ after)).commands := by
  induction after using reverseRecOn with
  | nil =>
    rw [append_nil]
    exact ⟨hretired, .refl _⟩
  | append_singleton after event ih =>
    rw [← append_assoc] at hrings ⊢
    have hrings' := nodup_grantedRings_of_append hrings
    obtain ⟨hmid, hcommands⟩ := ih hrings'
    have hold : event.leasedRing? ≠ some ringId := by
      apply leased_ne_of_mem hrings
      rw [grantedRings_append]
      exact mem_append_left _ hgranted
    obtain ⟨hend, hcommands'⟩ := hmid.observe (accounted localNodeId hrings').sound hold
    rw [run_concat]
    exact ⟨hend, hcommands.trans hcommands'⟩

theorem localNodeId_run (localNodeId : ℕ) (past : List EdgeEvent) :
    (run localNodeId past).localNodeId = localNodeId := by
  induction past using reverseRecOn with
  | nil => rfl
  | append_singleton past event ih => rw [run_concat, localNodeId_observe, ih]

theorem sound_run (localNodeId : ℕ) (past : List EdgeEvent) : (run localNodeId past).Sound := by
  induction past using reverseRecOn with
  | nil => exact (accounted_nil localNodeId).sound
  | append_singleton past event ih =>
    rw [run_concat]
    exact ih.observe event

/-- An edge that has stopped stays as it is until it is provisioned anew. -/
theorem run_of_stopped (hrecord : (run localNodeId before).records[edgeId]? = some record)
    (hstopped : record.state = .stopped)
    (hnew : ∀ event ∈ after, event.provisionedEdge? localNodeId ≠ some edgeId) :
    (run localNodeId (before ++ after)).records[edgeId]? = some record ∧
      Grown (fun command => command.edge? ≠ some edgeId) (run localNodeId before).commands
        (run localNodeId (before ++ after)).commands ∧
      Grown (fun told => ∀ actor, told ≠ .edgeReady edgeId actor) (run localNodeId before).events
        (run localNodeId (before ++ after)).events := by
  induction after using reverseRecOn with
  | nil =>
    rw [append_nil]
    exact ⟨hrecord, .refl _, .refl _⟩
  | append_singleton after event ih =>
    obtain ⟨hafter, hevent⟩ := forall_mem_append.mp hnew
    obtain ⟨hmid, hcommands, hevents⟩ := ih hafter
    have hevent' : event.provisionedEdge? (run localNodeId (before ++ after)).localNodeId ≠
        some edgeId := by
      rw [localNodeId_run]
      exact hevent event mem_cons_self
    obtain ⟨hend, hcommands', hevents'⟩ :=
      observe_of_stopped (sound_run localNodeId (before ++ after)) hmid hstopped hevent'
    rw [← append_assoc, run_concat]
    exact ⟨hend, hcommands.trans hcommands', hevents.trans hevents'⟩

/-- In a run in which no ring is granted twice, a ring is given back at most once. If the worker
was asked to install it, this comes after the proofs that the worker let go of it and that it is
quiescent, and if its installation was reported to the waiting edge, also after the proof that the
pump stopped, each of which arrived during the teardown of this edge. After an edge has stopped,
nothing is asked for its ring, and until the edge is provisioned anew nothing is asked for the
edge and it does not become ready. -/
theorem rings_recycled_unused (localNodeId : ℕ) (past : List EdgeEvent)
    (hrings : (grantedRings past).Nodup) :
    (∀ ringId, (run localNodeId past).commands.countP (releases ringId) ≤ 1) ∧
    (∀ edgeId ringId, Installed localNodeId past edgeId ringId →
      ∀ command ∈ (run localNodeId past).commands, command.releases ringId = true →
        ∀ proof ∈ teardownProofs edgeId ringId, Proven localNodeId past edgeId ringId proof) ∧
    (∀ edgeId ringId, (run localNodeId past).Handed edgeId ringId = true →
      ∀ command ∈ (run localNodeId past).commands, command.releases ringId = true →
        ∀ proof ∈ workerProofs ringId, Proven localNodeId past edgeId ringId proof) ∧
    ∀ (before after : List EdgeEvent) (edgeId : ℕ) (record : EdgeRecord),
      past = before ++ after → (run localNodeId before).records[edgeId]? = some record →
      record.state = .stopped →
      (∀ ringId, record.ringId = some ringId →
        ∃ commands, (run localNodeId past).commands =
          (run localNodeId before).commands ++ commands ∧
          ∀ command ∈ commands, command.ring? ≠ some ringId) ∧
      ((∀ event ∈ after, event.provisionedEdge? localNodeId ≠ some edgeId) →
        (run localNodeId past).records[edgeId]? = some record ∧
          (∃ commands, (run localNodeId past).commands =
            (run localNodeId before).commands ++ commands ∧
            ∀ command ∈ commands, command.edge? ≠ some edgeId) ∧
          ∃ events, (run localNodeId past).events = (run localNodeId before).events ++ events ∧
            ∀ actor, edgeReady edgeId actor ∉ events) := by
  have haccounted := accounted localNodeId hrings
  refine ⟨haccounted.once, fun edgeId ringId hinstalled =>
    (haccounted.installed edgeId ringId hinstalled).proven, fun edgeId ringId hhanded =>
    (haccounted.handed edgeId ringId hhanded).proven, ?_⟩
  rintro before after edgeId record rfl hrecord hstopped
  refine ⟨fun ringId hring => ?_, fun hnew => ?_⟩
  · have haccounted := accounted localNodeId (nodup_grantedRings_of_append hrings)
    have hretired : (run localNodeId before).Retired ringId := by
      intro edgeId' record' hrecord' hring'
      obtain rfl := haccounted.single _ _ _ _ ringId hrecord hrecord' hring hring'
      obtain rfl := Option.some.inj (hrecord.symm.trans hrecord')
      exact hstopped
    exact (hretired.run hrings (haccounted.granted edgeId record ringId hrecord hring)).2
  · obtain ⟨hkept, hcommands, events, hevents, hready⟩ := run_of_stopped hrecord hstopped hnew
    exact ⟨hkept, hcommands, events, hevents, fun actor hmem => hready _ hmem actor rfl⟩

/-- Edge 7 is provisioned at node 1. -/
def provisionSeven : EdgeEvent :=
  .provisionTx ⟨7, 1, 2, ⟨.activation, .f16, 4096⟩, ⟨128, 4096, 64⟩⟩

/-- The layout of ring 5. -/
def ringFive : RingLayout := ⟨0, 0, 128, 4224, 4096, 64⟩

/-- An edge that becomes ready, is stopped and torn down. -/
def orderlyTeardown : List EdgeEvent :=
  [provisionSeven, .ringLeased 1 5 ringFive, .ringInstalled 7 5, .driverEdgeReady 7, .stopEdge 7,
    .quiescenceProven 5, .pumpStopped 7 5, .ringQuiesced 5]

/-- The installation of the ring is reported after the edge was stopped. -/
def lateInstallation : List EdgeEvent :=
  [provisionSeven, .ringLeased 1 5 ringFive, .stopEdge 7, .ringInstalled 7 5, .ringQuiesced 5,
    .quiescenceProven 5]

theorem rings_recycled_unused_orderly :
    ((grantedRings orderlyTeardown).Nodup ∧ Installed 1 orderlyTeardown 7 5 ∧
      .releaseArenaLease 5 true ∈ (run 1 orderlyTeardown).commands ∧
      ∀ proof ∈ teardownProofs 7 5, Proven 1 orderlyTeardown 7 5 proof) ∧
    (grantedRings lateInstallation).Nodup ∧ (run 1 lateInstallation).Handed 7 5 = true ∧
      .releaseArenaLease 5 true ∈ (run 1 lateInstallation).commands ∧
      ∀ proof ∈ workerProofs 5, Proven 1 lateInstallation 7 5 proof := by
  have hrings : (grantedRings orderlyTeardown).Nodup := by decide
  have hrings' : (grantedRings lateInstallation).Nodup := by decide
  have hinstalled : Installed 1 orderlyTeardown 7 5 := by decide +kernel
  have hhanded : (run 1 lateInstallation).Handed 7 5 = true := by decide +kernel
  have hreleased : .releaseArenaLease 5 true ∈ (run 1 orderlyTeardown).commands := by
    decide +kernel
  have hreleased' : .releaseArenaLease 5 true ∈ (run 1 lateInstallation).commands := by
    decide +kernel
  refine ⟨⟨hrings, hinstalled, hreleased, ?_⟩, hrings', hhanded, hreleased', ?_⟩
  · exact (rings_recycled_unused 1 orderlyTeardown hrings).2.1 7 5 hinstalled _ hreleased rfl
  · exact (rings_recycled_unused 1 lateInstallation hrings').2.2.1 7 5 hhanded _ hreleased' rfl

/-- An edge that has stopped is provisioned anew. -/
def provisionedAgain : List EdgeEvent :=
  [provisionSeven, .stopEdge 7, provisionSeven, .ringLeased 2 5 ringFive, .ringInstalled 7 5,
    .driverEdgeReady 7]

/-- A ring whose installation is reported during the teardown is released without the proof
that the pump stopped, and an edge that has stopped becomes ready when it is provisioned
anew. -/
theorem late_installation_released :
    ((grantedRings lateInstallation).Nodup ∧ .ringInstalled 7 5 ∈ lateInstallation ∧
      .releaseArenaLease 5 true ∈ (run 1 lateInstallation).commands ∧
      .pumpStopped 7 5 ∉ lateInstallation) ∧
    (grantedRings provisionedAgain).Nodup ∧
      ((run 1 (provisionedAgain.take 2)).records[7]?.map state) = some .stopped ∧
      .edgeReady 7 2 ∈ (run 1 provisionedAgain).events := by
  decide +kernel

end EdgeEstablisher

end Swactor.DataPlane.Edge
