import Swactor.DataPlane.ArenaPartition
import Swactor.DataPlane.EdgeRuntime

/-!
# The leases of edges

As long as no edge with a ring faults, and no edge is provisioned anew while it has a ring or
its lease request is still to be executed, every live lease of the arena belongs to the record
of its edge, and the edges that faulted have none. The executor gives no ring back in such a
run. The two runs at the end show what happens otherwise.
-/
namespace Swactor.DataPlane.Edge

open Machine Maps EdgeRecord EdgeRuntime List
open Std (ExtTreeMap)

/-- The request and the edge of a lease command. -/
def EdgeCommand.request? : EdgeCommand → Option (ℕ × ℕ)
  | .leaseRing requestId edgeId .. => some (requestId, edgeId)
  | _ => none

/-- The lease requests among the commands. -/
def leaseRequests (commands : List EdgeCommand) : List (ℕ × ℕ) :=
  commands.filterMap EdgeCommand.request?

/-- The request that an event answers. -/
def EdgeEvent.request? : EdgeEvent → Option ℕ
  | .ringLeased requestId .. => some requestId
  | .ringLeaseRejected requestId _ => some requestId
  | _ => none

/-- The edge that an event takes down. -/
def EdgeEvent.haltedEdge? : EdgeEvent → Option ℕ
  | .streamFault edgeId _ => some edgeId
  | .ringFault edgeId .. => some edgeId
  | .stopEdge edgeId => some edgeId
  | .stopped edgeId => some edgeId
  | _ => none

/-- A record has a ring exactly from its grant to its teardown, and none is torn down. -/
def EdgeRecord.Calm (record : EdgeRecord) : Prop :=
  match record.state with
  | .waitingForLease | .failed | .stopped => record.ringId = none
  | .waitingForWorkerRing | .waitingForDriver | .ready => record.ringId ≠ none
  | .stopping => False

attribute [local simp] EdgeRecord.Calm

/-- What one event does to a calm record that it does not take down with its ring. -/
theorem Advance.calm {edgeId : ℕ} {record : EdgeRecord} {event : EdgeEvent} {outcome : Outcome}
    (h : Advance edgeId record event outcome) (hcalm : record.Calm)
    (hhalted : event.haltedEdge? = some edgeId → record.ringId = none) :
    outcome.record.Calm ∧ outcome.record.leaseRequestId = record.leaseRequestId ∧
      (record.ringId ≠ none → outcome.record.ringId = record.ringId) ∧
      leaseRequests outcome.commands = [] ∧
      ∀ command ∈ outcome.commands, ∀ ringId, command.releases ringId = false := by
  cases h with
  | leased requestId ringId layout hstate =>
    have hring : record.ringId = none := by simpa [hstate] using hcalm
    refine ⟨?_, rfl, fun hne => absurd hring hne, rfl, ?_⟩
    · simp
    · simp [EdgeCommand.releases]
  | rejected requestId reason hstate =>
    have hring : record.ringId = none := by simpa [hstate] using hcalm
    exact ⟨hring, rfl, fun _ => rfl, rfl, (by simp)⟩
  | installed ringId layout hstate hring =>
    refine ⟨by simp [hring], rfl, fun _ => rfl, ?_, fun command hmem =>
      EdgeCommand.releases_eq_false (EdgeRecord.mem_establish hmem).2⟩
    unfold EdgeRecord.establish
    cases record.direction <;> cases record.peerNodeId <;> rfl
  | ready hstate =>
    have hring : record.ringId ≠ none := by simpa [hstate] using hcalm
    exact ⟨hring, rfl, fun _ => rfl, rfl, (by simp)⟩
  | @stop _ faults hhalts =>
    have hring : record.ringId = none := by
      apply hhalted
      cases hhalts <;> rfl
    have hstop : record.stop edgeId faults = ⟨{ record with state := .stopped },
        record.cancel edgeId, faults ++ [.edgeStopped edgeId]⟩ := by
      simp [EdgeRecord.stop, hring]
    rw [hstop]
    refine ⟨hring, rfl, fun _ => rfl, ?_, ?_⟩
    · unfold EdgeRecord.cancel
      cases record.leaseRequestId <;> rfl
    · intro command hmem ringId
      obtain ⟨requestId, -, rfl⟩ := mem_map.mp hmem
      rfl
  | pumpStopped ringId hstate | ringQuiesced ringId hstate | quiescenceProven ringId hstate =>
    simp [hstate] at hcalm
  | markStopped => exact ⟨hhalted rfl, rfl, fun _ => rfl, rfl, (by simp)⟩

namespace EdgeEstablisher

/-- What the commands that are still to be executed and the records say about each other. -/
structure Steady (due : List EdgeCommand) (s : EdgeEstablisher) : Prop where
  calm : ∀ (edgeId : ℕ) (record : EdgeRecord), s.records[edgeId]? = some record → record.Calm
  bounded : ∀ (edgeId : ℕ) (record : EdgeRecord) (requestId : ℕ),
    s.records[edgeId]? = some record → record.leaseRequestId = some requestId →
      requestId < s.nextRequestId
  single : ∀ (edgeId edgeId' : ℕ) (record record' : EdgeRecord) (requestId : ℕ),
    s.records[edgeId]? = some record → s.records[edgeId']? = some record' →
      record.leaseRequestId = some requestId → record'.leaseRequestId = some requestId →
      edgeId = edgeId'
  waits : ∀ requestId edgeId, (requestId, edgeId) ∈ leaseRequests due →
    ∃ record, s.records[edgeId]? = some record ∧ record.state = .waitingForLease ∧
      record.leaseRequestId = some requestId
  distinct : (leaseRequests due).Nodup
  unreleased : ∀ command ∈ due, ∀ ringId, command.releases ringId = false

/-- Every ring stays with the record of its request. -/
def Keeps (s s' : EdgeEstablisher) : Prop :=
  ∀ (edgeId : ℕ) (record : EdgeRecord), s.records[edgeId]? = some record → record.ringId ≠ none →
    ∃ record', s'.records[edgeId]? = some record' ∧ record'.ringId = record.ringId ∧
      record'.leaseRequestId = record.leaseRequestId

variable {s' : EdgeEstablisher}

theorem keeps_of_records {s : EdgeEstablisher} (h : s'.records = s.records) : s.Keeps s' :=
  fun _ record hrecord _ => ⟨record, h ▸ hrecord, rfl, rfl⟩

variable {due : List EdgeCommand} {s : EdgeEstablisher}

variable {command : EdgeCommand} {event : EdgeEvent} {edgeId : ℕ} {record : EdgeRecord}

theorem Steady.tail (h : Steady (command :: due) s) : Steady due s := by
  have hsub : (leaseRequests due).Sublist (leaseRequests (command :: due)) :=
    (sublist_cons_self command due).filterMap _
  exact ⟨h.calm, h.bounded, h.single, fun q e hmem => h.waits q e (hsub.mem hmem),
    h.distinct.sublist hsub, fun c hmem => h.unreleased c (mem_cons_of_mem _ hmem)⟩

/-- A record may be put in place of one that has no lease request to execute, if its own request
is no other record's. -/
theorem Steady.insert (h : Steady due s) (hrecords : s'.records = s.records.insert edgeId record)
    (hnext : s.nextRequestId ≤ s'.nextRequestId) (hcalm : record.Calm)
    (hrequest : ∀ requestId, record.leaseRequestId = some requestId → requestId < s'.nextRequestId ∧
      ∀ (edgeId' : ℕ) (record' : EdgeRecord), s.records[edgeId']? = some record' →
      record'.leaseRequestId = some requestId → edgeId' = edgeId)
    (hdue : ∀ requestId, (requestId, edgeId) ∉ leaseRequests due) : Steady due s' := by
  have hlookup {edgeId' : ℕ} {record' : EdgeRecord} (h' : s'.records[edgeId']? = some record') :
      edgeId = edgeId' ∧ record = record' ∨
        edgeId ≠ edgeId' ∧ s.records[edgeId']? = some record' := by
    rw [hrecords] at h'
    exact getElem?_insert_eq_some.mp h'
  refine ⟨?_, ?_, ?_, ?_, h.distinct, h.unreleased⟩
  · intro edgeId' record' hrecord'
    rcases hlookup hrecord' with ⟨-, rfl⟩ | ⟨-, hrecord'⟩
    · exact hcalm
    · exact h.calm edgeId' record' hrecord'
  · intro edgeId' record' requestId hrecord' hrequest'
    rcases hlookup hrecord' with ⟨-, rfl⟩ | ⟨-, hrecord'⟩
    · exact (hrequest requestId hrequest').1
    · exact (h.bounded edgeId' record' requestId hrecord' hrequest').trans_le hnext
  · intro edgeId' edgeId'' record' record'' requestId hrecord' hrecord'' hrequest' hrequest''
    rcases hlookup hrecord' with ⟨rfl, rfl⟩ | ⟨-, hrecord'⟩ <;>
      rcases hlookup hrecord'' with ⟨rfl, rfl⟩ | ⟨-, hrecord''⟩
    · rfl
    · exact ((hrequest requestId hrequest').2 edgeId'' record'' hrecord'' hrequest'').symm
    · exact (hrequest requestId hrequest'').2 edgeId' record' hrecord' hrequest'
    · exact h.single _ _ _ _ requestId hrecord' hrecord'' hrequest' hrequest''
  · intro requestId edgeId' hmem
    obtain ⟨record', hrecord', hwaiting⟩ := h.waits requestId edgeId' hmem
    refine ⟨record', ?_, hwaiting⟩
    rw [hrecords]
    refine getElem?_insert_eq_some.mpr (.inr ⟨?_, hrecord'⟩)
    rintro rfl
    exact hdue requestId hmem

theorem keeps_insert (hrecords : s'.records = s.records.insert edgeId record)
    (h : ∀ old : EdgeRecord, s.records[edgeId]? = some old → old.ringId ≠ none →
      record.ringId = old.ringId ∧ record.leaseRequestId = old.leaseRequestId) :
    s.Keeps s' := by
  intro edgeId' record' hrecord' hne
  rw [hrecords]
  by_cases heq : edgeId = edgeId'
  · subst heq
    exact ⟨record, getElem?_insert_eq_some.mpr (.inl ⟨rfl, rfl⟩), h record' hrecord' hne⟩
  · exact ⟨record', getElem?_insert_eq_some.mpr (.inr ⟨heq, hrecord'⟩), rfl, rfl⟩

/-- More commands that are neither lease requests nor releases. -/
theorem Steady.append (h : Steady due s) {commands : List EdgeCommand}
    (hnone : leaseRequests commands = [])
    (hunreleased : ∀ command ∈ commands, ∀ ringId, command.releases ringId = false) :
    Steady (due ++ commands) s := by
  have heq : leaseRequests (due ++ commands) = leaseRequests due := by
    rw [leaseRequests, filterMap_append]
    exact (congrArg (leaseRequests due ++ ·) hnone).trans (append_nil _)
  refine ⟨h.calm, h.bounded, h.single, ?_, ?_, forall_mem_append.mpr
    ⟨h.unreleased, hunreleased⟩⟩
  · rw [heq]
    exact h.waits
  · rw [heq]
    exact h.distinct

/-- An event that fits the commands still to be executed: it provisions nothing, takes down no
edge with a ring or with its lease request still due, and answers no request that is due or
whose edge does not wait. -/
structure Tame (due : List EdgeCommand) (s : EdgeEstablisher) (event : EdgeEvent) : Prop where
  provisioned : event.provisionedEdge? s.localNodeId = none
  halted : ∀ (edgeId : ℕ) (record : EdgeRecord), event.haltedEdge? = some edgeId →
    s.records[edgeId]? = some record → record.ringId = none
  served : event.haltedEdge? ≠ none → leaseRequests due = []
  request : ∀ requestId, event.request? = some requestId →
    ∀ edgeId, (requestId, edgeId) ∉ leaseRequests due
  waiting : ∀ (requestId edgeId : ℕ) (record : EdgeRecord), event.request? = some requestId →
    s.records[edgeId]? = some record → record.leaseRequestId = some requestId →
    record.state = .waitingForLease

/-- An event that is neither a provisioning, nor an answer of the arena, nor the end of an
edge. -/
theorem tame_of_none (hprovisioned : event.provisionedEdge? s.localNodeId = none)
    (hhalted : event.haltedEdge? = none) (hrequest : event.request? = none) : Tame due s event where
  provisioned := hprovisioned
  halted := by simp [hhalted]
  served := fun h => absurd hhalted h
  request := by simp [hrequest]
  waiting := by simp [hrequest]

/-- The edge that an event moves out of waiting has no lease request left to execute. -/
theorem Tame.notMem_of_advance (htame : Tame due s event) (h : Steady due s) {outcome : Outcome}
    (hrecord : s.records[edgeId]? = some record) (hadvance : Advance edgeId record event outcome)
    (requestId : ℕ) : (requestId, edgeId) ∉ leaseRequests due := by
  intro hmem
  obtain ⟨record', hrecord', hstate', hrequest'⟩ := h.waits requestId edgeId hmem
  obtain rfl := Option.some.inj (hrecord.symm.trans hrecord')
  have hserved : event.haltedEdge? ≠ none → False := by
    intro hhalted
    rw [htame.served hhalted] at hmem
    cases hmem
  cases hadvance with
  | leased requestId' ringId layout hstate hrequest
  | rejected requestId' reason hstate hrequest =>
    obtain rfl := Option.some.inj (hrequest.symm.trans hrequest')
    exact htame.request requestId' rfl edgeId hmem
  | installed ringId layout hstate | ready hstate | pumpStopped ringId hstate
  | ringQuiesced ringId hstate | quiescenceProven ringId hstate =>
    exact absurd (hstate.symm.trans hstate') (by decide)
  | stop hhalts => cases hhalts <;> exact hserved (by simp [EdgeEvent.haltedEdge?])
  | markStopped => exact hserved (by simp [EdgeEvent.haltedEdge?])

theorem Steady.observe (h : Steady due s) (htame : Tame due s event) :
    s.Keeps (s.observe event) ∧ ∃ commands,
      (s.observe event).commands = s.commands ++ commands ∧ leaseRequests commands = [] ∧
        Steady (due ++ commands) (s.observe event) := by
  have htransition := transition_observe s event
  generalize s.observe event = s' at htransition ⊢
  cases htransition with
  | skip =>
    refine ⟨keeps_of_records rfl, [], (append_nil _).symm, rfl, ?_⟩
    rwa [append_nil]
  | provision hprovisions =>
    have hprovisioned := hprovisions.fresh.2.2.2.2
    rw [htame.provisioned] at hprovisioned
    cases hprovisioned
  | lateGrant hevent hrecord hrequest hstate =>
    exact absurd (htame.waiting _ _ _ (by rw [hevent]; rfl) hrecord hrequest) hstate
  | @edge edgeId record outcome hrecord hadvance =>
    obtain ⟨hcalm, hrequest, hring, hnone, hunreleased⟩ := hadvance.calm (h.calm _ _ hrecord)
      fun hhalted => htame.halted _ _ hhalted hrecord
    have hinserted : Steady due (s.apply edgeId outcome) := by
      refine h.insert rfl le_rfl hcalm (fun requestId hasked => ?_)
        (htame.notMem_of_advance h hrecord hadvance)
      rw [hrequest] at hasked
      exact ⟨h.bounded edgeId record requestId hrecord hasked, fun _ _ hrecord' hasked' =>
        h.single _ _ _ _ requestId hrecord' hrecord hasked' hasked⟩
    refine ⟨keeps_insert rfl fun old hold hne => ?_, outcome.commands, rfl, hnone,
      hinserted.append hnone hunreleased⟩
    obtain rfl := Option.some.inj (hrecord.symm.trans hold)
    exact ⟨hring hne, hrequest⟩

theorem Provisions.asks (h : Provisions s edgeId record event command) :
    command.request? = some (s.nextRequestId, edgeId) ∧
      record.leaseRequestId = some s.nextRequestId ∧ record.state = .waitingForLease := by
  cases h with
  | tx provision hnode hedge hrecord | rx provision hnode hedge hrecord =>
    subst hrecord
    exact ⟨rfl, rfl, rfl⟩

/-- An edge may be provisioned if a record that it replaces has neither a ring nor a lease
request still to be executed. -/
theorem Steady.provision (h : Steady due s) (hid : s.nextRequestId < u64Max)
    (hring : ∀ record : EdgeRecord, s.records[edgeId]? = some record → record.ringId = none)
    (hdue : ∀ requestId, (requestId, edgeId) ∉ leaseRequests due)
    (hprovisions : Provisions s edgeId record event command)
    (hnext : s'.nextRequestId = wrappingAdd s.nextRequestId 1)
    (hrecords : s'.records = s.records.insert edgeId record) :
    s.Keeps s' ∧ Steady (due ++ [command]) s' := by
  obtain ⟨-, hnone, hplain, -⟩ := hprovisions.fresh
  obtain ⟨hasks, hrequest, hstate⟩ := hprovisions.asks
  have hlease : leaseRequests (due ++ [command]) =
      leaseRequests due ++ [(s.nextRequestId, edgeId)] := by
    simp [leaseRequests, hasks]
  have hincreases : s'.nextRequestId = s.nextRequestId + 1 := by
    rw [hnext, wrappingAdd_of_le (by omega)]
  have hinserted : Steady due s' := by
    refine h.insert hrecords (by omega) ?_ (fun requestId hasked => ?_) hdue
    · simpa [hstate] using hnone
    · obtain rfl := Option.some.inj (hrequest.symm.trans hasked)
      refine ⟨by omega, fun edgeId' record' hrecord' hasked' => ?_⟩
      exact absurd (h.bounded edgeId' record' _ hrecord' hasked') (lt_irrefl _)
  refine ⟨keeps_insert hrecords fun old hold hne => absurd (hring old hold) hne,
    hinserted.calm, hinserted.bounded, hinserted.single, ?_, ?_, ?_⟩
  · intro requestId edgeId' hmem
    rw [hlease] at hmem
    rcases mem_append.mp hmem with hmem | hmem
    · exact hinserted.waits requestId edgeId' hmem
    · obtain ⟨rfl, rfl⟩ := Prod.mk.inj (mem_singleton.mp hmem)
      refine ⟨record, ?_, hstate, hrequest⟩
      rw [hrecords]
      exact getElem?_insert_eq_some.mpr (.inl ⟨rfl, rfl⟩)
  · rw [hlease, nodup_append']
    refine ⟨h.distinct, nodup_singleton _, ?_⟩
    rw [disjoint_singleton]
    exact hdue s.nextRequestId
  · refine forall_mem_append.mpr ⟨h.unreleased, ?_⟩
    intro c hmem
    obtain rfl := mem_singleton.mp hmem
    exact EdgeCommand.releases_eq_false hplain

theorem observe_provisioned (h : event.provisionedEdge? s.localNodeId = some edgeId) :
    ∃ record command, Provisions s edgeId record event command ∧
      (s.observe event).nextRequestId = wrappingAdd s.nextRequestId 1 ∧
      (s.observe event).records = s.records.insert edgeId record ∧
      (s.observe event).commands = s.commands ++ [command] := by
  cases event with
  | provisionTx provision =>
    simp only [EdgeEvent.provisionedEdge?, Option.ite_none_right_eq_some, Option.some.injEq] at h
    obtain ⟨hnode, rfl⟩ := h
    simp only [observe, provisionTx, if_neg (not_not.mpr hnode)]
    exact ⟨_, _, .tx provision hnode rfl rfl, rfl, rfl, rfl⟩
  | provisionRx provision =>
    simp only [EdgeEvent.provisionedEdge?, Option.ite_none_right_eq_some, Option.some.injEq] at h
    obtain ⟨hnode, rfl⟩ := h
    simp only [observe, provisionRx, if_neg (not_not.mpr hnode)]
    exact ⟨_, _, .rx provision hnode rfl rfl, rfl, rfl, rfl⟩
  | _ => cases h

theorem findEdge_eq {p : EdgeRecord → Bool} (hrecord : s.records[edgeId]? = some record)
    (hp : p record = true)
    (hsingle : ∀ (edgeId' : ℕ) (record' : EdgeRecord), s.records[edgeId']? = some record' →
      p record' = true → edgeId' = edgeId) : s.findEdge p = some edgeId := by
  cases hfind : s.findEdge p with
  | none =>
    simp only [findEdge, Option.map_eq_none_iff, find?_eq_none] at hfind
    exact absurd hp (hfind (edgeId, record)
      (ExtTreeMap.mem_toList_iff_getElem?_eq_some.mpr hrecord))
  | some edgeId' =>
    obtain ⟨record', hrecord', hp'⟩ := findEdge_eq_some hfind
    rw [hsingle edgeId' record' hrecord' hp']

/-- The grant of a request whose edge waits goes to the record of that edge. -/
theorem Steady.ringLeased (h : Steady due s) {requestId ringId : ℕ} {layout : RingLayout}
    (hrecord : s.records[edgeId]? = some record) (hstate : record.state = .waitingForLease)
    (hrequest : record.leaseRequestId = some requestId) :
    ∃ record', (s.observe (.ringLeased requestId ringId layout)).records[edgeId]? = some record' ∧
      record'.ringId = some ringId ∧ record'.leaseRequestId = some requestId := by
  have hedge : s.edgeForRequest requestId = some edgeId := by
    apply findEdge_eq hrecord (by simpa using hrequest)
    intro edgeId' record' hrecord' hrequest'
    exact h.single _ _ _ _ requestId hrecord' hrecord (of_decide_eq_true hrequest') hrequest
  simp only [EdgeEstablisher.observe, EdgeEstablisher.ringLeased, hedge, hrecord, hstate, ne_eq,
    not_true_eq_false, if_false]
  rw [setRecord_eq_apply, apply_push, getElem_apply]
  exact ⟨_, rfl, rfl, hrequest⟩

end EdgeEstablisher

open EdgeEstablisher

/-- Every live lease is the ring of the record of its request. -/
def Accounts (s : EdgeEstablisher) (arena : ArenaManager) : Prop :=
  ∀ lease ∈ arena.liveOrder, ∃ (edgeId : ℕ) (record : EdgeRecord),
    s.records[edgeId]? = some record ∧ record.ringId = some lease.ringId ∧
      record.leaseRequestId = some lease.requestId

theorem Accounts.keeps {s s' : EdgeEstablisher} {arena : ArenaManager} (h : Accounts s arena)
    (hkeeps : s.Keeps s') : Accounts s' arena := by
  intro lease hlease
  obtain ⟨edgeId, record, hrecord, hring, hrequest⟩ := h lease hlease
  obtain ⟨record', hrecord', hring', hrequest'⟩ := hkeeps edgeId record hrecord (by simp [hring])
  exact ⟨edgeId, record', hrecord', hring'.trans hring, hrequest'.trans hrequest⟩

/-- A runtime that has gone on from `rt`, with the commands that are due behind its cursor. -/
structure Goes (rt : EdgeRuntime) (due : List EdgeCommand) (rt' : EdgeRuntime)
    (arena : ArenaManager) : Prop where
  cursor : rt'.commandCursor = rt.commandCursor
  accounts : Accounts rt'.establisher arena
  pushed : ∃ commands, rt'.establisher.commands = rt.establisher.commands ++ commands ∧
    leaseRequests commands = [] ∧ Steady (due ++ commands) rt'.establisher

namespace EdgeRuntime

variable {rt rt' : EdgeRuntime} {due : List EdgeCommand} {arena : ArenaManager}

theorem goes_same (hsteady : Steady due rt.establisher) (hlive : Accounts rt.establisher arena)
    (hcursor : rt'.commandCursor = rt.commandCursor)
    (hestablisher : rt'.establisher = rt.establisher) : Goes rt due rt' arena := by
  refine ⟨hcursor, hestablisher ▸ hlive, [], ?_, rfl, ?_⟩
  · rw [hestablisher, append_nil]
  · rwa [hestablisher, append_nil]

theorem goes_observe (hsteady : Steady due rt.establisher) (hlive : Accounts rt.establisher arena)
    {event : EdgeEvent} (htame : Tame due rt.establisher event)
    (hcursor : rt'.commandCursor = rt.commandCursor)
    (hestablisher : rt'.establisher = rt.establisher.observe event) : Goes rt due rt' arena := by
  obtain ⟨hkeeps, commands, hcommands, hnone, hsteady'⟩ := hsteady.observe htame
  refine ⟨hcursor, ?_, commands, ?_, hnone, ?_⟩
  · rw [hestablisher]
    exact hlive.keeps hkeeps
  · rw [hestablisher, hcommands]
  · rwa [hestablisher]

/-- The answer to a lease request. -/
theorem goes_leaseRing {requestId edgeId : ℕ} {direction : RingDirection} {ringSpec : RingSpec}
    (hsteady : Steady (.leaseRing requestId edgeId direction ringSpec :: due) rt.establisher)
    (hlive : Accounts rt.establisher arena) :
    Goes rt due ((arena.leaseRing ⟨requestId, ringSpec⟩).2.foldl observeArena rt)
      (arena.leaseRing ⟨requestId, ringSpec⟩).1 := by
  have hmem : (requestId, edgeId) ∈
      leaseRequests (.leaseRing requestId edgeId direction ringSpec :: due) :=
    mem_cons_self
  obtain ⟨record, hrecord, hstate, hrequest⟩ := hsteady.waits requestId edgeId hmem
  have hsingle (edgeId' : ℕ) (record' : EdgeRecord)
      (hrecord' : rt.establisher.records[edgeId']? = some record')
      (hrequest' : record'.leaseRequestId = some requestId) : edgeId' = edgeId :=
    hsteady.single _ _ _ _ requestId hrecord' hrecord hrequest' hrequest
  have hgone (edgeId' : ℕ) : (requestId, edgeId') ∉ leaseRequests due := by
    intro hmem'
    obtain ⟨record', hrecord', -, hrequest'⟩ := hsteady.tail.waits requestId edgeId' hmem'
    obtain rfl := hsingle edgeId' record' hrecord' hrequest'
    exact (nodup_cons.mp hsteady.distinct).1 hmem'
  have htame {event : EdgeEvent} (hevent : event.request? = some requestId)
      (hprovisioned : event.provisionedEdge? rt.establisher.localNodeId = none)
      (hhalted : event.haltedEdge? = none) : Tame due rt.establisher event := by
    refine ⟨hprovisioned, by simp [hhalted], fun h => absurd hhalted h, ?_, ?_⟩
    · intro requestId' hrequest'
      obtain rfl := Option.some.inj (hevent.symm.trans hrequest')
      exact hgone
    · intro requestId' edgeId' record' hrequest' hrecord' hasked
      obtain rfl := Option.some.inj (hevent.symm.trans hrequest')
      obtain rfl := hsingle edgeId' record' hrecord' hasked
      obtain rfl := Option.some.inj (hrecord.symm.trans hrecord')
      exact hstate
  have hsame (arena' : ArenaManager) (hlive' : arena'.liveOrder = arena.liveOrder) :
      Accounts rt.establisher arena' := by
    intro lease hlease
    exact hlive lease (hlive' ▸ hlease)
  rcases arena.leaseRing_cases ⟨requestId, ringSpec⟩ with
    ⟨hlive', hevents | ⟨reason, hevents⟩⟩ | ⟨lease, hlive', hevents, hasked⟩
  · rw [hevents]
    exact goes_same hsteady.tail (hsame _ hlive') rfl rfl
  · have hrejected : Tame due rt.establisher
        (.ringLeaseRejected requestId (leaseRejection reason)) := htame rfl rfl rfl
    rw [hevents]
    exact goes_observe hsteady.tail (hsame _ hlive') hrejected rfl rfl
  · have hleased : Tame due rt.establisher
        (.ringLeased lease.requestId lease.ringId lease.layout) :=
      htame (congrArg some hasked) rfl rfl
    have hgoes : Goes rt due ([ArenaEvent.ringLeased lease].foldl observeArena rt) arena :=
      goes_observe hsteady.tail hlive hleased rfl rfl
    rw [hevents]
    refine ⟨hgoes.cursor, fun lease' hlease' => ?_, hgoes.pushed⟩
    rw [hlive', mem_append, mem_singleton] at hlease'
    rcases hlease' with hlease' | rfl
    · exact hgoes.accounts lease' hlease'
    · obtain ⟨record', hrecord', hring', hrequest'⟩ :=
        hsteady.ringLeased hrecord hstate (hrequest.trans (congrArg some hasked.symm))
      exact ⟨edgeId, record', hrecord', hring', hrequest'⟩

theorem goes_spawnRecv (hsteady : Steady due rt.establisher)
    (hlive : Accounts rt.establisher arena) {rt₀ : EdgeRuntime}
    (hcursor : rt₀.commandCursor = rt.commandCursor)
    (hestablisher : rt₀.establisher = rt.establisher) (edgeId streamId : ℕ) :
    Goes rt due (rt₀.spawnRecv edgeId streamId) arena := by
  have hready : Tame due rt.establisher (.driverEdgeReady edgeId) := tame_of_none rfl rfl rfl
  unfold spawnRecv
  cases rt₀.recvSpecs[edgeId]? with
  | none => exact goes_same hsteady hlive hcursor hestablisher
  | some ringId =>
    exact goes_observe hsteady hlive hready hcursor
      (congrArg (fun s => s.observe (.driverEdgeReady edgeId)) hestablisher)

/-- A command that is executed keeps the accounts. -/
theorem goes_executeCommand {command : EdgeCommand} {answer : Bool} {arena' : ArenaManager}
    (hsteady : Steady (command :: due) rt.establisher) (hlive : Accounts rt.establisher arena)
    (hok : rt.executeCommand arena answer command = .ok (rt', arena')) :
    Goes rt due rt' arena' := by
  cases command with
  | leaseRing requestId edgeId direction ringSpec =>
    obtain ⟨rfl, rfl⟩ := Prod.mk.inj (Except.ok.inj hok)
    exact goes_leaseRing hsteady hlive
  | cancelQueuedLease requestId edgeId =>
    obtain ⟨rfl, rfl⟩ := Prod.mk.inj (Except.ok.inj hok)
    exact goes_same hsteady.tail (fun lease hlease => hlive lease hlease) rfl rfl
  | installWorkerRing edgeId ringId direction layout objectSpec ringSpec =>
    have hinstalled : Tame due rt.establisher (.ringInstalled edgeId ringId) :=
      tame_of_none rfl rfl rfl
    simp only [executeCommand] at hok
    split_ifs at hok
    obtain ⟨rfl, rfl⟩ := Prod.mk.inj (Except.ok.inj hok)
    cases direction <;> exact goes_observe hsteady.tail hlive hinstalled rfl rfl
  | uninstallWorkerRing edgeId ringId =>
    have hquiesced : Tame due rt.establisher (.ringQuiesced ringId) := tame_of_none rfl rfl rfl
    simp only [executeCommand] at hok
    split_ifs at hok
    obtain ⟨rfl, rfl⟩ := Prod.mk.inj (Except.ok.inj hok)
    exact goes_observe hsteady.tail hlive hquiesced rfl rfl
  | establishSend edgeId consumerNodeId layout =>
    have hready : Tame due rt.establisher (.driverEdgeReady edgeId) := tame_of_none rfl rfl rfl
    simp only [executeCommand] at hok
    cases hring : rt.edgeRing edgeId with
    | error error => simp [hring, bind, Except.bind] at hok
    | ok ringId =>
      simp only [hring, bind, Except.bind] at hok
      split_ifs at hok
      obtain ⟨rfl, rfl⟩ := Prod.mk.inj (Except.ok.inj hok)
      exact goes_observe hsteady.tail hlive hready rfl rfl
  | establishRecv edgeId layout =>
    simp only [executeCommand] at hok
    cases hring : rt.edgeRing edgeId with
    | error error => simp [hring, bind, Except.bind] at hok
    | ok ringId =>
      simp only [hring, bind, Except.bind] at hok
      obtain ⟨rfl, rfl⟩ := Prod.mk.inj (Except.ok.inj hok)
      unfold establishRecvWire
      dsimp only
      cases rt.pendingStreams[edgeId]? with
      | none => exact goes_same hsteady.tail hlive rfl rfl
      | some streamId =>
        apply goes_spawnRecv hsteady.tail hlive <;> rfl
  | stopPump edgeId ringId =>
    have hstopped (ringId : ℕ) : Tame due rt.establisher (.pumpStopped edgeId ringId) :=
      tame_of_none rfl rfl rfl
    obtain ⟨rfl, rfl⟩ := Prod.mk.inj (Except.ok.inj hok)
    exact goes_observe hsteady.tail hlive (hstopped _) rfl rfl
  | releaseArenaLease ringId proof =>
    have := hsteady.unreleased _ mem_cons_self ringId
    simp [EdgeCommand.releases] at this

end EdgeRuntime

namespace EdgeNode

/-- What is kept along a run. -/
structure Kept (node : EdgeNode) : Prop where
  steady : Steady node.due node.runtime.establisher
  accounts : Accounts node.runtime.establisher node.arena
  cursor : node.runtime.commandCursor ≤ node.runtime.establisher.commands.length
  served : node.phase = .wireEvents → leaseRequests node.due = []

/-- The edge may be provisioned: request ids last, and no ring and no lease request of an
earlier provisioning would be forgotten. -/
def Provisionable (node : EdgeNode) (localNodeId edgeId : ℕ) : Prop :=
  localNodeId = node.runtime.establisher.localNodeId →
    node.runtime.establisher.nextRequestId < u64Max ∧
      (∀ record ∈ node.runtime.establisher.records[edgeId]?, record.ringId = none) ∧
      ∀ request ∈ leaseRequests node.due, request.2 ≠ edgeId

/-- An edge is provisioned only if no ring and no lease request are forgotten, and a fault hits
no edge that has a ring. -/
def Fair (node : EdgeNode) : EdgeAction → Prop
  | .establishInbound provision => node.Provisionable provision.localNodeId provision.edgeId
  | .establishOutbound provision => node.Provisionable provision.localNodeId provision.edgeId
  | .streamFault (some edgeId) =>
      ∀ record ∈ node.runtime.establisher.records[edgeId]?, record.ringId = none
  | _ => True

instance Provisionable.decidable (node : EdgeNode) (localNodeId edgeId : ℕ) :
    Decidable (node.Provisionable localNodeId edgeId) :=
  inferInstanceAs (Decidable (_ → _ ∧ _ ∧ _))

instance Fair.decidable (node : EdgeNode) : ∀ action, Decidable (node.Fair action)
  | .establishInbound _ | .establishOutbound _ => Provisionable.decidable ..
  | .streamFault (some edgeId) =>
      inferInstanceAs
        (Decidable (∀ record ∈ node.runtime.establisher.records[edgeId]?, record.ringId = none))
  | .poll | .drive _ | .streamArrived .. | .bytesRead _ | .streamFault none | .eventsDrained =>
      inferInstanceAs (Decidable True)

variable {node : EdgeNode}

variable {rt : EdgeRuntime} {arena : ArenaManager}

/-- The runtime has gone on and the cursor has not moved. -/
theorem Kept.goes (h : node.Kept) {phase : Phase} (hgoes : Goes node.runtime node.due rt arena)
    (hphase : phase = .wireEvents → leaseRequests node.due = []) : Kept ⟨rt, arena, phase⟩ := by
  obtain ⟨hcursor, haccounts, commands, hcommands, hnone, hsteady⟩ := hgoes
  have hdue : (⟨rt, arena, phase⟩ : EdgeNode).due = node.due ++ commands := by
    simp only [due, hcursor, hcommands]
    exact drop_append_of_le_length h.cursor
  refine ⟨?_, haccounts, ?_, ?_⟩
  · rwa [hdue]
  · simp only [hcursor, hcommands, length_append]
    exact h.cursor.trans (Nat.le_add_right _ _)
  · intro hwire
    rw [hdue, leaseRequests, filterMap_append]
    exact append_eq_nil_iff.mpr ⟨hphase hwire, hnone⟩

/-- Only the phase and what is beside the establisher have changed. -/
theorem Kept.same (h : node.Kept) {phase : Phase}
    (hcursor : rt.commandCursor = node.runtime.commandCursor)
    (hestablisher : rt.establisher = node.runtime.establisher)
    (hphase : phase = .wireEvents → leaseRequests node.due = []) : Kept ⟨rt, node.arena, phase⟩ :=
  h.goes (goes_same h.steady h.accounts hcursor hestablisher) hphase

theorem Kept.drive (h : node.Kept) (answer : Bool) (hphase : node.phase ≠ .wireEvents) :
    (node.drive answer).Kept := by
  unfold EdgeNode.drive
  dsimp only
  cases hcommand : node.runtime.establisher.commands[node.runtime.commandCursor]? with
  | none =>
    have hlength := getElem?_eq_none_iff.mp hcommand
    have hdue : node.due = [] := drop_eq_nil_of_le hlength
    have hserved : leaseRequests node.due = [] := by rw [hdue]; rfl
    cases node.runtime.establisher.events[node.runtime.lifecycleCursor]? with
    | none => exact h.same rfl rfl fun _ => hserved
    | some event => cases event <;> exact h.same rfl rfl fun _ => hserved
  | some command =>
    obtain ⟨hlength, hget⟩ := List.getElem?_eq_some_iff.mp hcommand
    have hdue : node.due = command ::
        node.runtime.establisher.commands.drop (node.runtime.commandCursor + 1) := by
      rw [due, drop_eq_getElem_cons hlength, hget]
    have hsteady := h.steady
    rw [hdue] at hsteady
    dsimp only
    generalize hrt : ({ node.runtime with
      commandCursor := node.runtime.commandCursor + 1 } : EdgeRuntime) = rt
    have hestablisher : rt.establisher = node.runtime.establisher := by rw [← hrt]
    have hcursor : rt.commandCursor = node.runtime.commandCursor + 1 := by rw [← hrt]
    have hdue' (phase : Phase) : (⟨rt, node.arena, phase⟩ : EdgeNode).due =
        node.runtime.establisher.commands.drop (node.runtime.commandCursor + 1) := by
      simp only [due, hestablisher, hcursor]
    rw [← hestablisher] at hsteady
    have haccounts : Accounts rt.establisher node.arena := hestablisher ▸ h.accounts
    have hnext (phase : Phase) (hwire : phase ≠ .wireEvents) : Kept ⟨rt, node.arena, phase⟩ := by
      refine ⟨?_, haccounts, ?_, fun heq => absurd heq hwire⟩
      · rw [hdue', ← hestablisher]
        exact hsteady.tail
      · simp only [hestablisher, hcursor]
        exact hlength
    cases hok : rt.executeCommand node.arena answer command with
    | error error => exact hnext .idle (by decide)
    | ok result =>
      obtain ⟨rt', arena'⟩ := result
      have hgoes := goes_executeCommand hsteady haccounts hok
      rw [hestablisher, ← hdue' node.phase] at hgoes
      exact (hnext node.phase hphase).goes hgoes fun heq => absurd heq hphase

/-- A provisioning that is fair forgets nothing. -/
theorem Kept.provision (h : node.Kept) (hphase : node.phase = .idle) (event : EdgeEvent)
    {localNodeId edgeId : ℕ} (hfair : node.Provisionable localNodeId edgeId)
    (hevent : event.provisionedEdge? node.runtime.establisher.localNodeId =
      if localNodeId = node.runtime.establisher.localNodeId then some edgeId else none)
    (hhalted : event.haltedEdge? = none) (hrequest : event.request? = none)
    (hcursor : rt.commandCursor = node.runtime.commandCursor)
    (hestablisher : rt.establisher = node.runtime.establisher.observe event) :
    Kept { node with runtime := rt } := by
  have hidle : node.phase ≠ .wireEvents := by simp [hphase]
  by_cases hnode : localNodeId = node.runtime.establisher.localNodeId
  · obtain ⟨hid, hring, hdue⟩ := hfair hnode
    rw [if_pos hnode] at hevent
    obtain ⟨record, command, hprovisions, hnext, hrecords, hcommands⟩ := observe_provisioned hevent
    rw [← hestablisher] at hnext hrecords hcommands
    obtain ⟨hkeeps, hsteady⟩ := h.steady.provision hid (fun record hrecord => hring record hrecord)
      (fun requestId hmem => hdue _ hmem rfl) hprovisions hnext hrecords
    have hdue' : ({ node with runtime := rt } : EdgeNode).due = node.due ++ [command] := by
      simp only [due, hcursor, hcommands]
      exact drop_append_of_le_length h.cursor
    refine ⟨by rwa [hdue'], h.accounts.keeps hkeeps, ?_, fun heq => absurd heq hidle⟩
    simp only [hcursor, hcommands, length_append]
    exact h.cursor.trans (Nat.le_add_right _ _)
  · rw [if_neg hnode] at hevent
    exact h.goes (goes_observe h.steady h.accounts
      (tame_of_none hevent hhalted hrequest) hcursor hestablisher) fun heq => absurd heq hidle

/-- A fault that hits no ring. -/
theorem Kept.readError (h : node.Kept) (hphase : node.phase = .wireEvents) {edgeId : ℕ}
    (hfair : ∀ record ∈ node.runtime.establisher.records[edgeId]?, record.ringId = none) :
    Kept { node with runtime := node.runtime.readError edgeId } := by
  have htame : Tame node.due node.runtime.establisher (.streamFault edgeId .readError) := by
    constructor
    · rfl
    · intro edgeId' record hedge hrecord
      obtain rfl := Option.some.inj hedge
      exact hfair record hrecord
    · exact fun _ => h.served hphase
    · intro requestId hrequest
      cases hrequest
    · intro requestId edgeId' record hrequest
      cases hrequest
  exact h.goes (goes_observe h.steady h.accounts htame rfl rfl) h.served

theorem Kept.step (h : node.Kept) {action : EdgeAction} (hfair : node.Fair action) :
    (node.step action).Kept := by
  unfold EdgeNode.step
  split
  case h_1 provision hphase =>
    exact h.provision hphase (.provisionRx provision) hfair rfl rfl rfl rfl rfl
  case h_2 provision hphase =>
    exact h.provision hphase (.provisionTx provision) hfair rfl rfl rfl rfl rfl
  case h_3 hphase => exact h.same rfl rfl nofun
  case h_4 answer hphase => exact h.drive answer (by simp [hphase])
  case h_5 answer hphase => exact h.drive answer (by simp [hphase])
  case h_6 edgeId streamId hphase =>
    unfold incomingStream
    split
    · exact h.goes (goes_spawnRecv h.steady h.accounts rfl rfl edgeId streamId)
        h.served
    · exact h.same rfl rfl h.served
  case h_7 parsed hphase =>
    split
    · exact h
    · exact h.same rfl rfl nofun
  case h_8 edgeId hphase => exact h.readError hphase hfair
  case h_9 hphase =>
    refine h.same rfl rfl fun hnext => ?_
    simp [hphase, Phase.next] at hnext
  case h_10 => exact h

theorem kept_new (localNodeId : ℕ) (hlive : arena.liveOrder = []) :
    (new localNodeId arena).Kept := by
  have hnone (edgeId : ℕ) : (EdgeEstablisher.new localNodeId).records[edgeId]? = none := by
    simp [EdgeEstablisher.new]
  refine ⟨⟨?_, ?_, ?_, fun _ _ h => absurd h not_mem_nil, nodup_nil,
    fun _ h => absurd h not_mem_nil⟩, ?_, Nat.le_refl _, fun _ => rfl⟩
  · intro edgeId record hrecord
    exact absurd ((hnone edgeId).symm.trans hrecord) (by simp)
  · intro edgeId record requestId hrecord
    exact absurd ((hnone edgeId).symm.trans hrecord) (by simp)
  · intro edgeId edgeId' record record' requestId hrecord
    exact absurd ((hnone edgeId).symm.trans hrecord) (by simp)
  · intro lease hlease
    rw [show (new localNodeId arena).arena.liveOrder = [] from hlive] at hlease
    cases hlease

/-- In a run in which every provisioning and every fault is fair, every live lease belongs to a
record that still owns it or is about to be released, and an edge that faulted or stopped has
no live lease, neither by its ring nor by its request. -/
theorem leases_owned {config : ArenaConfig} {arena : ArenaManager}
    (hboot : ArenaManager.boot config = .ok arena) (localNodeId : ℕ) {actions : List EdgeAction}
    (hfair : Guarded Fair step (new localNodeId arena) actions) :
    (∀ lease ∈ (actions.foldl step (new localNodeId arena)).arena.liveOrder,
      (actions.foldl step (new localNodeId arena)).Owned lease ∨
        (actions.foldl step (new localNodeId arena)).ReleaseDue lease) ∧
    ∀ (edgeId : ℕ) (record : EdgeRecord),
      (actions.foldl step (new localNodeId arena)).runtime.establisher.records[edgeId]? =
          some record →
        record.state = .stopping ∨ record.state = .stopped ∨ record.state = .failed →
        ∀ lease ∈ (actions.foldl step (new localNodeId arena)).arena.liveOrder,
          record.ringId ≠ some lease.ringId ∧ record.leaseRequestId ≠ some lease.requestId := by
  have hlive : arena.liveOrder = [] := by
    rw [(ArenaManager.boot_eq_ok hboot).2.2]
  have hkept : (actions.foldl step (new localNodeId arena)).Kept :=
    hfair.invariant (fun _ _ h hok => h.step hok) (kept_new localNodeId hlive)
  constructor
  · intro lease hlease
    obtain ⟨edgeId, record, hrecord, hring, -⟩ := hkept.accounts lease hlease
    refine .inl ⟨edgeId, record, hrecord, hring, fun hstopped => ?_⟩
    have hcalm := hkept.steady.calm edgeId record hrecord
    simp [hstopped, hring] at hcalm
  · intro edgeId record hrecord hstate lease hlease
    have hring : record.ringId = none := by
      have hcalm := hkept.steady.calm edgeId record hrecord
      rcases hstate with hstate | hstate | hstate
      · simp [hstate] at hcalm
      · simpa [hstate] using hcalm
      · simpa [hstate] using hcalm
    refine ⟨by simp [hring], fun hrequest => ?_⟩
    obtain ⟨edgeId', record', hrecord', hring', hrequest'⟩ := hkept.accounts lease hlease
    obtain rfl := hkept.steady.single _ _ _ _ lease.requestId hrecord hrecord' hrequest hrequest'
    obtain rfl := Option.some.inj (hrecord.symm.trans hrecord')
    exact absurd (hring.symm.trans hring') (by simp)

/-- An arena of 4096 bytes. -/
def smallArena : ArenaManager := { config := ⟨1, 4096, 64⟩, freeRanges := [⟨0, 4096⟩] }

/-- Edge 7 with a ring of 1152 bytes. -/
def seventhEdge : ProvisionTx := ⟨7, 1, 2, ⟨.activation, .f16, 1024⟩, ⟨128, 1024, 64⟩⟩

/-- Edge 8 with a ring that is larger than the arena. -/
def eighthEdge : ProvisionRx := ⟨8, 1, ⟨.activation, .f16, 8192⟩, ⟨128, 8192, 64⟩⟩

/-- Edge 7 is provisioned and becomes ready in the next poll, in which the events of the
transport are about to be taken. -/
def readyRun : List EdgeAction :=
  .establishOutbound seventhEdge :: .poll :: List.replicate 5 (.drive true)

/-- Edge 8 is refused by the arena, faults and is provisioned anew. -/
def refusedRun : List EdgeAction :=
  readyRun ++ [EdgeAction.eventsDrained, .drive true, .establishInbound eighthEdge, .poll,
    .drive true, .drive true, .establishInbound eighthEdge]

theorem leases_owned_refused :
    Guarded Fair step (new 1 smallArena) refusedRun ∧
      (refusedRun.foldl step (new 1 smallArena)).arena.liveOrder.length = 1 ∧
      ∀ lease ∈ (refusedRun.foldl step (new 1 smallArena)).arena.liveOrder,
        (refusedRun.foldl step (new 1 smallArena)).Owned lease ∨
          (refusedRun.foldl step (new 1 smallArena)).ReleaseDue lease := by
  have hfair : Guarded Fair step (new 1 smallArena) refusedRun := by decide +kernel
  have hboot : ArenaManager.boot ⟨1, 4096, 64⟩ = .ok smallArena := rfl
  refine ⟨hfair, by decide +kernel, ?_⟩
  exact (leases_owned hboot 1 hfair).1

/-- The stream of the ready edge fails. -/
def faultedRun : List EdgeAction :=
  readyRun ++ [EdgeAction.streamFault (some 7), .eventsDrained] ++
    List.replicate 4 (EdgeAction.drive true)

/-- The ready edge is provisioned anew. -/
def overwrittenRun : List EdgeAction :=
  readyRun ++ [EdgeAction.eventsDrained, .drive true, .establishOutbound seventhEdge]

/-- An edge that faulted keeps its lease when nothing is left to do, and the lease of an edge
that was provisioned twice belongs to no record. -/
theorem faulted_edge_keeps_lease :
    ((faultedRun.foldl step (new 1 smallArena)).Quiet ∧
      ((faultedRun.foldl step (new 1 smallArena)).runtime.establisher.records[7]?.map fun record =>
        (record.state, record.ringId)) = some (.stopping, some 1) ∧
      ((faultedRun.foldl step (new 1 smallArena)).arena.liveOrder.map RingLease.ringId) = [1]) ∧
    ¬∀ lease ∈ (overwrittenRun.foldl step (new 1 smallArena)).arena.liveOrder,
      (overwrittenRun.foldl step (new 1 smallArena)).Owned lease ∨
        (overwrittenRun.foldl step (new 1 smallArena)).ReleaseDue lease := by
  decide +kernel

end EdgeNode

end Swactor.DataPlane.Edge
