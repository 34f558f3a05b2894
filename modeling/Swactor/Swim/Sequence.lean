import Swactor.Swim.Node

/-!
# Sequence numbers of probes

Every ping that a node sends of its own accord carries a number above all numbers it has
used before, and a probe is in flight under the number of the ping that started it. Ping
requests carry the number of the probe in flight. Acks and forwarded acks repeat the
number they answer, and a relayed ping the number it was requested under.
-/
namespace Swactor.Swim
open Machine List

/-- The target and the sequence number of the probe in flight. -/
def ProbePhase.probe? : ProbePhase → Option (NodeId × ℕ)
  | idle => none
  | waitingDirectAck target sequence _ => some (target, sequence)
  | waitingIndirectAck target sequence _ => some (target, sequence)

namespace SwimProbe

/-- Pings take new numbers; a probe in flight, or one that relays are asked to help with,
was in flight before or was started by one of the pings. -/
structure Numbered (p : SwimProbe) (actions : List SwimAction) (q : SwimProbe) : Prop where
  mono : p.sequence ≤ q.sequence
  pings : ∀ dest s, .sendPing dest s ∈ actions → p.sequence < s ∧ s ≤ q.sequence
  inFlight : ∀ target s, q.phase.probe? = some (target, s) →
    p.phase.probe? = some (target, s) ∨ .sendPing target s ∈ actions
  requests : ∀ relay target s, .sendPingReq relay target s ∈ actions →
    p.phase.probe? = some (target, s) ∨ .sendPing target s ∈ actions

theorem numbered_sequential : Sequential Numbered where
  nil p := ⟨le_rfl, by simp, fun _ _ h => Or.inl h, by simp⟩
  append {p q r as bs} h h' := by
    have hlater (target : NodeId) (s : ℕ)
        (hb : q.phase.probe? = some (target, s) ∨ .sendPing target s ∈ bs) :
        p.phase.probe? = some (target, s) ∨ .sendPing target s ∈ as ++ bs := by
      rcases hb with hb | hb
      · exact (h.inFlight target s hb).imp_right (mem_append_left bs)
      · exact Or.inr (mem_append_right as hb)
    have hm := h.mono
    have hm' := h'.mono
    refine ⟨hm.trans hm', fun dest s hs => ?_, fun target s hs => ?_, fun relay target s hs => ?_⟩
    · rcases mem_append.mp hs with hs | hs
      · have := h.pings dest s hs
        omega
      · have := h'.pings dest s hs
        omega
    · exact hlater target s (h'.inFlight target s hs)
    · rcases mem_append.mp hs with hs | hs
      · exact (h.requests relay target s hs).imp_right (mem_append_left bs)
      · exact hlater target s (h'.requests relay target s hs)

/-- A change of other fields before a numbered call. -/
theorem Numbered.of_eq {p q r : SwimProbe} {actions : List SwimAction} (h : Numbered q actions r)
    (hs : q.sequence = p.sequence) (hp : q.phase = p.phase) : Numbered p actions r := by
  constructor
  · exact hs ▸ h.mono
  · exact hs ▸ h.pings
  · exact hp ▸ h.inFlight
  · exact hp ▸ h.requests

/-- A call that sends neither pings nor requests and at most ends the probe in flight. -/
theorem Numbered.silent {p q : SwimProbe} {actions : List SwimAction}
    (hs : q.sequence = p.sequence) (hp : q.phase = p.phase ∨ q.phase = .idle)
    (hping : ∀ dest s, .sendPing dest s ∉ actions)
    (hreq : ∀ relay target s, .sendPingReq relay target s ∉ actions) : Numbered p actions q := by
  refine ⟨hs.ge, fun dest s h => absurd h (hping dest s), fun target s h => ?_,
    fun relay target s h => absurd h (hreq relay target s)⟩
  rcases hp with hp | hp
  · exact Or.inl (hp ▸ h)
  · rw [hp] at h
    simp [ProbePhase.probe?] at h

theorem Numbered.same {p q : SwimProbe} (hs : q.sequence = p.sequence) (hp : q.phase = p.phase) :
    Numbered p [] q :=
  .silent hs (Or.inl hp) (by simp) (by simp)

theorem numbered_probing : Probing Numbered where
  toSequential := numbered_sequential
  aside h := .same h.sequence h.phase
  start p target := by
    constructor
    · simp [startProbeFor]
    · intro dest s h
      simp only [startProbeFor, mem_singleton, SwimAction.sendPing.injEq] at h
      simp only [startProbeFor]
      omega
    · intro dest s h
      simp only [startProbeFor, ProbePhase.probe?, Option.some.injEq, Prod.mk.injEq] at h
      simp [startProbeFor, h.1, h.2]
    · simp [startProbeFor]
  reprobe p target index := by
    refine ⟨Nat.le_succ _, fun dest s h => ?_, fun target s h => Or.inl h, by simp⟩
    simp only [mem_singleton, SwimAction.sendPing.injEq] at h
    dsimp only
    omega

section

variable (p : SwimProbe)

/-- The requests of a probe that goes indirect carry its own number. -/
theorem checkProbeTimeout_numbered (l : MemberList) :
    Numbered p (p.checkProbeTimeout l).2 (p.checkProbeTimeout l).1 := by
  cases hphase : p.phase with
  | idle =>
    simp only [checkProbeTimeout, hphase]
    exact numbered_sequential.nil p
  | waitingDirectAck target sequence sentAt =>
    simp only [checkProbeTimeout, hphase]
    split_ifs
    · refine ⟨le_rfl, by simp, fun t s h => Or.inl ?_, fun relay t s h => Or.inl ?_⟩
      · rw [hphase]
        exact h
      · simp only [mem_cons, mem_map, reduceCtorEq, false_or,
          SwimAction.sendPingReq.injEq] at h
        obtain ⟨relay, -, -, rfl, rfl⟩ := h
        rw [hphase]
        rfl
    · exact numbered_sequential.nil p
  | waitingIndirectAck target sequence sentAt =>
    simp only [checkProbeTimeout, hphase]
    split_ifs
    · have hseq : (p.startSuspicionTimer target).sequence = p.sequence := by
        unfold startSuspicionTimer
        split_ifs <;> rfl
      exact .silent hseq (Or.inr rfl) (by simp) (by simp)
    · exact numbered_sequential.nil p

variable {p} in
/-- A probe ends unless the event leaves it alone; only a matching ack ends it. -/
theorem Acked.numbered {id : NodeId} {sequence : ℕ} {out : SwimProbe × List SwimAction}
    (h : p.Acked id sequence out) :
    Numbered p out.2 out.1 ∧ (out.1.phase = p.phase ∨ p.phase.probe? = some (id, sequence)) := by
  cases h with
  | ignored => exact ⟨numbered_sequential.nil p, Or.inl rfl⟩
  | completed sentAt kind hphase =>
    refine ⟨.silent rfl (Or.inr rfl) (by simp [completeProbe]) (by simp [completeProbe]), Or.inr ?_⟩
    rcases hphase with hphase | hphase <;> rw [hphase] <;> rfl

end

theorem expire_numbered (s : SwimProbe × MemberList) (id : NodeId) :
    Numbered s.1 (expire s id).2 (expire s id).1.1 := by
  unfold expire
  dsimp only
  split_ifs
  · exact .silent rfl (Or.inr rfl) (by simp) (by simp)
  · exact .silent rfl (Or.inl rfl) (by simp) (by simp)
  · exact .same rfl rfl

theorem checkSuspicionTimeouts_numbered (p : SwimProbe) (l : MemberList) :
    Numbered p (p.checkSuspicionTimeouts l).2 (p.checkSuspicionTimeouts l).1.1 := by
  have hseq : Sequential fun (s : SwimProbe × MemberList) out s' => Numbered s.1 out s'.1 :=
    ⟨fun s => numbered_sequential.nil s.1, fun h h' => numbered_sequential.append h h'⟩
  exact hseq.collect expire_numbered (p, l) _

theorem tick_numbered (p : SwimProbe) (l : MemberList) :
    Numbered p (p.tick l).2 (p.tick l).1.1 := by
  have htimed := checkProbeTimeout_numbered
    { p with stepCounter := wrappingAdd p.stepCounter 1 } l
  have hseq := numbered_sequential
  exact hseq.append (hseq.append (htimed.of_eq rfl rfl) (checkSuspicionTimeouts_numbered _ l))
    (numbered_probing.tickProbes _ _)

theorem step_numbered (p : SwimProbe) (now : ℕ) (event : SwimEvent) (l : MemberList) :
    Numbered p (p.step now event l).2 (p.step now event l).1.1 := by
  cases event with
  | tick => exact (tick_numbered { p with now := now } l).of_eq rfl rfl
  | ackReceived sender sequence =>
    exact (handleAck_acked { p with now := now } sender sequence).numbered.1.of_eq rfl rfl
  | indirectAckReceived target sequence =>
    exact (handleIndirectAck_acked { p with now := now } target sequence).numbered.1.of_eq rfl rfl
  | sendFailed dest =>
    exact (numbered_probing.handleSendFailed { p with now := now } l dest).of_eq rfl rfl

end SwimProbe

namespace SwimNode

/-- Number of the last ping sent of the node's own accord. -/
def sequence (n : SwimNode) : ℕ := n.probe.sequence

/-- The target and the sequence number of the node's probe in flight. -/
def probe? (n : SwimNode) : Option (NodeId × ℕ) := n.probe.phase.probe?

/-- Pings take new numbers, requests and probes in flight go back to a ping, nothing is
answered or forwarded and the pending relays stay. -/
structure Numbered (n : SwimNode) (actions : List NodeAction) (n' : SwimNode) : Prop where
  mono : n.sequence ≤ n'.sequence
  pings : ∀ dest s pb, .sendPing dest s pb ∈ actions → n.sequence < s ∧ s ≤ n'.sequence
  inFlight : ∀ target s, n'.probe? = some (target, s) →
    n.probe? = some (target, s) ∨ ∃ pb, .sendPing target s pb ∈ actions
  requests : ∀ relay target s pb, .sendPingReq relay target s pb ∈ actions →
    n.probe? = some (target, s) ∨ ∃ pb, .sendPing target s pb ∈ actions
  acks : ∀ dest s pb, .sendAck dest s pb ∉ actions
  forwards : ∀ dest target s pb, .forwardAck dest target s pb ∉ actions
  relays : n'.pendingRelays = n.pendingRelays

theorem numbered_sequential : Sequential Numbered where
  nil n := ⟨le_rfl, by simp, fun _ _ h => Or.inl h, by simp, by simp, by simp, rfl⟩
  append {n n' n'' as bs} h h' := by
    have hlater (target : NodeId) (s : ℕ)
        (hb : n'.probe? = some (target, s) ∨ ∃ pb, .sendPing target s pb ∈ bs) :
        n.probe? = some (target, s) ∨ ∃ pb, .sendPing target s pb ∈ as ++ bs := by
      rcases hb with hb | ⟨pb, hb⟩
      · exact (h.inFlight target s hb).imp_right fun ⟨pb, hpb⟩ =>
          ⟨pb, mem_append_left bs hpb⟩
      · exact Or.inr ⟨pb, mem_append_right as hb⟩
    have hm := h.mono
    have hm' := h'.mono
    constructor
    · exact hm.trans hm'
    · intro dest s pb hs
      rcases mem_append.mp hs with hs | hs
      · have := h.pings dest s pb hs
        omega
      · have := h'.pings dest s pb hs
        omega
    · intro target s hs
      exact hlater target s (h'.inFlight target s hs)
    · intro relay target s pb hs
      rcases mem_append.mp hs with hs | hs
      · exact (h.requests relay target s pb hs).imp_right fun ⟨pb, hpb⟩ =>
          ⟨pb, mem_append_left bs hpb⟩
      · exact hlater target s (h'.requests relay target s pb hs)
    · intro dest s pb hs
      exact (mem_append.mp hs).elim (h.acks dest s pb) (h'.acks dest s pb)
    · intro dest target s pb hs
      exact (mem_append.mp hs).elim (h.forwards dest target s pb)
        (h'.forwards dest target s pb)
    · exact h'.relays.trans h.relays

/-- Nothing but reports and join responses goes out, and no number or probe changes. -/
structure Still (n : SwimNode) (actions : List NodeAction) (n' : SwimNode) : Prop where
  sequence : n'.sequence = n.sequence
  probe : n'.probe? = n.probe?
  relays : n'.pendingRelays = n.pendingRelays
  actions : ∀ a ∈ actions, (∃ change, a = .membershipChanged change) ∨
    ∃ dest members, a = .sendJoinResponse dest members

theorem still_sequential : Sequential Still where
  nil n := ⟨rfl, rfl, rfl, by simp⟩
  append h h' := by
    refine ⟨h'.sequence.trans h.sequence, h'.probe.trans h.probe, h'.relays.trans h.relays, ?_⟩
    intro a ha
    exact (mem_append.mp ha).elim (h.actions a) (h'.actions a)

theorem Still.numbered {n n' : SwimNode} {actions : List NodeAction} (h : Still n actions n') :
    Numbered n actions n' := by
  refine ⟨h.sequence.ge, fun dest s pb hs => ?_, fun target s hs => Or.inl (h.probe ▸ hs),
    fun relay target s pb hs => ?_, fun dest s pb hs => ?_, fun dest target s pb hs => ?_, h.relays⟩
  all_goals simpa using h.actions _ hs

theorem applyMembershipUpdate_still (n : SwimNode) (u : MembershipUpdate) :
    Still n (n.applyMembershipUpdate u).2 (n.applyMembershipUpdate u).1 := by
  obtain h | ⟨-, -, -, h⟩ | ⟨hne, -, h⟩ := n.applyMembershipUpdate_cases u <;> rw [h]
  · exact still_sequential.nil n
  · exact ⟨rfl, rfl, rfl, by simp⟩
  · have hd := n.probe.aside_demanded u.nodeId (u.state = .alive)
    exact ⟨hd.sequence, congrArg ProbePhase.probe? hd.phase, rfl, by simp⟩

theorem Enters.still {n : SwimNode} {id : NodeId} {out : SwimNode × List NodeAction}
    (h : Enters n id out) : Still n out.2 out.1 := by
  cases h with
  | known => exact still_sequential.nil n
  | entered hne hb hn' => obtain rfl | rfl := hn' <;> exact ⟨rfl, rfl, rfl, by simp⟩

theorem makeRoom_still (n : SwimNode) (r : NodeRecord) : Still n [] (n.makeRoom r) := by
  unfold makeRoom clearDeadMember
  split_ifs <;> exact ⟨rfl, rfl, rfl, by simp⟩

theorem applyJoinRecord_still (n : SwimNode) (r : NodeRecord) :
    Still n (n.applyJoinRecord r).2 (n.applyJoinRecord r).1 := by
  have hroom := makeRoom_still n r
  obtain ⟨h, -⟩ | ⟨hne, -, h⟩ := n.applyJoinRecord_cases r <;> rw [h]
  · exact hroom
  · have hd := (n.makeRoom r).probe.aside_demanded r.nodeId
      (r.state = .alive ∧ r.nodeId ≠ (n.makeRoom r).members.selfId)
    exact still_sequential.append hroom
      ⟨hd.sequence, congrArg ProbePhase.probe? hd.phase, rfl, by simp⟩

theorem applyPiggyback_still (n : SwimNode) (updates : List MembershipUpdate) :
    Still n (n.applyPiggyback updates).2 (n.applyPiggyback updates).1 :=
  still_sequential.collect applyMembershipUpdate_still n updates

/-- The messages that carry out actions of the probe machine, one for each ping or
request; the probe machine and the pending relays are left alone. -/
structure CarriesOut (actions : List SwimAction) (n : SwimNode) (out : List NodeAction)
    (n' : SwimNode) : Prop where
  probe : n'.probe = n.probe
  relays : n'.pendingRelays = n.pendingRelays
  pings : ∀ dest s, (∃ pb, .sendPing dest s pb ∈ out) ↔ .sendPing dest s ∈ actions
  requests : ∀ relay target s,
    (∃ pb, .sendPingReq relay target s pb ∈ out) ↔ .sendPingReq relay target s ∈ actions
  acks : ∀ dest s pb, .sendAck dest s pb ∉ out
  forwards : ∀ dest target s pb, .forwardAck dest target s pb ∉ out

theorem CarriesOut.append {as bs : List SwimAction} {n n' n'' : SwimNode}
    {out out' : List NodeAction} (h : CarriesOut as n out n') (h' : CarriesOut bs n' out' n'') :
    CarriesOut (as ++ bs) n (out ++ out') n'' := by
  constructor
  · exact h'.probe.trans h.probe
  · exact h'.relays.trans h.relays
  · intro dest s
    simp only [mem_append, exists_or, h.pings, h'.pings]
  · intro relay target s
    simp only [mem_append, exists_or, h.requests, h'.requests]
  · intro dest s pb hs
    exact (mem_append.mp hs).elim (h.acks dest s pb) (h'.acks dest s pb)
  · intro dest target s pb hs
    exact (mem_append.mp hs).elim (h.forwards dest target s pb) (h'.forwards dest target s pb)

theorem enqueueAccusation_same (n : SwimNode) (dest : NodeId) :
    (n.enqueueAccusation dest).probe = n.probe ∧
      (n.enqueueAccusation dest).pendingRelays = n.pendingRelays := by
  unfold enqueueAccusation
  split
  · split_ifs <;> exact ⟨rfl, rfl⟩
  · exact ⟨rfl, rfl⟩

theorem translateProbeAction_carriesOut (n : SwimNode) (a : SwimAction) :
    CarriesOut [a] n (n.translateProbeAction a).2 (n.translateProbeAction a).1 := by
  cases a with
  | sendPing dest sequence =>
    have h := n.enqueueAccusation_same dest
    refine ⟨h.1, h.2, ?_, ?_, ?_, ?_⟩ <;> simp [translateProbeAction, piggybacked]
  | sendPingReq relay target sequence =>
    refine ⟨rfl, rfl, ?_, ?_, ?_, ?_⟩ <;> simp [translateProbeAction, piggybacked]
  | suspect id =>
    obtain h | ⟨i, hg, h⟩ := n.translate_suspect_cases id <;> rw [h] <;>
      refine ⟨rfl, rfl, ?_, ?_, ?_, ?_⟩ <;> simp
  | declareDead id =>
    unfold translateProbeAction
    dsimp only
    split <;> refine ⟨rfl, rfl, ?_, ?_, ?_, ?_⟩ <;> simp
  | diag event => refine ⟨rfl, rfl, ?_, ?_, ?_, ?_⟩ <;> simp [translateProbeAction]

theorem translateProbeActions_carriesOut (actions : List SwimAction) (n : SwimNode) :
    CarriesOut actions n (n.translateProbeActions actions).2
      (n.translateProbeActions actions).1 := by
  induction actions generalizing n with
  | nil => refine ⟨rfl, rfl, ?_, ?_, ?_, ?_⟩ <;> simp [translateProbeActions, collect]
  | cons a actions ih =>
    exact (n.translateProbeAction_carriesOut a).append (ih (n.translateProbeAction a).1)

theorem stepProbe_numbered (n : SwimNode) (event : SwimEvent) :
    Numbered n (n.stepProbe event).2 (n.stepProbe event).1 := by
  let stepped := n.probe.step n.clock event n.members
  have hstep : n.probe.Numbered stepped.2 stepped.1.1 :=
    n.probe.step_numbered n.clock event n.members
  have hout := translateProbeActions_carriesOut stepped.2
    { n with probe := stepped.1.1, members := stepped.1.2 }
  have hprobe : (n.stepProbe event).1.probe = stepped.1.1 := hout.probe
  constructor
  · rw [sequence, sequence, hprobe]
    exact hstep.mono
  · intro dest s pb h
    rw [sequence, sequence, hprobe]
    exact hstep.pings dest s ((hout.pings dest s).mp ⟨pb, h⟩)
  · intro target s h
    rw [probe?, hprobe] at h
    exact (hstep.inFlight target s h).imp_right (hout.pings target s).mpr
  · intro relay target s pb h
    exact (hstep.requests relay target s ((hout.requests relay target s).mp ⟨pb, h⟩)).imp_right
      (hout.pings target s).mpr
  · exact hout.acks
  · exact hout.forwards
  · exact hout.relays

/-- The requester, the target and the number of a ping request. -/
def Call.request? : Call → Option (NodeId × NodeId × ℕ)
  | .pingReq sender target sequence _ => some (sender, target, sequence)
  | .tick _ | .ping .. | .ack .. | .indirectAck .. | .joinRequest _ | .joinResponse _
  | .sendFailure _ | .leave => none

/-- What a call sends and remembers, and under which numbers. -/
structure Traffic (n : SwimNode) (call : Call) (out : List NodeAction) (n' : SwimNode) :
    Prop where
  mono : n.sequence ≤ n'.sequence
  own : call.request? = none → ∀ dest s pb, .sendPing dest s pb ∈ out →
    n.sequence < s ∧ s ≤ n'.sequence
  relayed : ∀ sender target q, call.request? = some (sender, target, q) →
    (∃ pb, .sendPing target q pb ∈ out) ∧
      ∀ dest s pb, .sendPing dest s pb ∈ out → dest = target ∧ s = q
  inFlight : ∀ target s, n'.probe? = some (target, s) → n.probe? = some (target, s) ∨
    (call.request? = none ∧ ∃ pb, .sendPing target s pb ∈ out)
  requests : ∀ relay target s pb, .sendPingReq relay target s pb ∈ out →
    n.probe? = some (target, s) ∨ (call.request? = none ∧ ∃ pb, .sendPing target s pb ∈ out)
  acks : ∀ dest s pb, .sendAck dest s pb ∈ out → ∃ pb', call = .ping dest s pb'
  forwards : ∀ dest target s pb, .forwardAck dest target s pb ∈ out →
    (∃ pb', call = .ack target s pb') ∧ ⟨dest, target, s⟩ ∈ n.pendingRelays
  relays : ∀ r ∈ n'.pendingRelays, r ∈ n.pendingRelays ∨
    call.request? = some (r.requester, r.target, r.sequence)

variable {n n' n'' : SwimNode} {call : Call} {out : List NodeAction}

theorem Numbered.traffic (h : Numbered n out n') (hcall : call.request? = none) :
    Traffic n call out n' where
  mono := h.mono
  own _ := h.pings
  relayed sender target q hr := by simp [hcall] at hr
  inFlight target s hs := (h.inFlight target s hs).imp_right fun hp => ⟨hcall, hp⟩
  requests relay target s pb hs := (h.requests relay target s pb hs).imp_right fun hp => ⟨hcall, hp⟩
  acks dest s pb hs := absurd hs (h.acks dest s pb)
  forwards dest target s pb hs := absurd hs (h.forwards dest target s pb)
  relays r hr := Or.inl (h.relays ▸ hr)

/-- One more message, an answer, after which the probe machine is the same. -/
theorem Traffic.answer (h : Traffic n call out n') {a : NodeAction} (hcall : call.request? = none)
    (hprobe : n''.probe = n'.probe) (hrelays : ∀ r ∈ n''.pendingRelays, r ∈ n'.pendingRelays)
    (ha : (∃ dest s pb pb', a = .sendAck dest s pb ∧ call = .ping dest s pb') ∨
      ∃ dest target s pb pb', a = .forwardAck dest target s pb ∧ call = .ack target s pb' ∧
        ⟨dest, target, s⟩ ∈ n.pendingRelays) :
    Traffic n call (out ++ [a]) n'' := by
  have hping (dest : NodeId) (s : ℕ) (pb : List MembershipUpdate)
      (hs : .sendPing dest s pb ∈ out ++ [a]) : .sendPing dest s pb ∈ out := by
    rcases ha with ⟨_, _, _, _, rfl, -⟩ | ⟨_, _, _, _, _, rfl, -⟩ <;> simpa using hs
  have hseq : n''.sequence = n'.sequence := by rw [sequence, sequence, hprobe]
  constructor
  · exact hseq ▸ h.mono
  · intro _ dest s pb hs
    rw [hseq]
    exact h.own hcall dest s pb (hping dest s pb hs)
  · intro sender target q hr
    simp [hcall] at hr
  · intro target s hs
    rw [probe?, hprobe] at hs
    exact (h.inFlight target s hs).imp_right fun ⟨hc, pb, hp⟩ => ⟨hc, pb, mem_append_left _ hp⟩
  · intro relay target s pb hs
    have hs' : .sendPingReq relay target s pb ∈ out := by
      rcases ha with ⟨_, _, _, _, rfl, -⟩ | ⟨_, _, _, _, _, rfl, -⟩ <;> simpa using hs
    exact (h.requests relay target s pb hs').imp_right fun ⟨hc, pb, hp⟩ =>
      ⟨hc, pb, mem_append_left _ hp⟩
  · intro dest s pb hs
    rcases mem_append.mp hs with hs | hs
    · exact h.acks dest s pb hs
    · rcases ha with ⟨_, _, _, pb', rfl, hc⟩ | ⟨_, _, _, _, _, rfl, -⟩
      · simp only [mem_singleton, NodeAction.sendAck.injEq] at hs
        obtain ⟨rfl, rfl, -⟩ := hs
        exact ⟨pb', hc⟩
      · simp at hs
  · intro dest target s pb hs
    rcases mem_append.mp hs with hs | hs
    · exact h.forwards dest target s pb hs
    · rcases ha with ⟨_, _, _, _, rfl, -⟩ | ⟨_, _, _, _, pb', rfl, hc, hmem⟩
      · simp at hs
      · simp only [mem_singleton, NodeAction.forwardAck.injEq] at hs
        obtain ⟨rfl, rfl, rfl, -⟩ := hs
        exact ⟨⟨pb', hc⟩, hmem⟩
  · intro r hr
    exact h.relays r (hrelays r hr)

theorem handlePing_traffic (n : SwimNode) (sender : NodeId) (q : ℕ) (pb : List MembershipUpdate) :
    Traffic n (.ping sender q pb) (n.handlePing sender q pb).2 (n.handlePing sender q pb).1 := by
  have h := still_sequential.append (n.applyPiggyback_still pb)
    (learnSender_enters (n.applyPiggyback pb).1 sender).still
  exact (h.numbered.traffic rfl).answer rfl rfl (fun r hr => hr) (Or.inl ⟨_, _, _, _, rfl, rfl⟩)

theorem handleAck_traffic (n : SwimNode) (sender : NodeId) (q : ℕ) (pb : List MembershipUpdate) :
    Traffic n (.ack sender q pb) (n.handleAck sender q pb).2 (n.handleAck sender q pb).1 := by
  have h := numbered_sequential.append (n.applyPiggyback_still pb).numbered
    (stepProbe_numbered (n.applyPiggyback pb).1 (.ackReceived sender q))
  let m := andThen (n.applyPiggyback pb) fun n => n.stepProbe (.ackReceived sender q)
  have hrelays : m.1.pendingRelays = n.pendingRelays := h.relays
  change Traffic n _ (m.2 ++ (m.1.completeRelay sender q).2) (m.1.completeRelay sender q).1
  unfold completeRelay
  dsimp only
  split
  next r hr =>
    have hmem : r ∈ n.pendingRelays := hrelays ▸ mem_of_find?_eq_some hr
    have hmatch : r.target = sender ∧ r.sequence = q := by simpa using find?_some hr
    refine (h.traffic rfl).answer rfl rfl (fun r hr => mem_of_mem_eraseP hr) (Or.inr ?_)
    exact ⟨_, _, _, _, pb, rfl, by rw [hmatch.1, hmatch.2], hmem⟩
  next =>
    rw [append_nil]
    exact h.traffic rfl

theorem handlePingReq_traffic (n : SwimNode) (sender target : NodeId) (q : ℕ)
    (pb : List MembershipUpdate) :
    Traffic n (.pingReq sender target q pb) (n.handlePingReq sender target q pb).2
      (n.handlePingReq sender target q pb).1 := by
  have h := n.applyPiggyback_still pb
  let m := (n.applyPiggyback pb).1.addRelay ⟨sender, target, q⟩
  have hout : (n.handlePingReq sender target q pb).2 = (n.applyPiggyback pb).2 ++
      [.sendPing target q (m.dissemination.take m.maxPiggyback).2] := rfl
  have hlast (a : NodeAction) (ha : a ∈ (n.handlePingReq sender target q pb).2) :
      (∃ change, a = .membershipChanged change) ∨
      (∃ dest members, a = .sendJoinResponse dest members) ∨ ∃ pb, a = .sendPing target q pb := by
    rw [hout] at ha
    rcases mem_append.mp ha with ha | ha
    · exact (h.actions a ha).imp_right Or.inl
    · exact Or.inr (Or.inr ⟨_, mem_singleton.mp ha⟩)
  constructor
  · exact h.sequence.ge
  · intro hcall
    simp [Call.request?] at hcall
  · intro sender' target' q' hcall
    obtain ⟨-, rfl, rfl⟩ := hcall
    refine ⟨⟨_, hout ▸ mem_append_right _ (mem_singleton_self _)⟩,
      fun dest s pb' hs => ?_⟩
    simpa using hlast _ hs
  · intro target' s hs
    exact Or.inl (h.probe ▸ hs)
  · intro relay target' s pb' hs
    simpa using hlast _ hs
  · intro dest s pb' hs
    simpa using hlast _ hs
  · intro dest target' s pb' hs
    simpa using hlast _ hs
  · intro r hr
    have hkept (r : PendingRelay) (hr : r ∈ m.pendingRelays) :
        r ∈ n.pendingRelays ∨ r = ⟨sender, target, q⟩ := by
      rw [← h.relays]
      rcases mem_append.mp hr with hr | hr
      · split_ifs at hr
        · exact Or.inl (mem_of_mem_tail hr)
        · exact Or.inl hr
      · exact Or.inr (mem_singleton.mp hr)
    exact (hkept r hr).imp_right fun heq => by simp [Call.request?, heq]

theorem call_traffic (n : SwimNode) (call : Call) :
    Traffic n call (n.call call).2 (n.call call).1 := by
  cases call with
  | tick now =>
    exact Numbered.traffic { stepProbe_numbered { n with clock := now } .tick with } rfl
  | ping sender q pb => exact n.handlePing_traffic sender q pb
  | ack sender q pb => exact n.handleAck_traffic sender q pb
  | pingReq sender target q pb => exact n.handlePingReq_traffic sender target q pb
  | indirectAck target q pb =>
    exact (numbered_sequential.append (n.applyPiggyback_still pb).numbered
      (stepProbe_numbered _ _)).traffic rfl
  | joinRequest sender =>
    have h := (n.enterJoiner_enters sender).still
    have hjoin : Still (n.enterJoiner sender).1 [.sendJoinResponse sender
        ((n.enterJoiner sender).1.members.snapshot ++ [(n.enterJoiner sender).1.selfRecord])]
        (n.enterJoiner sender).1 := ⟨rfl, rfl, rfl, by simp⟩
    exact (still_sequential.append h hjoin).numbered.traffic rfl
  | joinResponse records =>
    exact (still_sequential.collect applyJoinRecord_still n records).numbered.traffic rfl
  | sendFailure target => exact (stepProbe_numbered n _).traffic rfl
  | leave =>
    exact Numbered.traffic (Still.numbered ⟨rfl, rfl, rfl, by simp [SwimNode.call, leave]⟩) rfl

theorem stepProbe_probe (n : SwimNode) (event : SwimEvent) :
    (n.stepProbe event).1.probe = (n.probe.step n.clock event n.members).1.1 :=
  (translateProbeActions_carriesOut _ _).probe

theorem completeRelay_probe (n : SwimNode) (sender : NodeId) (q : ℕ) :
    (n.completeRelay sender q).1.probe = n.probe := by
  unfold completeRelay
  dsimp only
  split <;> rfl

/-- An ack ends a probe in flight only if it comes from its target under its number, whatever
gossip it carries. -/
theorem acked_probe (n : SwimNode) {id : NodeId} {q : ℕ} {pb : List MembershipUpdate}
    {out : SwimProbe × List SwimAction}
    (h : { (n.applyPiggyback pb).1.probe with now := (n.applyPiggyback pb).1.clock }.Acked id q
      out) : out.1.phase.probe? = n.probe? ∨ n.probe? = some (id, q) := by
  have hprobe := (n.applyPiggyback_still pb).probe
  rw [← hprobe]
  exact h.numbered.2.imp_left fun hphase => by rw [hphase]; rfl

theorem handleAck_probe (n : SwimNode) (sender : NodeId) (q : ℕ) (pb : List MembershipUpdate) :
    (n.handleAck sender q pb).1.probe? = n.probe? ∨ n.probe? = some (sender, q) := by
  have hprobe := (completeRelay_probe _ sender q).trans
    (stepProbe_probe (n.applyPiggyback pb).1 (.ackReceived sender q))
  rw [probe?, show (n.handleAck sender q pb).1.probe = _ from hprobe]
  exact n.acked_probe (SwimProbe.handleAck_acked _ sender q)

theorem handleIndirectAck_probe (n : SwimNode) (target : NodeId) (q : ℕ)
    (pb : List MembershipUpdate) :
    (n.handleIndirectAck target q pb).1.probe? = n.probe? ∨ n.probe? = some (target, q) := by
  have hprobe := stepProbe_probe (n.applyPiggyback pb).1 (.indirectAckReceived target q)
  rw [probe?, show (n.handleIndirectAck target q pb).1.probe = _ from hprobe]
  exact n.acked_probe (SwimProbe.handleIndirectAck_acked _ target q)

end SwimNode
end Swactor.Swim
