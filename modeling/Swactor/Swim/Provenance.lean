import Swactor.Swim.Node

/-!
# Where incarnations come from

A call is made of elementary steps: records are stored, queued, reported and sent. A
node does so with records of other nodes at the incarnations it
was given, and with its own records at incarnations it has reached itself. Given a
bound on the records of every other node that it receives, the same bound holds
of every record it keeps and sends. Its own incarnation is the bound on records
about itself, so that a refutation is never kept out of the queue by an older
record. Whether it beats the accusation is a matter of the accusation.
-/
namespace Swactor.Swim
open DisseminationQueue List
open Machine (Guarded Sequential andThen collect)

/-- The records an action carries. -/
def NodeAction.records : NodeAction → List NodeRecord
  | .sendPing _ _ piggyback => piggyback
  | .sendPingReq _ _ _ piggyback => piggyback
  | .sendAck _ _ piggyback => piggyback
  | .forwardAck _ _ _ piggyback => piggyback
  | .sendJoinResponse _ members => members
  | .membershipChanged change => [change]

/-- An entry is beaten by one of its incarnation in a higher state. -/
theorem MemberList.beats_of_get (l : MemberList) {id : NodeId} {state state' : MemberState} {i : ℕ}
    (hg : l.get id = some ⟨state, i⟩) (hlt : state < state') :
    ∀ e ∈ l.get id, MemberEntry.Beats ⟨state', i⟩ e := by
  intro e he
  obtain rfl : (⟨state, i⟩ : MemberEntry) = e := Option.some.inj (hg.symm.trans he)
  exact .inr ⟨rfl, hlt⟩

namespace SwimNode

/-- What a call may do: which records it hands in, whether a member may be forgotten and whether an
accusation may be refuted. -/
structure Terms where
  given : NodeRecord → Prop
  clears : Prop
  refutes : Prop

/-- A record of an incarnation that the node was given, holds or has reached. -/
inductive Sourced (t : Terms) (n : SwimNode) (r : NodeRecord) : Prop
  | given (h : t.given r) (hne : r.nodeId ≠ n.members.selfId)
  | held (e : MemberEntry) (hg : n.members.get r.nodeId = some e)
      (h : r.incarnation = e.incarnation)
  | fresh (h : r.incarnation = 0)
  | own (hid : r.nodeId = n.members.selfId) (h : r.incarnation = n.members.selfIncarnation)

/-- The elementary steps that the calls are made of. -/
inductive Moves (t : Terms) : SwimNode → List NodeAction → SwimNode → Prop
  | append {n n' n'' : SwimNode} {as bs : List NodeAction} (h : Moves t n as n')
      (h' : Moves t n' bs n'') : Moves t n (as ++ bs) n''
  | aside {n n' : SwimNode} (hm : n'.members = n.members)
      (hd : n'.dissemination = n.dissemination) : Moves t n [] n'
  | send (n : SwimNode) (message : List MembershipUpdate → NodeAction)
      (hm : ∀ pb, (message pb).records = pb) :
      Moves t n (n.piggybacked message).2 (n.piggybacked message).1
  | enqueue (n : SwimNode) (u : MembershipUpdate) (hu : Sourced t n u) : Moves t n [] (n.enqueue u)
  | report (n : SwimNode) (r : NodeRecord) (hr : Sourced t n r) :
      Moves t n [.membershipChanged r] n
  | respond (n : SwimNode) (dest : NodeId) :
      Moves t n [.sendJoinResponse dest (n.members.snapshot ++ [n.selfRecord])] n
  | store (n : SwimNode) (r : NodeRecord) (hr : Sourced t n r) (hne : r.nodeId ≠ n.members.selfId)
      (hb : ∀ e ∈ n.members.get r.nodeId, r.entry.Beats e) :
      Moves t n [] { n with members := n.members.put r.nodeId r.entry hne }
  | refute (n : SwimNode) (h : t.refutes) : Moves t n [] { n with members := n.members.refute }
  | clear (n : SwimNode) (id : NodeId) (h : t.clears) : Moves t n []
      { n with members := n.members.remove id, dissemination := n.dissemination.purgeNode id }

section Moves

variable {t : Terms} {n n' : SwimNode} {r : NodeRecord}

theorem moves_sequential : Sequential (Moves t) := ⟨fun _ => .aside rfl rfl, .append⟩

theorem Moves.after {n'' : SwimNode} {out : List NodeAction} (h : Moves t n' out n'')
    (hm : n'.members = n.members) (hd : n'.dissemination = n.dissemination) : Moves t n out n'' :=
  .append (.aside hm hd) h

/-- A record is reported and stored. -/
theorem Moves.change (hr : Sourced t n r) (hne : r.nodeId ≠ n.members.selfId)
    (hb : ∀ e ∈ n.members.get r.nodeId, r.entry.Beats e)
    (h : Moves t { n with members := n.members.put r.nodeId r.entry hne } [] n') :
    Moves t n [.membershipChanged r] n' :=
  .append (.report n r hr) (.append (.store n r hr hne hb) h)

/-- A stored record is gossiped. -/
theorem Moves.gossip {hne : r.nodeId ≠ n.members.selfId} (probe : SwimProbe) :
    Moves t { n with members := n.members.put r.nodeId r.entry hne } []
      ({ n with members := n.members.put r.nodeId r.entry hne, probe := probe }.enqueue r) :=
  (Moves.enqueue { n with members := n.members.put r.nodeId r.entry hne, probe := probe } r
    (.held r.entry ((n.members.get_put _ _ _ hne).trans (if_pos rfl)) rfl)).after rfl rfl

/-- A message takes its piggyback from the queue, whatever relays are pending. -/
theorem Moves.relay (n : SwimNode) (relays : List PendingRelay)
    {message : List MembershipUpdate → NodeAction} (hm : ∀ pb, (message pb).records = pb) :
    Moves t n ({ n with pendingRelays := relays }.piggybacked message).2
      ({ n with pendingRelays := relays }.piggybacked message).1 :=
  (Moves.send { n with pendingRelays := relays } message hm).after rfl rfl

theorem Enters.moves {id : NodeId} {out : SwimNode × List NodeAction} (h : Enters n id out) :
    Moves t n out.2 out.1 := by
  cases h with
  | known => exact .aside rfl rfl
  | entered hne hb hn' =>
    refine .change (r := ⟨id, .alive, 0⟩) (.fresh rfl) hne hb ?_
    obtain rfl | rfl := hn'
    · exact .aside rfl rfl
    · exact .gossip n.probe

section

variable (n : SwimNode)

theorem completeRelay_moves (sender : NodeId) (sequence : ℕ) :
    Moves t n (n.completeRelay sender sequence).2 (n.completeRelay sender sequence).1 := by
  unfold completeRelay
  dsimp only
  split
  · exact .relay n _ fun _ => rfl
  · exact .aside rfl rfl

theorem applyMembershipUpdate_moves {u : MembershipUpdate} (h : t.refutes) (hu : t.given u) :
    Moves t n (n.applyMembershipUpdate u).2 (n.applyMembershipUpdate u).1 := by
  obtain hn | ⟨-, -, -, hn⟩ | ⟨hne, hb, hn⟩ := n.applyMembershipUpdate_cases u <;> rw [hn]
  · exact .aside rfl rfl
  · exact .append (.refute n h) (.enqueue _ _ (.own rfl rfl))
  · exact .change (.given hu hne) hne hb (.gossip _)

theorem applyJoinRecord_moves (h : t.clears) (hr : t.given r) :
    Moves t n (n.applyJoinRecord r).2 (n.applyJoinRecord r).1 := by
  have hroom : Moves t n [] (n.makeRoom r) := by
    unfold makeRoom
    split_ifs
    · obtain ⟨hn, -⟩ | ⟨i, -, hn⟩ := n.clearDeadMember_cases r.nodeId <;> rw [hn]
      · exact .aside rfl rfl
      · exact .clear n r.nodeId h
    · exact .aside rfl rfl
  obtain ⟨hn, -⟩ | ⟨hne, hb, hn⟩ := n.applyJoinRecord_cases r <;> rw [hn]
  · exact hroom
  · exact .append hroom (.change (.given hr hne) hne hb (.aside rfl rfl))

theorem translateProbeAction_moves (a : SwimAction) :
    Moves t n (n.translateProbeAction a).2 (n.translateProbeAction a).1 := by
  cases a with
  | sendPing dest sequence =>
    have haccused : Moves t n [] (n.enqueueAccusation dest) := by
      unfold enqueueAccusation
      split
      next e hg =>
        split_ifs
        · exact .enqueue n _ (.held e hg rfl)
        · exact .aside rfl rfl
      next => exact .aside rfl rfl
    exact .append haccused (.send _ _ fun _ => rfl)
  | sendPingReq relay target sequence => exact .send n _ fun _ => rfl
  | suspect id =>
    obtain h | ⟨i, hg, h⟩ := n.translate_suspect_cases id <;> rw [h]
    · exact .aside rfl rfl
    · exact .change (r := ⟨id, .suspect, i⟩) (.held _ hg rfl) (n.members.ne_self_of_get hg)
        (n.members.beats_of_get hg (show _ < MemberState.suspect by decide)) (.gossip n.probe)
  | declareDead id =>
    unfold translateProbeAction
    dsimp only
    split
    next e hg => exact .append (.report n _ (.held e hg rfl)) (.enqueue n _ (.held e hg rfl))
    next => exact .aside rfl rfl
  | diag event => exact .aside rfl rfl

/-- The expiry of timers, seen in a node with that probe machine and those members. -/
theorem expire_moves (s : SwimProbe × MemberList) (id : NodeId) :
    Moves t { n with probe := s.1, members := s.2 } []
      { n with probe := (SwimProbe.expire s id).1.1, members := (SwimProbe.expire s id).1.2 } := by
  obtain ⟨-, h⟩ | ⟨i, phase, hg, h⟩ := SwimProbe.expire_cases s.1 s.2 id <;> rw [h]
  · exact .aside rfl rfl
  · exact .append (.store { n with probe := s.1, members := s.2 } ⟨id, .dead, i⟩ (.held _ hg rfl)
      (s.2.ne_self_of_get hg) (s.2.beats_of_get hg (show _ < MemberState.dead by decide)))
      (.aside rfl rfl)

theorem stepProbe_moves (event : SwimEvent) :
    Moves t n (n.stepProbe event).2 (n.stepProbe event).1 := by
  let stepped := n.probe.step n.clock event n.members
  have hsequential : Sequential fun (s : SwimProbe × MemberList) (_ : List SwimAction) s' =>
      Moves t { n with probe := s.1, members := s.2 } []
        { n with probe := s'.1, members := s'.2 } :=
    ⟨fun _ => .aside rfl rfl, fun h h' => .append h h'⟩
  have hstep : Moves t n [] { n with probe := stepped.1.1, members := stepped.1.2 } := by
    cases event with
    | tick =>
      let timed := ({ n.probe with
        now := n.clock
        stepCounter := wrappingAdd n.probe.stepCounter 1 }.checkProbeTimeout n.members).1
      let expired := (timed.checkSuspicionTimeouts n.members).1
      have hexpired : Moves t { n with probe := timed } []
          { n with probe := expired.1, members := expired.2 } :=
        hsequential.collect (expire_moves n) (timed, n.members) _
      have hfirst : Moves t n [] { n with probe := expired.1, members := expired.2 } :=
        hexpired.after rfl rfl
      exact hfirst.append (.aside rfl rfl)
    | ackReceived | indirectAckReceived | sendFailed => exact .aside rfl rfl
  exact .append hstep (moves_sequential.collect translateProbeAction_moves _ _)

end

end Moves

/-- The records a call hands to the node. -/
def Call.records : Call → List NodeRecord
  | .ping _ _ piggyback | .ack _ _ piggyback | .pingReq _ _ _ piggyback
  | .indirectAck _ _ piggyback => piggyback
  | .joinResponse members => members
  | .tick _ | .joinRequest _ | .sendFailure _ | .leave => []

/-- The gossip a call hands to the node. The members of a join response are no gossip: records
of the node itself are skipped there. -/
def Call.gossip : Call → List MembershipUpdate
  | .ping _ _ piggyback | .ack _ _ piggyback | .pingReq _ _ _ piggyback
  | .indirectAck _ _ piggyback => piggyback
  | .tick _ | .joinRequest _ | .joinResponse _ | .sendFailure _ | .leave => []

/-- The steps of the gossip of a call, and those of what the call does after it. -/
theorem call_moves (n : SwimNode) (c : Call) {given : NodeRecord → Prop}
    (h : ∀ r ∈ c.records, given r) :
    Moves ⟨given, False, True⟩ n (n.applyPiggyback c.gossip).2 (n.applyPiggyback c.gossip).1 ∧
      ∃ out, (n.call c).2 = (n.applyPiggyback c.gossip).2 ++ out ∧
        Moves ⟨given, ∃ members, c = .joinResponse members, False⟩ (n.applyPiggyback c.gossip).1 out
          (n.call c).1 := by
  have hgossip : ∀ u ∈ c.gossip, given u := by
    cases c <;> first | exact h | simp [Call.gossip]
  refine ⟨moves_sequential.collect_guarded
    (fun n _ hu => n.applyMembershipUpdate_moves trivial hu)
    (Machine.guarded_const.mpr hgossip), ?_⟩
  cases c with
  | tick now => exact ⟨_, rfl, (stepProbe_moves { n with clock := now } .tick).after rfl rfl⟩
  | ping sender sequence piggyback =>
    exact ⟨_, append_assoc _ _ _,
      .append (learnSender_enters _ sender).moves (.send _ _ fun _ => rfl)⟩
  | ack sender sequence piggyback =>
    exact ⟨_, append_assoc _ _ _,
      .append (stepProbe_moves _ _) (completeRelay_moves _ sender sequence)⟩
  | pingReq sender target sequence piggyback =>
    exact ⟨_, rfl, .relay _ _ fun _ => rfl⟩
  | indirectAck target sequence piggyback => exact ⟨_, rfl, stepProbe_moves _ _⟩
  | joinRequest sender =>
    exact ⟨_, rfl, .append (n.enterJoiner_enters sender).moves (.respond _ sender)⟩
  | joinResponse members =>
    refine ⟨_, rfl, moves_sequential.collect_guarded (fun n _ hr => n.applyJoinRecord_moves ?_ hr)
      (Machine.guarded_const.mpr h)⟩
    exact ⟨members, rfl⟩
  | sendFailure target => exact ⟨_, rfl, stepProbe_moves _ _⟩
  | leave => exact ⟨[], rfl, .enqueue n _ (.own rfl rfl)⟩

/-- A bound on the records of each node, where this node's own incarnation bounds its own. -/
def cap (f : NodeId → ℕ∞) (n : SwimNode) (id : NodeId) : ℕ∞ :=
  if id = n.members.selfId then n.members.selfIncarnation else f id

/-- Every record the node keeps is within the bound. -/
structure Bounded (f : NodeId → ℕ∞) (n : SwimNode) : Prop where
  members : ∀ id e, n.members.get id = some e → (e.incarnation : ℕ∞) ≤ cap f n id
  queued : ∀ v ∈ n.dissemination.updates, (v.incarnation : ℕ∞) ≤ cap f n v.nodeId

/-- A call that keeps records within the bound and sends only such records. -/
structure Keeps (f : NodeId → ℕ∞) (n : SwimNode) (actions : List NodeAction) (n' : SwimNode) :
    Prop where
  selfId : n'.members.selfId = n.members.selfId
  mono : n.members.selfIncarnation ≤ n'.members.selfIncarnation
  bounded : Bounded f n → Bounded f n'
  sent : Bounded f n → ∀ a ∈ actions, ∀ r ∈ a.records, (r.incarnation : ℕ∞) ≤ cap f n' r.nodeId

variable {f : NodeId → ℕ∞} {n n' : SwimNode}

theorem cap_mono (hid : n'.members.selfId = n.members.selfId)
    (hle : n.members.selfIncarnation ≤ n'.members.selfIncarnation) (id : NodeId) :
    cap f n id ≤ cap f n' id := by
  unfold cap
  rw [hid]
  split_ifs
  · exact_mod_cast hle
  · exact le_refl _

theorem keeps_sequential (f : NodeId → ℕ∞) : Sequential (Keeps f) where
  nil n := ⟨rfl, Nat.le_refl _, id, by simp⟩
  append h h' := by
    refine ⟨h'.selfId.trans h.selfId, h.mono.trans h'.mono, fun hb => h'.bounded (h.bounded hb),
      fun hb a ha r hr => ?_⟩
    obtain ha | ha := mem_append.mp ha
    · exact (h.sent hb a ha r hr).trans (cap_mono h'.selfId h'.mono r.nodeId)
    · exact h'.sent (h.bounded hb) a ha r hr

/-- Records of another node, or of this one at an incarnation it has reached. -/
def Allowed (f : NodeId → ℕ∞) (n : SwimNode) (r : NodeRecord) : Prop :=
  (r.incarnation : ℕ∞) ≤ cap f n r.nodeId

theorem Bounded.enqueue (h : Bounded f n) {u : MembershipUpdate} (hu : Allowed f n u) :
    Bounded f (n.enqueue u) := by
  refine ⟨h.members, fun v hv => ?_⟩
  obtain hv | rfl := mem_updates_enqueue hv
  · exact h.queued v hv
  · exact hu

theorem Bounded.put (h : Bounded f n) {u : NodeRecord} (hu : Allowed f n u)
    (hne : u.nodeId ≠ n.members.selfId) (probe : SwimProbe) :
    Bounded f { n with members := n.members.put u.nodeId u.entry hne, probe := probe } := by
  refine ⟨fun id e hg => ?_, h.queued⟩
  rw [n.members.get_put] at hg
  split_ifs at hg with hid
  · obtain rfl : u.entry = e := by simpa using hg
    rw [← hid]
    exact hu
  · exact h.members id e hg

theorem allowed_zero (id : NodeId) (state : MemberState) : Allowed f n ⟨id, state, 0⟩ := by
  simp [Allowed]

theorem allowed_of_le {u : NodeRecord} (hne : u.nodeId ≠ n.members.selfId)
    (h : (u.incarnation : ℕ∞) ≤ f u.nodeId) : Allowed f n u := by
  unfold Allowed cap
  rwa [if_neg hne]

theorem allowed_self {state : MemberState} {i : ℕ} (h : i ≤ n.members.selfIncarnation) :
    Allowed f n ⟨n.members.selfId, state, i⟩ := by
  unfold Allowed cap
  rw [if_pos rfl]
  exact_mod_cast h

/-- A silent call that changes neither the own id nor the own incarnation. -/
theorem Keeps.silent (hid : n'.members.selfId = n.members.selfId)
    (hinc : n'.members.selfIncarnation = n.members.selfIncarnation)
    (h : Bounded f n → Bounded f n') : Keeps f n [] n' :=
  ⟨hid, hinc.ge, h, by simp⟩

theorem Sourced.allowed {t : Terms} {r : NodeRecord} (h : Sourced t n r)
    (hgiven : ∀ r, t.given r → (r.incarnation : ℕ∞) ≤ f r.nodeId) (hb : Bounded f n) :
    Allowed f n r := by
  obtain ⟨id, state, i⟩ := r
  cases h with
  | given h hne => exact allowed_of_le hne (hgiven _ h)
  | held e hg h =>
    obtain rfl : i = e.incarnation := h
    exact hb.members id e hg
  | fresh h =>
    obtain rfl : i = 0 := h
    exact allowed_zero id state
  | own hid h =>
    obtain rfl : id = n.members.selfId := hid
    exact allowed_self h.le

/-- Records within the bound come out if records within the bound go in. -/
theorem Moves.keeps {t : Terms} {out : List NodeAction} (h : Moves t n out n')
    (hgiven : ∀ r, t.given r → (r.incarnation : ℕ∞) ≤ f r.nodeId) : Keeps f n out n' := by
  induction h with
  | append h h' ih ih' => exact (keeps_sequential f).append ih ih'
  | aside hm hd =>
    refine .silent (by rw [hm]) (by rw [hm]) fun hb => ⟨?_, ?_⟩
    · simpa only [cap, hm] using hb.members
    · simpa only [cap, hm, hd] using hb.queued
  | send n message hm =>
    refine ⟨rfl, Nat.le_refl _, fun h => ⟨h.members, fun v hv => ?_⟩, fun h a ha r hr => ?_⟩
    · exact h.queued v (mem_updates_take hv)
    · obtain rfl := mem_singleton.mp ha
      rw [hm] at hr
      exact h.queued r (mem_of_mem_take hr)
  | enqueue n u hu => exact .silent rfl rfl fun hb => hb.enqueue (hu.allowed hgiven hb)
  | report n r hr =>
    refine ⟨rfl, Nat.le_refl _, id, fun hb a ha x hx => ?_⟩
    obtain rfl := mem_singleton.mp ha
    obtain rfl := mem_singleton.mp hx
    exact hr.allowed hgiven hb
  | respond n dest =>
    refine ⟨rfl, Nat.le_refl _, id, fun hb a ha r hr => ?_⟩
    obtain rfl := mem_singleton.mp ha
    obtain hr | hr := mem_append.mp hr
    · exact hb.members r.nodeId r.entry (n.members.mem_snapshot hr)
    · obtain rfl := mem_singleton.mp hr
      exact allowed_self (Nat.le_refl _)
  | store n r hr hne hb => exact .silent rfl rfl fun hb => hb.put (hr.allowed hgiven hb) hne n.probe
  | refute n h =>
    have hcap : ∀ id, cap f n id ≤ cap f { n with members := n.members.refute } id :=
      cap_mono rfl (Nat.le_succ _)
    exact ⟨rfl, Nat.le_succ _, fun hb => ⟨fun id e hg => (hb.members id e hg).trans (hcap id),
      fun v hv => (hb.queued v hv).trans (hcap v.nodeId)⟩, by simp⟩
  | clear n id h =>
    refine .silent rfl rfl fun hb => ⟨fun k e hg => ?_, fun v hv => ?_⟩
    · rw [n.members.get_remove] at hg
      split_ifs at hg
      exact hb.members k e hg
    · exact hb.queued v (mem_updates_purgeNode hv)

theorem call_keeps (n : SwimNode) (c : Call)
    (h : ∀ r ∈ c.records, (r.incarnation : ℕ∞) ≤ f r.nodeId) :
    Keeps f n (n.call c).2 (n.call c).1 := by
  obtain ⟨hgossip, out, hout, hrest⟩ := n.call_moves c h
  rw [hout]
  exact (keeps_sequential f).append (hgossip.keeps fun _ => id) (hrest.keeps fun _ => id)

theorem new_bounded (f : NodeId → ℕ∞) (selfId : NodeId) (config : SwimConfig) (now : ℕ) :
    Bounded f (new selfId config now) :=
  ⟨fun id e he => absurd he (by simp [new]), fun v hv => absurd hv not_mem_nil⟩

/-- In every run the records that a node has queued about itself are of incarnations it has
reached, whatever gossip it received. -/
theorem run_own_records (selfId : NodeId) (config : SwimConfig) (now : ℕ) (calls : List Call) :
    let n := (collect call (new selfId config now) calls).1
    ∀ v ∈ n.dissemination.updates, v.nodeId = n.members.selfId →
      v.incarnation ≤ n.members.selfIncarnation := by
  have h := (keeps_sequential ⊤).collect (fun n c => n.call_keeps c fun _ _ => le_top)
    (new selfId config now) calls
  intro n v hv hid
  have hle := (h.bounded (new_bounded ⊤ selfId config now)).queued v hv
  unfold cap at hle
  rw [if_pos hid] at hle
  exact_mod_cast hle

/-- After the update the node has queued an alive record of itself that fits a `u64` and
replaces the accusation at every peer that stored it. -/
def RefutationWins (n : SwimNode) (u : MembershipUpdate) : Prop :=
  let refuted := (n.applyMembershipUpdate u).1
  let r := refuted.selfRecord
  r ∈ refuted.dissemination.updates ∧ r.incarnation ≤ u64Max ∧
    ∀ peer : MemberList, peer.get u.nodeId = some u.entry →
      (peer.apply r.nodeId r.state r.incarnation).2 = true ∧
        (peer.apply r.nodeId r.state r.incarnation).1.get u.nodeId = some r.entry

/-- An alive record of the node replaces the accusation at a peer exactly if its incarnation
is higher. -/
theorem apply_alive_iff {peer : MemberList} {u : NodeRecord} (hg : peer.get u.nodeId = some u.entry)
    (i : ℕ) :
    ((peer.apply u.nodeId .alive i).2 = true ∧
        (peer.apply u.nodeId .alive i).1.get u.nodeId = some ⟨.alive, i⟩) ↔
      u.incarnation < i := by
  have hbeats : (⟨.alive, i⟩ : MemberEntry).Beats u.entry ↔ u.incarnation < i := by
    refine ⟨fun h => ?_, Or.inl⟩
    obtain h | ⟨-, h⟩ := h
    · exact h
    · exact absurd (Nat.not_lt_zero u.state.priority h) (by simp)
  constructor
  · intro happ
    by_contra hle
    have hsame := peer.apply_of_not_beats (u := ⟨u.nodeId, .alive, i⟩) hg
      fun h => hle (hbeats.mp h)
    exact absurd (happ.1.symm.trans (congrArg Prod.snd hsame)) (by simp)
  · intro hlt
    have hput := peer.apply_of_beats (u := ⟨u.nodeId, .alive, i⟩) (peer.ne_self_of_get hg)
      (fun e he => by
        obtain rfl : u.entry = e := by simpa using hg.symm.trans he
        exact hbeats.mpr hlt)
    refine ⟨congrArg Prod.snd hput, ?_⟩
    rw [congrArg Prod.fst hput, peer.get_put, if_pos rfl]
    rfl

/-- A peer that stored the accusation. -/
theorem exists_peer (u : NodeRecord) : ∃ peer : MemberList, peer.get u.nodeId = some u.entry := by
  obtain ⟨k, hk⟩ := exists_ne u.nodeId
  have hne : u.nodeId ≠ (MemberList.new k).selfId := hk.symm
  exact ⟨(MemberList.new k).put u.nodeId u.entry hne, by rw [MemberList.get_put, if_pos rfl]⟩

/-- In every run, an accusation that passes the gate is beaten by the refutation exactly if it
is at the node's incarnation and the next one fits a `u64`. -/
theorem refutation_wins_iff (selfId : NodeId) (config : SwimConfig) (now : ℕ) (calls : List Call)
    (u : MembershipUpdate) :
    let n := (collect call (new selfId config now) calls).1
    u.nodeId = n.members.selfId → (u.state = .suspect ∨ u.state = .dead) →
      u.incarnation ≥ n.members.selfIncarnation →
      (n.RefutationWins u ↔
        u.incarnation = n.members.selfIncarnation ∧ n.members.selfIncarnation < u64Max) := by
  intro n hself hstate hgate
  have hrefute : n.applyMembershipUpdate u = ({ n with members := n.members.refute }.enqueue
      ⟨n.members.selfId, .alive, n.members.selfIncarnation + 1⟩, []) := by
    unfold applyMembershipUpdate
    rw [if_pos hself, if_pos ⟨hstate, hgate⟩]
    rfl
  have hrecord : (n.applyMembershipUpdate u).1.selfRecord =
      ⟨u.nodeId, .alive, n.members.selfIncarnation + 1⟩ := by
    rw [hrefute, hself]
    rfl
  have hqueued : (⟨u.nodeId, .alive, n.members.selfIncarnation + 1⟩ : NodeRecord) ∈
      (n.applyMembershipUpdate u).1.dissemination.updates := by
    rw [hrefute, hself]
    refine mem_updates_enqueue_of_beats (fun v hv hid => ?_) _
    exact Or.inl (Nat.lt_succ_of_le (run_own_records selfId config now calls v hv hid))
  unfold RefutationWins
  dsimp only
  rw [hrecord]
  constructor
  · rintro ⟨-, hfits, hwins⟩
    obtain ⟨peer, hpeer⟩ := exists_peer u
    have hlt := (apply_alive_iff hpeer _).mp (hwins peer hpeer)
    dsimp only at hlt hfits
    omega
  · rintro ⟨heq, hlt⟩
    refine ⟨hqueued, hlt, fun peer hpeer => ?_⟩
    exact (apply_alive_iff hpeer (n.members.selfIncarnation + 1)).mpr (by omega)

/-- A fresh node that is suspected at incarnation zero refutes it. -/
theorem refutation_wins_at_equal_incarnation :
    (new 0 SwimConfig.default 0).RefutationWins ⟨0, .suspect, 0⟩ :=
  (refutation_wins_iff 0 SwimConfig.default 0 [] ⟨0, .suspect, 0⟩ rfl (Or.inl rfl)
    (Nat.le_refl 0)).mpr ⟨rfl, by decide⟩

/-- A restarted node is accused at the incarnation of its former life; its refutation at
incarnation one does not reach the peers. -/
theorem refutation_loses_after_restart :
    ¬ (new 0 SwimConfig.default 0).RefutationWins ⟨0, .dead, 5⟩ := by
  intro h
  obtain ⟨peer, hpeer⟩ := exists_peer ⟨0, .dead, 5⟩
  have hlt := (apply_alive_iff hpeer _).mp (h.2.2 peer hpeer)
  exact absurd hlt (by decide)

end SwimNode
end Swactor.Swim
