import Swactor.Swim.Provenance

/-!
# What a node says of itself after it left

Leaving queues a dead record at the own incarnation and sets no flag. The handlers of
gossip go on refuting accusations, and the node's own dead record is one. The
incarnation a node left with stays its incarnation exactly as long as it is not
accused at it or above. That long it sends no record of itself above it.
-/
namespace Swactor.Swim
open Machine (collect)
namespace SwimNode

/-- The update accuses the node `selfId` at the incarnation `i` or above. -/
def Accuses (selfId : NodeId) (i : ℕ) (u : MembershipUpdate) : Prop :=
  u.nodeId = selfId ∧ (u.state = .suspect ∨ u.state = .dead) ∧ u.incarnation ≥ i

/-- Nothing that the calls gossip accuses the node at the incarnation `i` or above. -/
def Unaccused (selfId : NodeId) (i : ℕ) (calls : List Call) : Prop :=
  ∀ c ∈ calls, ∀ u ∈ c.gossip, ¬ Accuses selfId i u

/-- A call that leaves the node's id and incarnation alone. -/
structure KeepsSelf (n n' : SwimNode) : Prop where
  selfId : n'.members.selfId = n.members.selfId
  incarnation : n'.members.selfIncarnation = n.members.selfIncarnation

theorem Moves.keepsSelf {t : Terms} {n n' : SwimNode} {out : List NodeAction} (h : Moves t n out n')
    (hquiet : ¬ t.refutes) : KeepsSelf n n' := by
  induction h with
  | append _ _ ih ih' =>
    exact ⟨ih'.selfId.trans ih.selfId, ih'.incarnation.trans ih.incarnation⟩
  | aside hm => exact ⟨congrArg _ hm, congrArg _ hm⟩
  | send | enqueue | report | respond | store | clear => exact ⟨rfl, rfl⟩
  | refute n h => exact absurd h hquiet

section

variable (n : SwimNode)

/-- Past its gossip a call leaves the id and the incarnation alone. -/
theorem call_keepsSelf (c : Call) : KeepsSelf (n.applyPiggyback c.gossip).1 (n.call c).1 := by
  obtain ⟨-, out, -, hrest⟩ := n.call_moves c fun r _ => trivial
  exact hrest.keepsSelf fun h => h

/-- Gossip raises the incarnation exactly if it is an accusation at it or above. -/
theorem applyMembershipUpdate_incarnation_eq_iff (u : MembershipUpdate) :
    (n.applyMembershipUpdate u).1.members.selfIncarnation = n.members.selfIncarnation ↔
      ¬ Accuses n.members.selfId n.members.selfIncarnation u := by
  by_cases hacc : Accuses n.members.selfId n.members.selfIncarnation u
  · obtain ⟨hself, hgate⟩ := hacc
    have hrefute : (n.applyMembershipUpdate u).1.members = n.members.refute := by
      unfold applyMembershipUpdate
      rw [if_pos hself, if_pos hgate]
      rfl
    simp [hrefute, MemberList.refute, Accuses, hself, hgate]
  · obtain h | ⟨hself, hstate, hge, -⟩ | ⟨hne, -, h⟩ := n.applyMembershipUpdate_cases u
    · simp [h, hacc]
    · exact absurd ⟨hself, hstate, hge⟩ hacc
    · simp [h, hacc, enqueue, MemberList.put]

theorem applyPiggyback_incarnation_eq_iff (updates : List MembershipUpdate) :
    (n.applyPiggyback updates).1.members.selfIncarnation = n.members.selfIncarnation ↔
      ∀ u ∈ updates, ¬ Accuses n.members.selfId n.members.selfIncarnation u := by
  have hkeeps (m : SwimNode) (u : MembershipUpdate) :=
    (m.applyMembershipUpdate_moves (t := ⟨fun _ => True, False, True⟩) (u := u) trivial
      trivial).keeps (f := ⊤) fun _ _ => le_top
  refine Machine.collect_level_eq_iff (P := fun m => m.members.selfId = n.members.selfId)
    (fun i u => ¬ Accuses n.members.selfId i u)
    (fun m u hm => (hkeeps m u).selfId.trans hm) (fun m u => (hkeeps m u).mono)
    (fun m u hm => ?_) rfl updates
  rw [← hm]
  exact m.applyMembershipUpdate_incarnation_eq_iff u

/-- Over a run a node keeps its incarnation exactly if it is not accused at it or above. -/
theorem run_incarnation_eq_iff (calls : List Call) :
    (collect call n calls).1.members.selfIncarnation = n.members.selfIncarnation ↔
      Unaccused n.members.selfId n.members.selfIncarnation calls := by
  have hkeeps (m : SwimNode) (c : Call) := m.call_keeps (f := ⊤) c fun _ _ => le_top
  refine Machine.collect_level_eq_iff (P := fun m => m.members.selfId = n.members.selfId)
    (fun i c => ∀ u ∈ c.gossip, ¬ Accuses n.members.selfId i u)
    (fun m c hm => (hkeeps m c).selfId.trans hm) (fun m c => (hkeeps m c).mono)
    (fun m c hm => ?_) rfl calls
  rw [(m.call_keepsSelf c).incarnation, ← hm]
  exact m.applyPiggyback_incarnation_eq_iff c.gossip

end

/-- In every run, after the node left and as long as it is not accused at the incarnation it
left with or above, no record of itself that it sends is above that incarnation. -/
theorem leave_final (selfId : NodeId) (config : SwimConfig) (now : ℕ) (before later : List Call) :
    let left := ((collect call (new selfId config now) before).1.call .leave).1
    Unaccused selfId left.members.selfIncarnation later →
      ∀ a ∈ (collect call left later).2, ∀ r ∈ a.records, r.nodeId = selfId →
        r.incarnation ≤ left.members.selfIncarnation := by
  intro left hquiet a ha r hr hself
  have hkeeps (n : SwimNode) (calls : List Call) :=
    (keeps_sequential ⊤).collect (fun n c => n.call_keeps c fun _ _ => le_top) n calls
  have hleft : Keeps ⊤ (new selfId config now) _ left :=
    (keeps_sequential ⊤).append (hkeeps (new selfId config now) before)
      (call_keeps _ .leave fun _ _ => le_top)
  have hid : left.members.selfId = selfId := hleft.selfId
  have hstays := (left.run_incarnation_eq_iff later).mpr (hid.symm ▸ hquiet)
  have hle := (hkeeps left later).sent (hleft.bounded (new_bounded ⊤ selfId config now)) a ha r hr
  unfold cap at hle
  rw [if_pos (hself.trans (hid.symm.trans (hkeeps left later).selfId.symm)), hstays] at hle
  exact_mod_cast hle

/-- A node that left answers a ping with gossip of others. -/
theorem leave_final_unaccused :
    let left := ((new 0 SwimConfig.default 0).call .leave).1
    ∀ a ∈ (collect call left [.ping 1 1 [⟨2, .dead, 4⟩], .tick 30]).2, ∀ r ∈ a.records,
      r.nodeId = 0 → r.incarnation ≤ 0 :=
  leave_final 0 SwimConfig.default 0 [] [.ping 1 1 [⟨2, .dead, 4⟩], .tick 30]
    (by simp [Unaccused, Call.gossip, Accuses])

/-- A node that left sends its dead record, gets it back and sends an alive record of the next
incarnation. -/
theorem leave_refuted_by_echo :
    let left := ((new 0 SwimConfig.default 0).call .leave).1
    left.members.selfIncarnation = 0 ∧
      (collect call left [.ping 1 1 [], .ping 1 2 [⟨0, .dead, 0⟩]]).2 =
        [.membershipChanged ⟨1, .alive, 0⟩, .sendAck 1 1 [⟨0, .dead, 0⟩],
          .sendAck 1 2 [⟨0, .alive, 1⟩]] := by
  decide +kernel

end SwimNode
end Swactor.Swim
