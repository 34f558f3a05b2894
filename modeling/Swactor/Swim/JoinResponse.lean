import Swactor.Swim.View

/-!
# What a join response can roll back

A dead entry is cleared for every alive record of a join response, whatever their incarnations, and
the record is then stored as if the member were new. No other record lowers what is stored.
-/
namespace Swactor.Swim
open Machine (Guarded guarded_iff_forall_past)

namespace SwimNode

variable {n : SwimNode} {r : NodeRecord} {id : NodeId} {e : MemberEntry}

/-- An alive record is not behind the dead entry it replaces. -/
def NotBehind (n : SwimNode) (r : NodeRecord) : Prop :=
  r.state = .alive → ∀ i, n.members.get r.nodeId = some ⟨.dead, i⟩ → i ≤ r.incarnation

theorem get_makeRoom_of_ne (n : SwimNode) (h : r.nodeId ≠ id) :
    (n.makeRoom r).members.get id = n.members.get id := by
  obtain heq | ⟨i, -, -, heq⟩ := n.makeRoom_cases r <;> rw [heq]
  rw [MemberList.get_remove, if_neg h]

/-- What a join record does to the entry of a node: nothing, or it replaces its own node's entry,
which it beats unless that was dead and the record is alive. -/
theorem get_applyJoinRecord (n : SwimNode) (r : NodeRecord) (id : NodeId) :
    (n.applyJoinRecord r).1.members.get id = n.members.get id ∨
      r.nodeId = id ∧ (n.applyJoinRecord r).1.members.get id = some r.entry ∧
        ∀ e, n.members.get id = some e → r.entry.Beats e ∨ r.state = .alive ∧ e.state = .dead := by
  obtain ⟨h, happ⟩ | ⟨hne, hb, h⟩ := n.applyJoinRecord_cases r <;> rw [h]
  · exact Or.inl (by rw [makeRoom_eq_of_apply happ])
  · rw [MemberList.get_put]
    split_ifs with hid
    · subst hid
      refine Or.inr ⟨rfl, rfl, fun e he => ?_⟩
      obtain heq | ⟨i, hr, hg, -⟩ := n.makeRoom_cases r
      · rw [heq] at hb
        exact Or.inl (hb e he)
      · obtain rfl := Option.some.inj (he.symm.trans hg)
        exact Or.inr ⟨hr, rfl⟩
    · exact Or.inl (n.get_makeRoom_of_ne hid)

theorem incarnation_applyJoinRecord (hr : n.NotBehind r) (he : n.members.get id = some e) :
    ∃ e', (n.applyJoinRecord r).1.members.get id = some e' ∧ e.incarnation ≤ e'.incarnation := by
  obtain h | ⟨rfl, h, hb⟩ := n.get_applyJoinRecord r id
  · exact ⟨e, h.trans he, le_rfl⟩
  · refine ⟨r.entry, h, ?_⟩
    obtain (hlt | ⟨heq, -⟩) | ⟨hs, hd⟩ := hb e he
    · exact hlt.le
    · exact heq.ge
    · obtain ⟨s, i⟩ := e
      obtain rfl : s = .dead := hd
      exact hr hs i he

/-- An alive record revives a dead entry, whatever their incarnations. -/
theorem get_applyJoinRecord_of_dead (hr : r.state = .alive) {i : ℕ}
    (he : n.members.get r.nodeId = some ⟨.dead, i⟩) :
    (n.applyJoinRecord r).1.members.get r.nodeId = some ⟨.alive, r.incarnation⟩ := by
  obtain ⟨-, happ⟩ | ⟨hne, -, h⟩ := n.applyJoinRecord_cases r
  · have hnone : (n.makeRoom r).members.get r.nodeId = none := by
      simp [makeRoom, hr, clearDeadMember, he, MemberList.get_remove]
    rw [makeRoom_eq_of_apply happ, he] at hnone
    cases hnone
  · rw [h]
    rw [MemberList.get_put, if_pos rfl, ← hr]
    rfl

/-- No stored incarnation is lower after a join response and dead entries are only revived by
records that are not behind, exactly if every alive record finds no dead entry that is ahead. -/
theorem join_response_never_rolls_back_iff (n : SwimNode) (records : List NodeRecord) :
    ((∀ id e, n.members.get id = some e →
        ∃ e', (n.handleJoinResponse records).1.members.get id = some e' ∧
          e.incarnation ≤ e'.incarnation) ∧
      ∀ past r, past ++ [r] <+: records → ∀ id i j,
        (n.handleJoinResponse past).1.members.get id = some ⟨.dead, i⟩ →
        (n.handleJoinResponse (past ++ [r])).1.members.get id = some ⟨.alive, j⟩ →
        r.nodeId = id ∧ i ≤ r.incarnation) ↔
    Guarded NotBehind (fun n r => (n.applyJoinRecord r).1) n records := by
  have hnext (past r) : (n.handleJoinResponse (past ++ [r])).1 =
      ((n.handleJoinResponse past).1.applyJoinRecord r).1 := by
    simp [handleJoinResponse, Machine.collect_fst]
  simp only [hnext]
  simp only [handleJoinResponse, Machine.collect_fst]
  constructor
  · rintro ⟨-, hdead⟩
    refine guarded_iff_forall_past.mpr fun past r hpast hr i hi => ?_
    exact (hdead past r hpast r.nodeId i _ hi (get_applyJoinRecord_of_dead hr hi)).2
  · intro h
    refine ⟨fun id e he => ?_, fun past r hpast id i j hi hj => ?_⟩
    · refine h.invariant (P := fun n => ∃ e', n.members.get id = some e' ∧
        e.incarnation ≤ e'.incarnation) ?_ ⟨e, he, le_rfl⟩
      rintro n r ⟨e', he', hle⟩ hr
      obtain ⟨e'', he'', hle'⟩ := incarnation_applyJoinRecord hr he'
      exact ⟨e'', he'', hle.trans hle'⟩
    · obtain hsame | ⟨rfl, hput, -⟩ := get_applyJoinRecord _ r id
      · rw [hsame, hi] at hj
        cases hj
      · have hr : r.entry = ⟨.alive, j⟩ := Option.some.inj (hput.symm.trans hj)
        exact ⟨rfl, guarded_iff_forall_past.mp h past r hpast (congrArg (·.state) hr) i hi⟩

/-- A lagging seed that has a member alive at incarnation 0 takes it back from dead at 5. -/
theorem join_response_rolls_back :
    let n := ((new 0 .default 0).handlePing 2 1 [⟨1, .dead, 5⟩]).1
    n.members.get 1 = some ⟨.dead, 5⟩ ∧
      (n.handleJoinResponse [⟨1, .alive, 0⟩]).1.members.get 1 = some ⟨.alive, 0⟩ := by
  decide +kernel

end SwimNode
end Swactor.Swim
