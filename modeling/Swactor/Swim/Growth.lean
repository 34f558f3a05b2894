import Swactor.Swim.Provenance

/-!
# Membership only grows

What is stored of a node is the maximum of what was applied, by incarnation and then state, in
whatever order it arrives. The handlers of a node store nothing below what they find. The entry of
a dead member goes only to make room for a record of a join response.
-/
namespace Swactor.Swim
open MemberList

def MemberEntry.rank (e : MemberEntry) : ℕ ×ₗ MemberState := toLex (e.incarnation, e.state)

theorem MemberEntry.rank_lt_iff {old new : MemberEntry} : old.rank < new.rank ↔ new.Beats old := by
  simp only [rank, Prod.Lex.toLex_lt_toLex, Beats, eq_comm]

namespace MemberList

/-- The rank of what is stored of a node, or bottom. -/
def stored (l : MemberList) (id : NodeId) : WithBot (ℕ ×ₗ MemberState) :=
  (l.get id).elim ⊥ fun e => e.rank

/-- Apply an update. -/
def merge (l : MemberList) (u : MembershipUpdate) : MemberList :=
  (l.apply u.nodeId u.state u.incarnation).1

variable {l : MemberList} {id k : NodeId} {e : MemberEntry} {u : MembershipUpdate}

theorem stored_put (h : k ≠ l.selfId) :
    (l.put k e h).stored id = if k = id then ↑e.rank else l.stored id := by
  rw [stored, get_put]
  split_ifs <;> rfl

theorem stored_lt_iff : l.stored id < e.rank ↔ ∀ old ∈ l.get id, e.Beats old := by
  unfold stored
  cases l.get id with
  | none => simp
  | some old => simp [MemberEntry.rank_lt_iff]

theorem stored_self : l.stored l.selfId = ⊥ := by
  rw [stored, get_self]
  rfl

theorem selfId_merge : (l.merge u).selfId = l.selfId := by
  unfold merge
  obtain happ | ⟨_, _, happ⟩ := l.apply_cases u
  · rw [happ]
  · rw [happ]
    rfl

/-- An update of another node raises what is stored of it to the maximum. -/
theorem stored_merge : (l.merge u).stored id =
    if u.nodeId = id ∧ id ≠ l.selfId then l.stored id ⊔ u.entry.rank else l.stored id := by
  unfold merge
  by_cases hself : u.nodeId = l.selfId
  · rw [l.apply_self hself, if_neg]
    rintro ⟨rfl, hne⟩
    exact hne hself
  by_cases hbeats : ∀ old ∈ l.get u.nodeId, u.entry.Beats old
  · have hlt := stored_lt_iff.mpr hbeats
    rw [l.apply_of_beats hself hbeats, stored_put]
    by_cases hid : u.nodeId = id
    · subst hid
      rw [if_pos rfl, if_pos ⟨rfl, hself⟩, sup_eq_right.mpr hlt.le]
    · rw [if_neg hid, if_neg (mt And.left hid)]
  · have hle := not_lt.mp (mt stored_lt_iff.mp hbeats)
    push Not at hbeats
    obtain ⟨old, hold, hbeats⟩ := hbeats
    rw [l.apply_of_not_beats hold hbeats]
    split_ifs with hid
    · rw [← hid.1, sup_eq_left.mpr hle]
    · rfl

/-- What is stored after any number of updates. -/
theorem stored_foldl_merge (updates : List MembershipUpdate) :
    (updates.foldl merge l).stored id =
      if id = l.selfId then ⊥
      else l.stored id ⊔ (((updates : Multiset MembershipUpdate).filter fun u => u.nodeId = id).map
        fun u => (u.entry.rank : WithBot (ℕ ×ₗ MemberState))).sup := by
  induction updates generalizing l with
  | nil =>
    split_ifs with hself
    · rw [List.foldl_nil, hself, stored_self]
    · simp
  | cons u updates ih =>
    rw [List.foldl_cons, ih, selfId_merge, stored_merge, ← Multiset.cons_coe]
    split_ifs with hself hu
    · rfl
    · simp [hu.1, sup_assoc]
    · have hother : u.nodeId ≠ id := fun h => hu ⟨h, hself⟩
      simp [hother]

/-- An update says whether it has raised what is stored. -/
theorem apply_snd_iff : (l.apply u.nodeId u.state u.incarnation).2 = true ↔
    l.stored u.nodeId < (l.merge u).stored u.nodeId := by
  unfold merge
  obtain happ | ⟨hself, hbeats, happ⟩ := l.apply_cases u
  · simp [happ]
  · simp [happ, stored_put, stored_lt_iff.mpr hbeats]

/-- No entry falls or goes. -/
def Grows (l l' : MemberList) : Prop := ∀ id, l.stored id ≤ l'.stored id

theorem Grows.refl (l : MemberList) : l.Grows l := fun _ => le_rfl

theorem grows_put {entry : MemberEntry} (hne : id ≠ l.selfId)
    (hbeats : ∀ old ∈ l.get id, entry.Beats old) : l.Grows (l.put id entry hne) := by
  intro k
  rw [stored_put]
  split_ifs with hk
  · subst hk
    exact (stored_lt_iff.mpr hbeats).le
  · exact le_rfl

end MemberList

namespace SwimNode

open MemberList (Grows)

theorem Moves.grows {t : Terms} {n n' : SwimNode} {out : List NodeAction} (h : Moves t n out n')
    (hkept : ¬ t.clears) : Grows n.members n'.members := by
  induction h with
  | append _ _ ih ih' => exact fun id => (ih id).trans (ih' id)
  | aside hm => exact fun id => (congrArg (·.stored id) hm.symm).le
  | send n | enqueue n | report n | respond n | refute n => exact .refl n.members
  | store n r _ hne hb => exact grows_put hne hb
  | clear n id h => exact absurd h hkept

theorem call_grows (n : SwimNode) (c : Call) (h : ¬ ∃ members, c = .joinResponse members) :
    Grows n.members (n.call c).1.members := by
  obtain ⟨hgossip, out, -, hrest⟩ := n.call_moves c fun _ _ => trivial
  exact fun id => (hgossip.grows (fun h => h) id).trans (hrest.grows h id)

/-- After any updates in any order the list has the maximum of those of each other node, and an
update reports whether it raised what is stored. No call but a join response lets an entry fall or
go, and clearing a dead member takes the entry of that node alone, if it is dead. -/
theorem membership_only_grows :
    (∀ (selfId : NodeId) (updates : List MembershipUpdate) (id : NodeId),
      (updates.foldl merge (.new selfId)).stored id =
        if id = selfId then ⊥
        else (((updates : Multiset MembershipUpdate).filter fun u => u.nodeId = id).map
          fun u => (u.entry.rank : WithBot (ℕ ×ₗ MemberState))).sup) ∧
    (∀ (l : MemberList) (u : MembershipUpdate),
      (l.apply u.nodeId u.state u.incarnation).2 = true ↔
        l.stored u.nodeId < (l.apply u.nodeId u.state u.incarnation).1.stored u.nodeId) ∧
    (∀ (n : SwimNode) (c : Call), (∃ members, c = .joinResponse members) ∨
      ∀ id, n.members.stored id ≤ (n.call c).1.members.stored id) ∧
    ∀ (n : SwimNode) (id other : NodeId),
      (n.clearDeadMember id).members.get other = n.members.get other ∨
        other = id ∧ ∃ i, n.members.get id = some ⟨.dead, i⟩ := by
  refine ⟨fun selfId updates id => ?_, fun l u => ?_, fun n c => ?_, fun n id other => ?_⟩
  · have hnew : (MemberList.new selfId).stored id = ⊥ := by simp [MemberList.stored]
    rw [stored_foldl_merge, hnew, bot_sup_eq]
    rfl
  · exact apply_snd_iff
  · by_cases h : ∃ members, c = .joinResponse members
    · exact .inl h
    · exact .inr (call_grows n c h)
  · obtain ⟨h, -⟩ | ⟨i, hdead, h⟩ := n.clearDeadMember_cases id <;> rw [h]
    · exact .inl rfl
    · by_cases hother : id = other
      · exact .inr ⟨hother.symm, i, hdead⟩
      · exact .inl (by rw [MemberList.get_remove, if_neg hother])

/-- Making room for a record of a join response is an operation of its own. -/
theorem dead_member_cleared :
    let n := ((new 0 .default 0).handlePing 2 1 [⟨1, .dead, 0⟩]).1
    n.members.get 1 = some ⟨.dead, 0⟩ ∧ (n.clearDeadMember 1).members.get 1 = none := by
  decide +kernel

end SwimNode
end Swactor.Swim
