import Swactor.Types

/-!
# The SWIM member list

Each node maps the other nodes it knows to a state and an incarnation. A record
replaces a stored one if its incarnation is higher, or equal with a state of
higher priority. The owner of the list never has an entry of its own, which the
list carries as a field. An incarnation only ever grows by one at a time from
zero and is a natural number here.
-/
namespace Swactor.Swim
open Std (ExtTreeMap)

inductive MemberState
  | alive
  | suspect
  | dead
  deriving DecidableEq, Repr

namespace MemberState

/-- Override priority within one incarnation. -/
def priority : MemberState → ℕ
  | alive => 0
  | suspect => 1
  | dead => 2

theorem priority_injective : Function.Injective priority := by
  intro a b h
  cases a <;> cases b <;> first | rfl | exact absurd h (by decide)

instance : LinearOrder MemberState := LinearOrder.lift' priority priority_injective

end MemberState

/-- A `NodeRecord`; a `MembershipUpdate` has the same three fields. -/
structure NodeRecord where
  nodeId : NodeId
  state : MemberState
  incarnation : ℕ
  deriving DecidableEq, Repr

abbrev MembershipUpdate := NodeRecord

/-- The value stored for a member; its `node_id` is the key it is stored under. -/
structure MemberEntry where
  state : MemberState
  incarnation : ℕ
  deriving DecidableEq, Repr

def NodeRecord.entry (r : NodeRecord) : MemberEntry := ⟨r.state, r.incarnation⟩

def MemberEntry.toRecord (id : NodeId) (e : MemberEntry) : NodeRecord :=
  ⟨id, e.state, e.incarnation⟩

/-- The merge rule: higher incarnation, then higher state. -/
def MemberEntry.Beats (new old : MemberEntry) : Prop :=
  old.incarnation < new.incarnation ∨
    (new.incarnation = old.incarnation ∧ old.state < new.state)

instance (new old : MemberEntry) : Decidable (new.Beats old) :=
  inferInstanceAs (Decidable (_ ∨ _))

theorem MemberEntry.Beats.ne {new old : MemberEntry} (h : new.Beats old) : new ≠ old := by
  rintro rfl
  obtain h | ⟨-, h⟩ := h
  · exact lt_irrefl _ h
  · exact lt_irrefl _ h

abbrev Members := ExtTreeMap NodeId MemberEntry compare

structure MemberList where
  selfId : NodeId
  selfIncarnation : ℕ
  members : Members
  self_absent : members[selfId]? = none

namespace MemberList

def new (selfId : NodeId) : MemberList := ⟨selfId, 0, ∅, ExtTreeMap.getElem?_empty⟩

section

variable (l : MemberList)

/-- Bump the own incarnation. -/
def refute : MemberList := { l with selfIncarnation := l.selfIncarnation + 1 }

def get (id : NodeId) : Option MemberEntry := l.members[id]?

/-- All non-dead members in the order of their ids. -/
def aliveMembers : List NodeId :=
  (l.members.toList.filter fun m => m.2.state ≠ .dead).map Prod.fst

def deadMembers : List NodeId :=
  (l.members.toList.filter fun m => m.2.state = .dead).map Prod.fst

def aliveCount : ℕ := l.aliveMembers.length

def len : ℕ := l.members.size

end

theorem getElem?_insert (m : Members) (id k : NodeId) (e : MemberEntry) :
    (m.insert id e)[k]? = if id = k then some e else m[k]? := by
  simp only [Maps.getElem?_insert_ite]

theorem getElem?_erase (m : Members) (id k : NodeId) :
    (m.erase id)[k]? = if id = k then none else m[k]? := by
  simp only [Maps.getElem?_erase_ite]

section

variable (l : MemberList) (id : NodeId)

/-- Store an entry of another node. -/
def put (e : MemberEntry) (h : id ≠ l.selfId) : MemberList :=
  { l with
    members := l.members.insert id e
    self_absent := by rw [getElem?_insert, if_neg h]; exact l.self_absent }

def setState (state : MemberState) : MemberList :=
  { l with
    members := l.members.modify id fun e => { e with state := state }
    self_absent := by
      rw [ExtTreeMap.getElem?_modify]
      split_ifs with h
      · rw [Std.compare_eq_iff_eq.mp h, l.self_absent, Option.map_none]
      · exact l.self_absent }

def remove : MemberList :=
  { l with
    members := l.members.erase id
    self_absent := by rw [getElem?_erase, l.self_absent, ite_self] }

/-- Apply an update and report whether the stored state changed. -/
def apply (state : MemberState) (incarnation : ℕ) : MemberList × Bool :=
  if h : id = l.selfId then (l, false)
  else match l.get id with
    | some existing =>
        if incarnation > existing.incarnation then (l.put id ⟨state, incarnation⟩ h, true)
        else if incarnation = existing.incarnation ∧ state > existing.state then
          (l.put id ⟨state, existing.incarnation⟩ h, true)
        else (l, false)
    | none => (l.put id ⟨state, incarnation⟩ h, true)

/-- Mark a node suspect if it is alive. -/
def suspect (l : MemberList) (id : NodeId) : MemberList × Bool :=
  if (l.get id).any fun e => e.state = .alive then (l.setState id .suspect, true)
  else (l, false)

/-- Mark a node dead if it is suspect. -/
def declareDead : MemberList × Bool :=
  if (l.get id).any fun e => e.state = .suspect then (l.setState id .dead, true)
  else (l, false)

/-- The records of a join response. -/
def snapshot : List NodeRecord :=
  l.members.toList.map fun m => m.2.toRecord m.1

end

/-- The copy the probe picks its targets from. -/
def cloneShallow (original : MemberList) : MemberList :=
  original.members.toList.foldl (fun copy m => (copy.apply m.1 m.2.state m.2.incarnation).1)
    (new original.selfId)

variable (l : MemberList)

theorem get_self : l.get l.selfId = none := l.self_absent

variable {id : NodeId} {e : MemberEntry} {u : NodeRecord}

theorem ne_self_of_get (h : l.get id = some e) : id ≠ l.selfId := by
  rintro rfl
  rw [get_self] at h
  exact absurd h (by simp)

@[simp] theorem get_new (selfId id : NodeId) : (new selfId).get id = none :=
  ExtTreeMap.getElem?_empty

theorem get_put (id k : NodeId) (e : MemberEntry) (h : id ≠ l.selfId) :
    (l.put id e h).get k = if id = k then some e else l.get k :=
  getElem?_insert l.members id k e

theorem get_remove (id k : NodeId) : (l.remove id).get k = if id = k then none else l.get k :=
  getElem?_erase l.members id k

theorem get_setState (id k : NodeId) (state : MemberState) :
    (l.setState id state).get k =
      if id = k then (l.get id).map fun e => { e with state := state } else l.get k := by
  unfold get setState
  simp only [ExtTreeMap.getElem?_modify, Std.compare_eq_iff_eq]

/-- An update about another node that beats what is stored replaces it. -/
theorem apply_of_beats (hself : u.nodeId ≠ l.selfId) (h : ∀ e ∈ l.get u.nodeId, u.entry.Beats e) :
    l.apply u.nodeId u.state u.incarnation = (l.put u.nodeId u.entry hself, true) := by
  unfold apply
  rw [dif_neg hself]
  cases hg : l.get u.nodeId with
  | none => rfl
  | some e =>
    dsimp only
    obtain hlt | ⟨heq, hst⟩ := h e hg
    · exact if_pos hlt
    · change u.incarnation = e.incarnation at heq
      rw [if_neg (by omega), if_pos ⟨heq, hst⟩, ← heq]
      rfl

/-- An update that does not beat what is stored changes nothing. -/
theorem apply_of_not_beats (hg : l.get u.nodeId = some e) (h : ¬ u.entry.Beats e) :
    l.apply u.nodeId u.state u.incarnation = (l, false) := by
  unfold apply
  rw [dif_neg (l.ne_self_of_get hg), hg]
  dsimp only
  have hlt : ¬ u.incarnation > e.incarnation := fun hlt => h (Or.inl hlt)
  have hst : ¬ (u.incarnation = e.incarnation ∧ u.state > e.state) := fun hst => h (Or.inr hst)
  rw [if_neg hlt, if_neg hst]

theorem apply_self (h : u.nodeId = l.selfId) :
    l.apply u.nodeId u.state u.incarnation = (l, false) := by
  unfold apply
  rw [dif_pos h]

/-- What an update can do: nothing, or store a new winning entry of another node. -/
theorem apply_cases (u : NodeRecord) :
    (l.apply u.nodeId u.state u.incarnation = (l, false)) ∨
      ∃ h : u.nodeId ≠ l.selfId, (∀ e ∈ l.get u.nodeId, u.entry.Beats e) ∧
        l.apply u.nodeId u.state u.incarnation = (l.put u.nodeId u.entry h, true) := by
  by_cases hself : u.nodeId = l.selfId
  · exact Or.inl (l.apply_self hself)
  · by_cases hb : ∀ e ∈ l.get u.nodeId, u.entry.Beats e
    · exact Or.inr ⟨hself, hb, l.apply_of_beats hself hb⟩
    · push Not at hb
      obtain ⟨e, hg, hb⟩ := hb
      exact Or.inl (l.apply_of_not_beats hg hb)

theorem any_state_iff {state : MemberState} :
    ((l.get id).any fun e => e.state = state) = true ↔ ∃ i, l.get id = some ⟨state, i⟩ := by
  cases hg : l.get id with
  | none => simp
  | some e =>
    obtain ⟨s, i⟩ := e
    simp

theorem setState_eq_put (hg : l.get id = some e) (state : MemberState) :
    l.setState id state = l.put id { e with state := state } (l.ne_self_of_get hg) := by
  have hm : (l.setState id state).members =
      (l.put id { e with state := state } (l.ne_self_of_get hg)).members := by
    apply ExtTreeMap.ext_getElem?
    intro k
    have h₁ := l.get_setState id k state
    have h₂ := l.get_put id k { e with state := state } (l.ne_self_of_get hg)
    rw [hg] at h₁
    exact h₁.trans h₂.symm
  unfold setState put at hm ⊢
  simpa using hm

theorem suspect_cases (id : NodeId) :
    (l.suspect id = (l, false) ∧ ∀ i, l.get id ≠ some ⟨.alive, i⟩) ∨
      ∃ i, ∃ hg : l.get id = some ⟨.alive, i⟩,
        l.suspect id = (l.put id ⟨.suspect, i⟩ (l.ne_self_of_get hg), true) := by
  unfold suspect
  by_cases h : ((l.get id).any fun e => e.state = .alive) = true
  · obtain ⟨i, hi⟩ := l.any_state_iff.mp h
    exact Or.inr ⟨i, hi, by rw [if_pos h, l.setState_eq_put hi]⟩
  · exact Or.inl ⟨if_neg h, fun i hi => h (l.any_state_iff.mpr ⟨i, hi⟩)⟩

theorem declareDead_cases (id : NodeId) :
    (l.declareDead id = (l, false) ∧ ∀ i, l.get id ≠ some ⟨.suspect, i⟩) ∨
      ∃ i, ∃ hg : l.get id = some ⟨.suspect, i⟩,
        l.declareDead id = (l.put id ⟨.dead, i⟩ (l.ne_self_of_get hg), true) := by
  unfold declareDead
  by_cases h : ((l.get id).any fun e => e.state = .suspect) = true
  · obtain ⟨i, hi⟩ := l.any_state_iff.mp h
    exact Or.inr ⟨i, hi, by rw [if_pos h, l.setState_eq_put hi]⟩
  · exact Or.inl ⟨if_neg h, fun i hi => h (l.any_state_iff.mpr ⟨i, hi⟩)⟩

theorem mem_snapshot {r : NodeRecord} (h : r ∈ l.snapshot) : l.get r.nodeId = some r.entry := by
  obtain ⟨m, hm, rfl⟩ := List.mem_map.mp h
  exact ExtTreeMap.mem_toList_iff_getElem?_eq_some.mp hm

end MemberList
end Swactor.Swim
