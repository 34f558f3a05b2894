import Swactor.Swim.MemberList

/-!
# The dissemination queue

Membership updates wait in a queue until they have been piggybacked on a number
of messages. Piggybacks travel as lists of updates: what a receiver decodes from
an arbitrary byte string is some such list.
-/
namespace Swactor.Swim

open List

/-- A queued update with the number of transmissions it has left. -/
structure DisseminationEntry where
  update : MembershipUpdate
  remaining : ℕ
  deriving DecidableEq, Repr

structure DisseminationQueue where
  entries : List DisseminationEntry
  lambda : ℕ
  deriving DecidableEq, Repr

namespace DisseminationQueue

def new (lambda : ℕ) : DisseminationQueue := ⟨[], lambda⟩

section

variable (q : DisseminationQueue)

/-- `Λ * max(ceil(log2(max(n, 2))), 1)`. -/
def transmitBudget (clusterSize : ℕ) : ℕ :=
  q.lambda * max (Nat.clog 2 (max clusterSize 2)) 1

/-- Queue an update. The first queued update of the same node is replaced if the new one
beats it; otherwise the new one is dropped. -/
def enqueue (update : MembershipUpdate) (clusterSize : ℕ) : DisseminationQueue :=
  let queued : DisseminationEntry := ⟨update, q.transmitBudget clusterSize⟩
  match q.entries.find? fun e => e.update.nodeId = update.nodeId with
  | some existing =>
      if update.entry.Beats existing.update.entry then
        { q with entries := q.entries.replaceF fun e =>
            if e.update.nodeId = update.nodeId then some queued else none }
      else q
  | none => { q with entries := q.entries ++ [queued] }

/-- The order in which updates are sent: highest priority first, oldest first within one. -/
def bySendOrder : List DisseminationEntry :=
  q.entries.insertionSort fun a b => b.update.state.priority ≤ a.update.state.priority

/-- Take up to `maxCount` updates for a message and evict those that are spent. -/
def take (q : DisseminationQueue) (maxCount : ℕ) : DisseminationQueue × List MembershipUpdate :=
  let taken := q.bySendOrder.take maxCount
  let spent := taken.map fun e => { e with remaining := e.remaining - 1 }
  ({ q with entries := (spent ++ q.bySendOrder.drop maxCount).filter fun e => e.remaining > 0 },
    taken.map DisseminationEntry.update)

/-- Drop the pending updates about a node. -/
def purgeNode (id : NodeId) : DisseminationQueue :=
  { q with entries := q.entries.filter fun e => e.update.nodeId ≠ id }

/-- The updates that wait in the queue. -/
def updates : List MembershipUpdate :=
  q.entries.map DisseminationEntry.update

end

variable {q : DisseminationQueue} {u v : MembershipUpdate}

theorem mem_replaceF {e x : DisseminationEntry} {p : DisseminationEntry → Prop} [DecidablePred p]
    {xs : List DisseminationEntry} (h : x ∈ xs.replaceF fun y => if p y then some e else none) :
    x ∈ xs ∨ x = e := by
  induction xs with
  | nil => exact Or.inl h
  | cons y ys ih =>
    by_cases hy : p y
    · simp only [replaceF, hy, if_true, mem_cons] at h
      obtain rfl | h := h
      · exact Or.inr rfl
      · exact Or.inl (mem_cons_of_mem y h)
    · simp only [replaceF, hy, if_false, mem_cons] at h
      obtain rfl | h := h
      · exact Or.inl mem_cons_self
      · exact (ih h).imp_left (mem_cons_of_mem y)

theorem mem_updates_enqueue {n : ℕ} (h : v ∈ (q.enqueue u n).updates) : v ∈ q.updates ∨ v = u := by
  obtain ⟨e, he, rfl⟩ := mem_map.mp h
  have hmem : e ∈ q.entries ∨ e.update = u := by
    unfold enqueue at he
    split at he
    · split_ifs at he
      · exact (mem_replaceF he).imp_right (congrArg DisseminationEntry.update)
      · exact Or.inl he
    · obtain he | he := mem_append.mp he
      · exact Or.inl he
      · exact Or.inr (mem_singleton.mp he ▸ rfl)
  exact hmem.imp_left mem_map_of_mem

theorem mem_bySendOrder {e : DisseminationEntry} : e ∈ q.bySendOrder ↔ e ∈ q.entries :=
  mem_insertionSort _

theorem mem_updates_take {n : ℕ} (h : v ∈ (q.take n).1.updates) : v ∈ q.updates := by
  obtain ⟨e, he, rfl⟩ := mem_map.mp h
  obtain he | he := mem_append.mp (mem_of_mem_filter he)
  · obtain ⟨x, hx, rfl⟩ := mem_map.mp he
    exact mem_map.mpr ⟨x, mem_bySendOrder.mp (mem_of_mem_take hx), rfl⟩
  · exact mem_map_of_mem (mem_bySendOrder.mp (mem_of_mem_drop he))

theorem mem_of_mem_take {n : ℕ} (h : v ∈ (q.take n).2) : v ∈ q.updates := by
  obtain ⟨e, he, rfl⟩ := mem_map.mp h
  exact mem_map_of_mem (mem_bySendOrder.mp (mem_of_mem_take he))

theorem mem_updates_purgeNode {id : NodeId} (h : v ∈ (q.purgeNode id).updates) :
    v ∈ q.updates := by
  obtain ⟨e, he, rfl⟩ := mem_map.mp h
  exact mem_map_of_mem (mem_of_mem_filter he)

theorem mem_replaceF_of_find {e x : DisseminationEntry} {p : DisseminationEntry → Prop}
    [DecidablePred p] {xs : List DisseminationEntry} (h : xs.find? (fun y => p y) = some x) :
    e ∈ xs.replaceF fun y => if p y then some e else none := by
  induction xs with
  | nil => exact absurd h (by simp)
  | cons y ys ih =>
    by_cases hy : p y
    · simp [replaceF, hy]
    · simp only [find?_cons, hy, decide_false] at h
      simp only [replaceF, hy, if_false]
      exact mem_cons_of_mem y (ih h)

/-- An update that beats every queued update of its node is queued. -/
theorem mem_updates_enqueue_of_beats (h : ∀ v ∈ q.updates, v.nodeId = u.nodeId →
    u.entry.Beats v.entry) (n : ℕ) : u ∈ (q.enqueue u n).updates := by
  unfold updates enqueue
  split
  next existing hfind =>
    have hid : existing.update.nodeId = u.nodeId := by simpa using find?_some hfind
    have hmem := mem_map_of_mem (f := DisseminationEntry.update)
      (mem_of_find?_eq_some hfind)
    rw [if_pos (h _ hmem hid)]
    exact mem_map_of_mem (f := DisseminationEntry.update) (mem_replaceF_of_find hfind)
  next => simp

end DisseminationQueue
end Swactor.Swim
