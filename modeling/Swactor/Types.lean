import Swactor.Lib.Maps

/-!
# Identifiers, machine counters and batches

Node identifiers and actor addresses are arrays of 32 bytes that the code only
compares, byte by byte from the first; the numbers below `2 ^ 256` in their usual
order are those arrays read big-endian. Counters of type `u64` are natural
numbers. Where the bound of the type matters their additions are written with
the release semantics, which wraps around.
-/
namespace Swactor

/-- `NodeId([u8; 32])`, ordered lexicographically by its bytes. -/
abbrev NodeId := Fin (2 ^ 256)

/-- `ActorAddress([u8; 32])`. -/
abbrev ActorAddress := Fin (2 ^ 256)

instance neZero_two_pow_256 : NeZero (2 ^ 256) := ⟨by decide⟩

instance neZero_one : NeZero 1 := ⟨by decide⟩

instance actorAddress_lawfulBEq : LawfulBEq ActorAddress := inferInstance

instance nodeId_transCmp : Std.TransCmp (compare : NodeId → NodeId → Ordering) := inferInstance

section ActorMaps

variable {V : Type*} {m : Std.ExtTreeMap ActorAddress V compare} {a b : ActorAddress} {v : V}

@[grind =]
theorem getElem?_insert_actor : (m.insert a v)[b]? = if a = b then some v else m[b]? :=
  Maps.getElem?_insert_ite

@[grind =]
theorem getElem?_erase_actor : (m.erase a)[b]? = if a = b then none else m[b]? :=
  Maps.getElem?_erase_ite

end ActorMaps

/-- `u64::MAX`. -/
def u64Max : ℕ := 2 ^ 64 - 1

/-- `a + b` on `u64` without overflow checks. -/
def wrappingAdd (a b : ℕ) : ℕ := (a + b) % 2 ^ 64

/-- `a.saturating_add(b)` on `u64`. -/
def saturatingAdd (a b : ℕ) : ℕ := min (a + b) u64Max

/-- `a + b` on `u64` with overflow checks, which stop the program on an overflow. -/
def checkedAdd (a b : ℕ) : Option ℕ := if a + b ≤ u64Max then some (a + b) else none

theorem wrappingAdd_of_le {a b : ℕ} (h : a + b ≤ u64Max) : wrappingAdd a b = a + b := by
  apply Nat.mod_eq_of_lt
  unfold u64Max at h
  omega

theorem checkedAdd_of_le {a b : ℕ} (h : a + b ≤ u64Max) :
    checkedAdd a b = some (wrappingAdd a b) := by
  rw [checkedAdd, if_pos h, wrappingAdd_of_le h]

theorem checkedAdd_eq_some {a b c : ℕ} :
    checkedAdd a b = some c ↔ a + b ≤ u64Max ∧ a + b = c := by
  simp [checkedAdd]

theorem checkedAdd_of_lt {a b : ℕ} (h : u64Max < a + b) : checkedAdd a b = none :=
  if_neg (by omega)

theorem saturatingAdd_of_le {a b : ℕ} (h : a + b ≤ u64Max) : saturatingAdd a b = a + b :=
  min_eq_left h

/-- The consecutive batches of at most `k` elements that `iter.take(k)`, repeated until it
yields nothing, collects. -/
def batches {α : Type*} (k : ℕ) (l : List α) : List (List α) :=
  (List.range ((l.length + k - 1) / k)).map fun i => (l.drop (i * k)).take k

theorem mem_of_mem_batches {α : Type*} {k : ℕ} {l b : List α} {x : α} (hb : b ∈ batches k l)
    (hx : x ∈ b) : x ∈ l := by
  obtain ⟨i, -, rfl⟩ := List.mem_map.mp hb
  exact List.mem_of_mem_drop (List.mem_of_mem_take hx)

end Swactor
