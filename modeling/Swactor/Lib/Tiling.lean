import Mathlib

/-!
# Tilings of an interval

A list of half-open intervals covers every point a number of times, its depth there. The
depth of a list is the sum of the depths of its parts and does not depend on the order. A
list tiles an interval if it covers every point as often as the interval does: its members
are pairwise disjoint and make up the whole. Cutting a member in two, joining two that
touch and moving members between two lists keep the depth.
-/
namespace Swactor.Tiling

/-- A half-open interval. -/
structure Span (α : Type*) where
  start : α
  stop : α
deriving DecidableEq, Repr

variable {α : Type*} [LinearOrder α]

namespace Span

/-- The points of a span. -/
def points (s : Span α) : Set α := Set.Ico s.start s.stop

def Contains (s : Span α) (x : α) : Prop := s.start ≤ x ∧ x < s.stop

instance contains_decidable (s : Span α) (x : α) : Decidable (s.Contains x) :=
  inferInstanceAs (Decidable (_ ∧ _))

theorem mem_points {s : Span α} {x : α} : x ∈ s.points ↔ s.Contains x := Iff.rfl

end Span

/-- How often a list of spans covers a point. -/
def depth (spans : List (Span α)) (x : α) : ℕ := spans.countP fun s => s.Contains x

theorem depth_cons (s : Span α) (spans : List (Span α)) (x : α) :
    depth (s :: spans) x = depth [s] x + depth spans x := by
  simp only [depth, List.countP_cons, List.countP_nil]
  omega

theorem depth_append (spans spans' : List (Span α)) (x : α) :
    depth (spans ++ spans') x = depth spans x + depth spans' x :=
  List.countP_append

theorem depth_perm {spans spans' : List (Span α)} (h : spans.Perm spans') (x : α) :
    depth spans x = depth spans' x :=
  h.countP_eq _

theorem depth_singleton (s : Span α) (x : α) :
    depth [s] x = if s.Contains x then 1 else 0 := by
  simp [depth, List.countP_cons]

theorem depth_singleton_le (s : Span α) (x : α) : depth [s] x ≤ 1 := by
  rw [depth_singleton]
  split_ifs <;> omega

theorem depth_of_stop_le {s : Span α} (h : s.stop ≤ s.start) (x : α) : depth [s] x = 0 := by
  rw [depth_singleton, if_neg]
  exact fun hx => absurd (hx.1.trans_lt hx.2) (not_lt.mpr h)

/-- A cut keeps the depth. -/
theorem depth_cut {a b c : α} (hab : a ≤ b) (hbc : b ≤ c) (x : α) :
    depth [⟨a, b⟩] x + depth [⟨b, c⟩] x = depth [⟨a, c⟩] x := by
  simp only [depth_singleton, Span.Contains]
  rcases lt_or_ge x b with hx | hx
  · simp [hx, hx.trans_le hbc, not_le.mpr hx]
  · simp [hx, hab.trans hx, not_lt.mpr hx]

/-- So does joining two spans that touch. -/
theorem depth_join {s t : Span α} (hs : s.start ≤ s.stop) (ht : t.start ≤ t.stop)
    (h : s.stop = t.start) (x : α) :
    depth [⟨s.start, t.stop⟩] x = depth [s] x + depth [t] x := by
  obtain ⟨a, b⟩ := s
  obtain ⟨b', c⟩ := t
  obtain rfl : b = b' := h
  exact (depth_cut hs ht x).symm

theorem depth_pos {spans : List (Span α)} {x : α} :
    0 < depth spans x ↔ ∃ s ∈ spans, s.Contains x := by
  simp [depth, List.countP_pos_iff]

/-- The spans cover every point as often as the whole. -/
def Tiles (whole : Span α) (spans : List (Span α)) : Prop :=
  ∀ x, depth spans x = depth [whole] x

variable {whole : Span α} {spans : List (Span α)}

theorem Tiles.depth_le (h : Tiles whole spans) (x : α) : depth spans x ≤ 1 :=
  (h x).trans_le (depth_singleton_le whole x)

theorem pairwise_disjoint_of_depth_le (h : ∀ x, depth spans x ≤ 1) :
    spans.Pairwise fun s t => Disjoint s.points t.points := by
  induction spans with
  | nil => exact List.Pairwise.nil
  | cons s spans ih =>
    refine List.pairwise_cons.mpr ⟨fun t ht => ?_, ih fun x => ?_⟩
    · refine Set.disjoint_left.mpr fun x hs hxt => ?_
      have hone : depth [s] x = 1 := by rw [depth_singleton, if_pos (Span.mem_points.mp hs)]
      have hpos : 0 < depth spans x := depth_pos.mpr ⟨t, ht, Span.mem_points.mp hxt⟩
      have hle := h x
      rw [depth_cons] at hle
      omega
    · have hle := h x
      rw [depth_cons] at hle
      omega

theorem Tiles.pairwise_disjoint (h : Tiles whole spans) :
    spans.Pairwise fun s t => Disjoint s.points t.points :=
  pairwise_disjoint_of_depth_le h.depth_le

theorem Tiles.mem_iff (h : Tiles whole spans) (x : α) :
    (∃ s ∈ spans, x ∈ s.points) ↔ x ∈ whole.points := by
  have hx : (0 < depth spans x) = (0 < depth [whole] x) := by rw [h x]
  simpa [depth_pos, Span.mem_points] using hx

section Length

/-- The number of points of a span of natural numbers. -/
def Span.length (s : Span ℕ) : ℕ := s.stop - s.start

theorem sum_depth_singleton {s : Span ℕ} {n : ℕ} (h : s.start < s.stop → s.stop ≤ n) :
    ∑ x ∈ Finset.range n, depth [s] x = s.length := by
  have hfilter : (Finset.range n).filter s.Contains = Finset.Ico s.start s.stop := by
    ext x
    simp only [Finset.mem_filter, Finset.mem_range, Finset.mem_Ico, Span.Contains]
    omega
  simp only [depth_singleton, Finset.sum_ite, Finset.sum_const_zero, add_zero, Finset.sum_const,
    smul_eq_mul, mul_one]
  rw [hfilter, Nat.card_Ico, Span.length]

variable {spans : List (Span ℕ)}

/-- Summed over all points, the depth is the total length. -/
theorem sum_depth {n : ℕ} (h : ∀ s ∈ spans, s.start < s.stop → s.stop ≤ n) :
    ∑ x ∈ Finset.range n, depth spans x = (spans.map Span.length).sum := by
  induction spans with
  | nil => simp [depth]
  | cons s spans ih =>
    simp only [depth_cons s spans, Finset.sum_add_distrib, List.map_cons, List.sum_cons]
    rw [sum_depth_singleton (h s List.mem_cons_self),
      ih fun t ht => h t (List.mem_cons_of_mem s ht)]

/-- A tiling has as many points as the whole. -/
theorem Tiles.sum_length {whole : Span ℕ} (h : Tiles whole spans) :
    (spans.map Span.length).sum = whole.length := by
  have hle : ∀ s ∈ spans, s.start < s.stop → s.stop ≤ whole.stop := by
    intro s hs hlt
    have hlast : s.stop - 1 ∈ whole.points := by
      refine (h.mem_iff _).mp ⟨s, hs, Span.mem_points.mpr ?_⟩
      constructor <;> omega
    have := (Span.mem_points.mp hlast).2
    omega
  rw [← sum_depth hle, ← sum_depth_singleton (s := whole) fun _ => le_rfl]
  exact Finset.sum_congr rfl fun x _ => h x

end Length

end Swactor.Tiling
