import Mathlib

/-!
# A queue drained by popping and pushing back

A drain takes items from the front of a queue. An item that cannot leave yet is
pushed back behind the others, and nothing but a count of pops ends the drain, so
it may stop in the middle of a round. `requeue` lists what the drain lets go
followed by the queue it leaves. Among the items that stay the drain is a rotation:
those in front of a cut end up behind the rest. A drain that is a loop of some machine ends, and
takes no item twice, depending on the bound and on whether something is stuck.
-/
namespace Swactor.Requeue

open List

variable {X : Type*} (stuck : X → Bool)

/-- The items that leave within `r` pops, in order, and then the queue that is left. -/
def requeue : ℕ → List X → List X
  | 0, queue => queue
  | _ + 1, [] => []
  | r + 1, x :: queue =>
      if stuck x then requeue r (queue ++ [x]) else x :: requeue r queue

/-- How many of the stuck items the last, unfinished round has pushed back. -/
def cut (r : ℕ) (queue : List X) : ℕ :=
  if r < queue.length then (queue.take r).countP stuck
  else (r - queue.length) % queue.countP stuck

variable {stuck}

@[simp] theorem requeue_nil (r : ℕ) : requeue stuck r [] = [] := by
  cases r <;> rfl

variable {x : X} {r : ℕ} {queue : List X}

theorem requeue_stuck (h : stuck x = true) (r : ℕ) (queue : List X) :
    requeue stuck (r + 1) (x :: queue) = requeue stuck r (queue ++ [x]) := by
  simp [requeue, h]

theorem requeue_free (h : stuck x = false) (r : ℕ) (queue : List X) :
    requeue stuck (r + 1) (x :: queue) = x :: requeue stuck r queue := by
  simp [requeue, h]

theorem mem_of_mem_requeue (h : x ∈ requeue stuck r queue) : x ∈ queue := by
  induction r generalizing queue with
  | zero => exact h
  | succ r ih =>
    cases queue with
    | nil => simp at h
    | cons y queue =>
      cases hy : stuck y with
      | true =>
        rw [requeue_stuck hy] at h
        have hmem := ih h
        rw [mem_append, mem_singleton] at hmem
        rw [mem_cons]
        exact hmem.symm
      | false =>
        rw [requeue_free hy] at h
        rcases mem_cons.mp h with rfl | h
        · exact mem_cons_self
        · exact mem_cons_of_mem _ (ih h)

/-- Once only stuck items are left the drain just rotates. -/
theorem requeue_eq_rotate (h : ∀ x ∈ queue, stuck x = true) (r : ℕ) :
    requeue stuck r queue = queue.rotate r := by
  induction r generalizing queue with
  | zero => simp [requeue]
  | succ r ih =>
    cases queue with
    | nil => simp
    | cons x queue =>
      have hx := h x mem_cons_self
      have hrest : ∀ y ∈ queue ++ [x], stuck y = true := by
        intro y hy
        rcases mem_append.mp hy with hy | hy
        · exact h y (mem_cons_of_mem x hy)
        · exact mem_singleton.mp hy ▸ hx
      rw [requeue_stuck hx, ih hrest, rotate_cons_succ]

/-- The first round, cut short inside `front`; `back` has been pushed back already. -/
theorem filter_requeue_round {back : List X} (hback : ∀ x ∈ back, stuck x = true) (front : List X)
    (hr : r ≤ front.length) :
    (requeue stuck r (front ++ back)).filter stuck =
      (front.drop r).filter stuck ++ back ++ (front.take r).filter stuck := by
  induction r generalizing front back with
  | zero =>
    have hb : back.filter stuck = back := filter_eq_self.mpr hback
    simp [requeue, hb]
  | succ r ih =>
    cases front with
    | nil => simp at hr
    | cons x front =>
      have hr' : r ≤ front.length := by simpa using hr
      cases hx : stuck x with
      | true =>
        have hback' : ∀ y ∈ back ++ [x], stuck y = true := by
          intro y hy
          rcases mem_append.mp hy with hy | hy
          · exact hback y hy
          · exact mem_singleton.mp hy ▸ hx
        have h := ih hback' front hr'
        rw [cons_append, requeue_stuck hx, append_assoc, h]
        simp [hx]
      | false =>
        have h := ih hback front hr'
        rw [cons_append, requeue_free hx]
        simp [hx, h]

/-- After the first round the drain goes on with the stuck items only. -/
theorem filter_requeue_rounds {back : List X} (hback : ∀ x ∈ back, stuck x = true)
    (front : List X) (r : ℕ) :
    (requeue stuck (front.length + r) (front ++ back)).filter stuck =
      (back ++ front.filter stuck).rotate r := by
  induction front generalizing back with
  | nil =>
    have h := requeue_eq_rotate hback r
    have hrot : ∀ x ∈ back.rotate r, stuck x = true := fun x hx =>
      hback x (mem_rotate.mp hx)
    simp [h, filter_eq_self.mpr hrot]
  | cons x front ih =>
    have hlen : (x :: front).length + r = front.length + r + 1 := by
      simp only [length_cons]
      omega
    rw [hlen, cons_append]
    cases hx : stuck x with
    | true =>
      have hback' : ∀ y ∈ back ++ [x], stuck y = true := by
        intro y hy
        rcases mem_append.mp hy with hy | hy
        · exact hback y hy
        · exact mem_singleton.mp hy ▸ hx
      rw [requeue_stuck hx, append_assoc, ih hback']
      simp [hx]
    | false =>
      rw [requeue_free hx]
      simp [hx, ih hback]

/-- Among the stuck items the drain moves those before the cut behind the others. -/
theorem filter_stuck_requeue (r : ℕ) (queue : List X) :
    (requeue stuck r queue).filter stuck =
      (queue.filter stuck).drop (cut stuck r queue) ++
        (queue.filter stuck).take (cut stuck r queue) := by
  have hnil : ∀ x ∈ ([] : List X), stuck x = true := by simp
  unfold cut
  by_cases hr : r < queue.length
  · have h := filter_requeue_round hnil queue hr.le
    rw [append_nil] at h
    rw [if_pos hr, h]
    have hsplit : queue.filter stuck =
        (queue.take r).filter stuck ++ (queue.drop r).filter stuck := by
      rw [← filter_append, take_append_drop]
    have hcount : (queue.take r).countP stuck = ((queue.take r).filter stuck).length :=
      countP_eq_length_filter
    rw [hcount, hsplit, drop_left, take_left, append_nil]
  · have h := filter_requeue_rounds hnil queue (r - queue.length)
    have hlen : queue.length + (r - queue.length) = r := by omega
    rw [hlen, append_nil, nil_append] at h
    rw [if_neg hr, h, countP_eq_length_filter]
    exact rotate_eq_drop_append_take_mod

/-- Items that are not stuck keep their order. -/
theorem filter_free_requeue {p : X → Bool} (hp : ∀ x, p x = true → stuck x = false) (r : ℕ)
    (queue : List X) : (requeue stuck r queue).filter p = queue.filter p := by
  induction r generalizing queue with
  | zero => rfl
  | succ r ih =>
    cases queue with
    | nil => simp
    | cons x queue =>
      cases hx : stuck x with
      | true =>
        have hpx : p x = false := by
          cases h : p x with
          | true => simp [hp x h] at hx
          | false => rfl
        simp [requeue_stuck hx, ih, hpx]
      | false =>
        rw [requeue_free hx]
        simp [filter_cons, ih]

/-- Items selected by `p` that are all stuck or all free keep their order, unless they
lie on both sides of the cut. -/
theorem filter_requeue {p : X → Bool} (huniform : ∀ x y, p x = true → p y = true →
      stuck x = stuck y)
    (hcut : (∀ x ∈ (queue.filter stuck).take (cut stuck r queue), p x = false) ∨
      ∀ x ∈ (queue.filter stuck).drop (cut stuck r queue), p x = false) :
    (requeue stuck r queue).filter p = queue.filter p := by
  by_cases hfree : ∀ x, p x = true → stuck x = false
  · exact filter_free_requeue hfree r queue
  obtain ⟨y, hy⟩ := not_forall.mp hfree
  obtain ⟨hpy, hsy⟩ := Classical.not_imp.mp hy
  have hall : ∀ x, p x = true → stuck x = true := by
    intro x hx
    rw [huniform x y hx hpy]
    simpa using hsy
  have hdrop : ∀ xs : List X, xs.filter p = (xs.filter stuck).filter p := by
    intro xs
    rw [filter_filter]
    apply filter_congr
    intro x _
    cases hx : p x with
    | true => simp [hall x hx]
    | false => simp
  have hnone : ∀ xs : List X, (∀ x ∈ xs, p x = false) → xs.filter p = [] := by
    intro xs h
    exact filter_eq_nil_iff.mpr fun x hx => by simp [h x hx]
  rw [hdrop (requeue stuck r queue), filter_stuck_requeue, hdrop queue]
  generalize queue.filter stuck = front at hcut ⊢
  have hsplit := take_append_drop (cut stuck r queue) front
  conv_rhs => rw [← hsplit]
  rw [filter_append, filter_append]
  rcases hcut with h | h
  · rw [hnone _ h, append_nil, nil_append]
  · rw [hnone _ h, append_nil, nil_append]

/-- Only the stuck status of the queued items matters. -/
theorem requeue_congr {stuck' : X → Bool} (h : ∀ x ∈ queue, stuck x = stuck' x) :
    requeue stuck r queue = requeue stuck' r queue := by
  induction r generalizing queue with
  | zero => rfl
  | succ r ih =>
    cases queue with
    | nil => simp
    | cons x queue =>
      have hx := h x mem_cons_self
      have hrest : ∀ y ∈ queue ++ [x], stuck y = stuck' y := by
        intro y hy
        exact h y (by simpa [or_comm] using hy)
      simp only [requeue, hx, ih hrest, ih fun y hy => h y (mem_cons_of_mem x hy)]

section Loop

variable {S : Type*}

/-- What a loop takes within `k` rounds, one item each round until it finds none. -/
def taken (next : S → S) (front : S → Option X) : ℕ → S → List X
  | 0, _ => []
  | k + 1, s => match front s with
    | some x => x :: taken next front k (next s)
    | none => []

/-- A loop that drains a queue for `budget` rounds, or without a bound if that is zero. It is at
`pos count queue` after `count` rounds. -/
structure Drains (next : S → S) (front : S → Option X) (stuck : X → Bool) (budget : ℕ)
    (pos : ℕ → List X → S → Prop) : Prop where
  front_eq : ∀ count queue s, pos count queue s →
    front s = if budget = 0 ∨ count < budget then queue.head? else none
  pos_next : ∀ count x queue s, pos count (x :: queue) s → front s = some x →
    pos (count + 1) (if stuck x then queue ++ [x] else queue) (next s)

namespace Drains

variable {next : S → S} {front : S → Option X} {budget : ℕ} {pos : ℕ → List X → S → Prop}
  (h : Drains next front stuck budget pos) {count k : ℕ} {back : List X} {s : S}

include h

/-- In the first round the items are taken in their order. -/
theorem taken_prefix (hs : pos count (queue ++ back) s)
    (hend : k ≤ queue.length ∨ budget ≠ 0 ∧ budget ≤ count + queue.length ∨
      back = [] ∧ ∀ x ∈ queue, stuck x = false) : taken next front k s <+: queue := by
  induction queue generalizing count back k s with
  | nil =>
    have hfront := h.front_eq _ _ _ hs
    cases k with
    | zero => exact nil_prefix
    | succ k =>
      have hnone : front s = none := by
        rcases hend with hk | ⟨hbudget, hle⟩ | ⟨rfl, -⟩
        · simp at hk
        · rw [hfront, if_neg]
          simp only [length_nil] at hle
          omega
        · simp [hfront]
      simp [taken, hnone]
  | cons x queue ih =>
    cases k with
    | zero => exact nil_prefix
    | succ k =>
      cases hfront : front s with
      | none => simp [taken, hfront]
      | some y =>
        obtain rfl : x = y := by
          have := (h.front_eq _ _ _ hs).symm.trans hfront
          split_ifs at this
          simpa using this
        have hnext := h.pos_next count x (queue ++ back) s hs hfront
        have hback : (if stuck x then queue ++ back ++ [x] else queue ++ back) =
            queue ++ if stuck x then back ++ [x] else back := by
          split_ifs <;> simp
        rw [hback] at hnext
        simp only [taken, hfront, prefix_cons_inj]
        apply ih hnext
        simp only [length_cons, forall_mem_cons] at hend
        rcases hend with hk | ⟨hbudget, hle⟩ | ⟨rfl, hx, hfree⟩
        · exact .inl (by omega)
        · exact .inr (.inl ⟨hbudget, by omega⟩)
        · exact .inr (.inr ⟨by simp [hx], hfree⟩)

/-- As long as the loop finds something it goes on, and what is stuck stays. -/
theorem pos_iterate (hs : pos count queue s) (hfound : ∀ i < k, front (next^[i] s) ≠ none) :
    ∃ queue', pos (count + k) queue' (next^[k] s) ∧
      ((∃ x ∈ queue, stuck x = true) → ∃ x ∈ queue', stuck x = true) := by
  induction k with
  | zero => exact ⟨queue, hs, id⟩
  | succ k ih =>
    obtain ⟨queue', hpos, hkept⟩ := ih fun i hi => hfound i (by omega)
    have hfront := h.front_eq _ _ _ hpos
    obtain ⟨x, hx⟩ := Option.ne_none_iff_exists'.mp (hfound k (by omega))
    rw [hx] at hfront
    split_ifs at hfront
    obtain ⟨rest, rfl⟩ : ∃ rest, queue' = x :: rest := head?_eq_some_iff.mp hfront.symm
    rw [Function.iterate_succ_apply']
    refine ⟨_, h.pos_next _ _ _ _ hpos hx, fun hold => ?_⟩
    obtain ⟨y, hy, hstuck⟩ := hkept hold
    rcases mem_cons.mp hy with rfl | hy
    · exact ⟨y, by simp [hstuck], hstuck⟩
    · exact ⟨y, by split_ifs <;> simp [hy], hstuck⟩

omit h in
theorem length_taken (hfound : ∀ i < k, front (next^[i] s) ≠ none) :
    (taken next front k s).length = k := by
  induction k generalizing s with
  | zero => rfl
  | succ k ih =>
    obtain ⟨x, hx⟩ := Option.ne_none_iff_exists'.mp (hfound 0 (by omega))
    rw [Function.iterate_zero_apply] at hx
    simp only [taken, hx, length_cons]
    rw [ih fun i hi => by simpa using hfound (i + 1) (by omega)]

/-- Something stuck keeps the loop going while it may. -/
theorem found_of_stuck (hs : pos 0 queue s) (hstuck : ∃ x ∈ queue, stuck x = true)
    (hk : budget = 0 ∨ k < budget) : front (next^[k] s) ≠ none := by
  induction k using Nat.strong_induction_on with
  | _ k ih =>
    obtain ⟨queue', hpos, hkept⟩ := h.pos_iterate hs fun i hi => ih i hi (by omega)
    obtain ⟨x, hx, -⟩ := hkept hstuck
    rw [h.front_eq _ _ _ hpos, if_pos (by simpa using hk)]
    simp [ne_nil_of_mem hx]

theorem once_iff (hs : pos 0 queue s) : (∀ k, taken next front k s <+: queue) ↔
    (∀ x ∈ queue, stuck x = false) ∨ budget ≠ 0 ∧ budget ≤ queue.length := by
  rw [← append_nil queue] at hs
  constructor
  · intro honce
    by_contra hnot
    push Not at hnot
    obtain ⟨⟨x, hx, hstuck⟩, hbudget⟩ := hnot
    rw [append_nil] at hs
    have hlength := (honce (queue.length + 1)).length_le
    rw [length_taken fun i hi => h.found_of_stuck hs ⟨x, hx, by simpa using hstuck⟩ ?_] at hlength
    · omega
    · by_cases hzero : budget = 0
      · exact .inl hzero
      · exact .inr (by omega)
  · rintro (hfree | ⟨hbudget, hle⟩) k
    · exact h.taken_prefix hs (.inr (.inr ⟨rfl, hfree⟩))
    · exact h.taken_prefix hs (.inr (.inl ⟨hbudget, by omega⟩))

theorem ends_iff (hs : pos 0 queue s) : (∃ k, front (next^[k] s) = none) ↔
    budget ≠ 0 ∨ ∀ x ∈ queue, stuck x = false := by
  constructor
  · rintro ⟨k, hk⟩
    by_contra hnot
    push Not at hnot
    obtain ⟨hzero, x, hx, hstuck⟩ := hnot
    exact h.found_of_stuck hs ⟨x, hx, by simpa using hstuck⟩ (.inl hzero) hk
  · intro hends
    by_contra hfound
    push Not at hfound
    rcases hends with hbudget | hfree
    · obtain ⟨queue', hpos, -⟩ := h.pos_iterate (k := budget) hs fun i _ => hfound i
      apply hfound budget
      rw [h.front_eq _ _ _ hpos, if_neg (by omega)]
    · have hlength := ((h.once_iff hs).mpr (.inl hfree) (queue.length + 1)).length_le
      rw [length_taken fun i _ => hfound i] at hlength
      omega

/-- A machine that goes on to its end once the loop has found nothing. -/
theorem reaches_iff (done : S → Prop) (hs : pos 0 queue s)
    (hdone : ∀ s, done s → front s = none)
    (hleave : ∀ count queue s, pos count queue s → front s = none → ∃ k, done (next^[k] s)) :
    (∃ k, done (next^[k] s)) ↔ budget ≠ 0 ∨ ∀ x ∈ queue, stuck x = false := by
  rw [← h.ends_iff hs]
  refine ⟨fun ⟨k, hk⟩ => ⟨k, hdone _ hk⟩, fun hends => ?_⟩
  classical
  obtain ⟨queue', hpos, -⟩ := h.pos_iterate hs fun i hi => Nat.find_min hends hi
  obtain ⟨k, hk⟩ := hleave _ _ _ hpos (Nat.find_spec hends)
  exact ⟨k + Nat.find hends, by rwa [Function.iterate_add_apply]⟩

end Drains

/-- What is left to do shrinks to nothing. -/
theorem reaches_of_lt {next : S → S} (done : S → Prop) (left : ℕ → S → Prop)
    (hstep : ∀ n s, left n s → done (next s) ∨ ∃ m < n, left m (next s)) {n : ℕ} {s : S}
    (hs : left n s) : ∃ k, done (next^[k] s) := by
  induction n using Nat.strong_induction_on generalizing s with
  | _ n ih =>
    rcases hstep n s hs with hdone | ⟨m, hm, hleft⟩
    · exact ⟨1, hdone⟩
    · obtain ⟨k, hk⟩ := ih m hm hleft
      exact ⟨k + 1, hk⟩

end Loop

end Swactor.Requeue
