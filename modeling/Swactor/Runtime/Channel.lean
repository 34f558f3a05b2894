import Swactor.Lib.Trace

/-!
# The hybrid channel

A channel is a ring of bounded size with an unbounded overflow queue behind it. Producers put a
value into the overflow if there is something in it already or if the ring is full; the consumer
takes from the ring first. Every look at one of the two queues is a step of its own, so producers
and the consumer interleave within their calls.

Values are never inspected. A value is the producer that pushes it with the number of its call.
-/
namespace Swactor.Runtime

open Machine Function List

/-- What a producer in a call of `push` does next. -/
inductive PushPhase
  | idle
  | toRing
  | toOverflow
deriving DecidableEq, Repr

/-- `calls` counts the calls of `push` that each producer has begun, `popped` is what `pop` has
returned, and `popping` says that a call of `pop` has found the ring empty. -/
structure HybridChannel (P : Type) where
  capacity : ℕ
  ring : List (P × ℕ) := []
  overflow : List (P × ℕ) := []
  phase : P → PushPhase := fun _ => .idle
  calls : P → ℕ := fun _ => 0
  popping : Bool := false
  popped : List (P × ℕ) := []

namespace HybridChannel

variable {P : Type} [DecidableEq P]

/-- The steps of the calls: a producer looks whether the overflow is empty, pushes into the ring
or into the overflow; the consumer pops from the ring or from the overflow. -/
inductive Step (P : Type)
  | beginPush (p : P)
  | pushRing (p : P)
  | pushOverflow (p : P)
  | popRing
  | popOverflow
deriving DecidableEq, Repr

section

variable (c : HybridChannel P) (p : P)

def beginPush : HybridChannel P :=
  if c.phase p = .idle then
    { c with
      phase := update c.phase p (if c.overflow = [] then .toRing else .toOverflow)
      calls := update c.calls p (c.calls p + 1) }
  else c

/-- The value of the call that the producer is in. -/
def value : P × ℕ := (p, c.calls p - 1)

def pushRing : HybridChannel P :=
  if c.phase p = .toRing then
    if c.ring.length < c.capacity then
      { c with ring := c.ring ++ [c.value p], phase := update c.phase p .idle }
    else { c with phase := update c.phase p .toOverflow }
  else c

def pushOverflow : HybridChannel P :=
  if c.phase p = .toOverflow then
    { c with overflow := c.overflow ++ [c.value p], phase := update c.phase p .idle }
  else c

def popRing : HybridChannel P :=
  if c.popping then c
  else
    match c.ring with
    | [] => { c with popping := true }
    | x :: ring => { c with ring := ring, popped := c.popped ++ [x] }

def popOverflow : HybridChannel P :=
  if c.popping then
    match c.overflow with
    | [] => { c with popping := false }
    | x :: overflow =>
        { c with overflow := overflow, popped := c.popped ++ [x], popping := false }
  else c

def step : Step P → HybridChannel P
  | .beginPush p => c.beginPush p
  | .pushRing p => c.pushRing p
  | .pushOverflow p => c.pushOverflow p
  | .popRing => c.popRing
  | .popOverflow => c.popOverflow

end

attribute [local grind] step

/-- The numbers of the values of a producer. -/
def numbers (p : P) (values : List (P × ℕ)) : List ℕ :=
  (values.filter fun x => x.1 = p).map Prod.snd

variable {p q : P} {a : Step P}

@[simp, grind =] theorem numbers_nil : numbers p [] = [] := rfl

@[simp, grind =] theorem numbers_append {values values' : List (P × ℕ)} :
    numbers p (values ++ values') = numbers p values ++ numbers p values' := by
  simp [numbers]

@[grind =] theorem numbers_cons {x : P × ℕ} {values : List (P × ℕ)} :
    numbers p (x :: values) = if x.1 = p then x.2 :: numbers p values else numbers p values := by
  by_cases h : x.1 = p <;> simp [numbers, h]

/-- The value that the producer is about to put into a queue. -/
def inHand (c : HybridChannel P) (p : P) : List ℕ :=
  if c.phase p = .idle then [] else [c.calls p - 1]

attribute [local grind] inHand

/-- What the producer has pushed, in the order in which it is meant to be popped. -/
def line (c : HybridChannel P) (p : P) : List ℕ :=
  numbers p c.popped ++ (numbers p c.ring ++ (numbers p c.overflow ++ c.inHand p))

attribute [local grind] line

/-- A producer that is about to use the ring has nothing in the overflow. -/
def Behind (c : HybridChannel P) : Prop :=
  ∀ p, c.phase p = .toRing → numbers p c.overflow = []

/-- The overflow is not popped while a value of the same producer is in the ring. -/
def Clear (c : HybridChannel P) : Step P → Prop
  | .popOverflow => c.popping = true → ∀ x ∈ c.overflow.head?, numbers x.1 c.ring = []
  | _ => True

instance (c : HybridChannel P) : ∀ a, Decidable (c.Clear a)
  | .popOverflow => inferInstanceAs (Decidable (_ → _))
  | .beginPush _ | .pushRing _ | .pushOverflow _ | .popRing => .isTrue trivial

variable {c : HybridChannel P}

@[grind =] theorem phase_beginPush : (c.beginPush q).phase p =
    if p = q ∧ c.phase q = .idle then (if c.overflow = [] then .toRing else .toOverflow)
    else c.phase p := by
  unfold beginPush
  split_ifs <;> simp_all

@[grind =] theorem phase_pushRing : (c.pushRing q).phase p =
    if p = q ∧ c.phase q = .toRing then
      (if c.ring.length < c.capacity then .idle else .toOverflow)
    else c.phase p := by
  unfold pushRing
  split_ifs <;> simp_all

@[grind =] theorem phase_pushOverflow : (c.pushOverflow q).phase p =
    if p = q ∧ c.phase q = .toOverflow then .idle else c.phase p := by
  unfold pushOverflow
  split_ifs <;> simp_all

omit [DecidableEq P] in
@[grind =] theorem phase_popRing : c.popRing.phase = c.phase := by
  unfold popRing
  split
  · rfl
  · split <;> rfl

omit [DecidableEq P] in
@[grind =] theorem phase_popOverflow : c.popOverflow.phase = c.phase := by
  unfold popOverflow
  split
  · split <;> rfl
  · rfl

@[grind =] theorem calls_step : (c.step a).calls p =
    if a = .beginPush p ∧ c.phase p = .idle then c.calls p + 1 else c.calls p := by
  cases a with
  | beginPush q =>
    simp only [step, beginPush]
    split_ifs <;> simp_all [eq_comm]
  | pushRing q =>
    simp only [step, pushRing, reduceCtorEq, false_and, if_false]
    split_ifs <;> rfl
  | pushOverflow q =>
    simp only [step, pushOverflow, reduceCtorEq, false_and, if_false]
    split_ifs <;> rfl
  | popRing =>
    simp only [step, popRing, reduceCtorEq, false_and, if_false]
    split
    · rfl
    · split <;> rfl
  | popOverflow =>
    simp only [step, popOverflow, reduceCtorEq, false_and, if_false]
    split
    · split <;> rfl
    · rfl

theorem behind_step (h : c.Behind) (a : Step P) : (c.step a).Behind := by
  intro p hp
  have hold := h p
  cases a with
  | beginPush q => grind [beginPush]
  | pushRing q => grind [pushRing]
  | pushOverflow q => grind [pushOverflow, value]
  | popRing => grind [popRing]
  | popOverflow => grind [popOverflow]

/-- A call that begins puts its value at the end of the line of the producer. -/
theorem line_beginPush (hidle : c.phase p = .idle) :
    (c.beginPush p).line p = c.line p ++ [c.calls p] := by
  by_cases hempty : c.overflow = [] <;> simp [beginPush, hidle, line, inHand, hempty]

/-- The other steps keep the line, up to the order of its values. -/
theorem line_perm (h : a = .beginPush p → c.phase p ≠ .idle) :
    ((c.step a).line p).Perm (c.line p) := by
  cases a with
  | beginPush q => grind [beginPush]
  | pushRing q =>
    by_cases hput : c.phase q = .toRing ∧ c.ring.length < c.capacity ∧ q = p
    · obtain ⟨hphase, hroom, rfl⟩ := hput
      simp only [step, pushRing, hphase, hroom, line, inHand, value, if_true, numbers_append,
        numbers_cons, numbers_nil, update_self, append_nil, reduceCtorEq, if_false,
        append_assoc]
      exact (perm_append_comm.append_left _).append_left _
    · grind [pushRing, value]
  | pushOverflow q => grind [pushOverflow, value]
  | popRing => grind [popRing]
  | popOverflow =>
    cases hpopping : c.popping with
    | false => simp [step, popOverflow, hpopping]
    | true =>
      cases hoverflow : c.overflow with
      | nil => simp [step, popOverflow, hpopping, hoverflow, line, inHand]
      | cons x overflow =>
        by_cases hx : x.1 = p
        · simp only [step, popOverflow, hpopping, hoverflow, line, inHand, if_true, numbers_append,
            numbers_cons, hx, numbers_nil, append_assoc, cons_append, nil_append]
          exact (perm_middle.symm).append_left _
        · simp [step, popOverflow, hpopping, hoverflow, line, inHand, numbers_cons, hx]

/-- The line stays as it is if nothing overtakes. -/
theorem line_eq (h : a = .beginPush p → c.phase p ≠ .idle) (hbehind : c.Behind)
    (hclear : c.Clear a) : (c.step a).line p = c.line p := by
  cases a with
  | beginPush q => grind [beginPush]
  | pushRing q =>
    have hnone := hbehind p
    grind [pushRing, value]
  | pushOverflow q => grind [pushOverflow, value]
  | popRing => grind [popRing]
  | popOverflow =>
    cases hoverflow : c.overflow with
    | nil => grind [popOverflow]
    | cons x overflow =>
      have hring : c.popping = true → numbers x.1 c.ring = [] := fun hpopping =>
        hclear hpopping x (by simp [hoverflow])
      grind [popOverflow]

/-- Every value that was pushed is in one place. -/
def Conserves (c : HybridChannel P) : Prop := ∀ p, (c.line p).Perm (List.range (c.calls p))

theorem conserves_step (h : c.Conserves) (a : Step P) : (c.step a).Conserves := by
  intro p
  rw [calls_step]
  split
  · next hbegins =>
    obtain ⟨rfl, hidle⟩ := hbegins
    rw [step, line_beginPush hidle, range_succ]
    exact (h p).append_right _
  · next hkeeps => exact (line_perm fun ha hidle => hkeeps ⟨ha, hidle⟩).trans (h p)

/-- The values of each producer are in line. -/
structure Ordered (c : HybridChannel P) : Prop where
  behind : c.Behind
  line : ∀ p, c.line p = List.range (c.calls p)

theorem Ordered.step (h : c.Ordered) (hclear : c.Clear a) : (c.step a).Ordered := by
  refine ⟨behind_step h.behind a, fun p => ?_⟩
  rw [calls_step]
  split
  · next hbegins =>
    obtain ⟨rfl, hidle⟩ := hbegins
    rw [HybridChannel.step, line_beginPush hidle, range_succ, h.line]
  · next hkeeps =>
    rw [line_eq (fun ha hidle => hkeeps ⟨ha, hidle⟩) h.behind hclear, h.line]

/-- What each producer pushed first is popped first. -/
def InOrder (c : HybridChannel P) : Prop := ∀ p, numbers p c.popped <+: List.range (c.calls p)

theorem Ordered.inOrder (h : c.Ordered) : c.InOrder := by
  intro p
  rw [← h.line p]
  exact prefix_append _ _

/-- A value that overtakes one of its own producer is out of order. -/
theorem Ordered.clear_of_inOrder (h : c.Ordered) (hstep : (c.step a).InOrder) : c.Clear a := by
  cases a with
  | popOverflow =>
    intro hpopping x hx
    obtain ⟨overflow, hoverflow⟩ : ∃ overflow, c.overflow = x :: overflow := by
      cases hoverflow : c.overflow <;> simp_all
    have hline := h.line x.1
    have hprefix := hstep x.1
    simp only [HybridChannel.line, hoverflow, numbers_cons, if_true] at hline
    simp only [HybridChannel.step, popOverflow, hpopping, hoverflow, if_true, numbers_append,
      numbers_cons, numbers_nil] at hprefix
    rw [← hline, prefix_append_right_inj] at hprefix
    by_contra hring
    obtain ⟨y, ring, hy⟩ := exists_cons_of_ne_nil hring
    have hnodup : (range (c.calls x.1)).Nodup := nodup_range
    rw [← hline, hy] at hnodup
    rw [hy] at hprefix
    obtain rfl : x.2 = y := by simpa using hprefix
    have hnodup' := (nodup_append.mp hnodup).2.1
    simp at hnodup'
  | _ => trivial

/-- In every interleaving nothing that was pushed is lost or doubled. What each producer pushed is
popped in that order throughout, exactly if the overflow is never popped while a value of the same
producer is in the ring. -/
theorem channel_in_order_iff (capacity : ℕ) (steps : List (Step P)) :
    (∀ p, let c := steps.foldl step { capacity }
      (numbers p c.popped ++ (numbers p c.ring ++ (numbers p c.overflow ++ c.inHand p))).Perm
        (range (c.calls p))) ∧
    ((∀ past, past <+: steps → (past.foldl step { capacity }).InOrder) ↔
      Guarded Clear step ({ capacity } : HybridChannel P) steps) := by
  have hnew : ({ capacity } : HybridChannel P).Ordered := ⟨nofun, fun p => rfl⟩
  refine ⟨?_, Trace.forall_prefix_iff_guarded (fun c a _ h hclear => h.step hclear)
    (fun c a _ h => h.clear_of_inOrder) (fun c h => h.inOrder) hnew⟩
  have hrun : (steps.foldl step ({ capacity } : HybridChannel P)).Conserves := by
    apply foldlRecOn (motive := Conserves) steps step
    · exact fun p => by rw [hnew.line p]
    · exact fun c h a _ => conserves_step h a
  exact hrun

/-- A consumer finds the ring empty; a producer then fills the ring and goes on in the overflow,
where the consumer looks next. -/
theorem second_value_popped_first :
    ([.popRing, .beginPush (), .pushRing (), .beginPush (), .pushRing (), .pushOverflow (),
      .popOverflow].foldl step ({ capacity := 1 } : HybridChannel Unit)).popped = [((), 1)] := by
  decide +kernel

end HybridChannel

end Swactor.Runtime
