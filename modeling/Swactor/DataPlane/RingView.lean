import Swactor.DataPlane.ByteRing

/-!
# What an endpoint relies on and what it owes

An endpoint knows its own cursor `c`. The stream positions from `c` up to some bound are its
own to work on: for the producer the free ones, for the consumer the unread ones. A view
says what the peer may do between two accesses, which accesses the endpoint may make, and
how far the positions reach that it may count on. The operations are followed once, for an
arbitrary view: whatever its client calls, an endpoint keeps its side of the view.
-/
namespace Swactor.DataPlane

open Interleaving Endpoint DataPlane.Ring

/-- The two cursors are at most the capacity apart. -/
def Ring.Window (s : Ring) (capacity : ℕ) : Prop :=
  s.consume ≤ s.commit ∧ s.commit ≤ s.consume + capacity

/-- The header is that of the attached ring. -/
structure Ring.Healthy (s : Ring) (info : RingHandle) : Prop where
  magic : s.magic = ringMagic
  version : s.version = ringVersion
  reserved : s.reserved = 0
  capacity : s.capacity = info.capacity
  generation : s.generation = info.generation
  window : s.Window info.capacity

/-- How many positions the cursors leave to the endpoint. -/
def Endpoint.available (e : Endpoint) (s : Ring) : ℕ :=
  match e.role with
  | .producer => e.info.capacity - (s.commit - s.consume)
  | .consumer => s.commit - s.consume

/-- `At c b` says that the own cursor is `c` and the positions below `b` may be counted on,
`Got p x` that `x` are the bytes of the stream from `p` on. In a `lax` view also positions
that were given away may be written. -/
structure View (e : Endpoint) where
  contract : Contract RingOp Ring
  At : ℕ → ℕ → Ring → Prop
  Got : ℕ → List UInt8 → Ring → Prop
  allowed : Stop → Prop
  lax : Prop
  own : ∀ {c b s}, At c b s → s.cursor e.role = c
  at_le : ∀ {c b s}, At c b s → c ≤ b ∧ b ≤ c + e.info.capacity
  at_mono : ∀ {c b b' s}, At c b s → c ≤ b' → b' ≤ b → At c b' s
  at_rely : ∀ {c b s t}, At c b s → contract.rely s t → At c b t
  got_rely : ∀ {p x s t}, Got p x s → contract.rely s t → Got p x t
  got_exec : ∀ {p x s o}, Got p x s → contract.ok o s →
    Got p x (exec e.info.capacity o s).2
  got_append : ∀ {p x y s}, Got p x s → Got (p + x.length) y s → Got p (x ++ y) s
  window_rely : ∀ {c b s t}, At c b s → s.Window e.info.capacity → contract.rely s t →
    t.Window e.info.capacity
  healthy : ∀ {c b s}, At c b s →
    (∀ h, allowed (.flow (.corrupt h))) ∨ s.Healthy e.info
  allowed_flow : ∀ {err}, (∀ h, err ≠ .corrupt h) → allowed (.flow err)
  renew : ∀ {c b s}, At c b s → s.Window e.info.capacity → At c (c + e.available s) s
  load_ok : ∀ {c b s} (field : Field), At c b s → contract.ok (.load field) s
  write_ok : ∀ {c b s p offset bytes}, e.role = .producer → At c b s →
    lax ∨ c ≤ p ∧ p + bytes.length ≤ b → (bytes ≠ [] → offset = p % e.info.capacity) →
    offset + bytes.length ≤ e.info.capacity → contract.ok (.writeSpan p offset bytes) s ∧
      ∀ b', At c b' s → At c b' (exec e.info.capacity (.writeSpan p offset bytes) s).2
  read_ok : ∀ {c b s p offset len}, e.role = .consumer → At c b s → c ≤ p → p + len ≤ b →
    (0 < len → offset = p % e.info.capacity) → offset + len ≤ e.info.capacity →
    contract.ok (.readSpan offset len) s ∧ Got p (s.span offset len) s
  store_ok : ∀ {c b s v}, At c b s → c ≤ v → v ≤ b → contract.ok (.store e.role v) s ∧
    ∀ b', v ≤ b' → At c b' s → At v b' (exec e.info.capacity (.store e.role v) s).2

namespace View

variable {e : Endpoint} (V : View e)

/-- What was known about positions and bytes is still known. -/
structure Keeps (c : ℕ) (s t : Ring) : Prop where
  at_ : ∀ {b}, V.At c b s → V.At c b t
  got : ∀ {p x}, V.Got p x s → V.Got p x t

/-- The own cursor has moved to `v`. -/
structure Moved (c v : ℕ) (s t : Ring) : Prop where
  at_ : ∀ {b}, v ≤ b → V.At c b s → V.At v b t
  got : ∀ {p x}, V.Got p x s → V.Got p x t
  here : V.At v v t

variable {V} {c : ℕ} {s₀ s t u : Ring} {α : Type}

theorem Keeps.refl (s : Ring) : V.Keeps c s s := ⟨id, id⟩

theorem Keeps.trans (h : V.Keeps c s t) (h' : V.Keeps c t u) : V.Keeps c s u :=
  ⟨fun hb => h'.at_ (h.at_ hb), fun hx => h'.got (h.got hx)⟩

theorem Keeps.moved {v : ℕ} (h : V.Keeps c s t) (h' : V.Moved c v t u) : V.Moved c v s u :=
  ⟨fun hv hb => h'.at_ hv (h.at_ hb), fun hx => h'.got (h.got hx), h'.here⟩

theorem own_commit {b : ℕ} (hrole : e.role = .producer) (h : V.At c b s) : s.commit = c := by
  have hown := V.own h
  rw [hrole] at hown
  exact hown

theorem own_consume {b : ℕ} (hrole : e.role = .consumer) (h : V.At c b s) : s.consume = c := by
  have hown := V.own h
  rw [hrole] at hown
  exact hown

theorem keeps_of_rely (h : V.contract.rely s t) : V.Keeps c s t :=
  ⟨fun hb => V.at_rely hb h, fun hx => V.got_rely hx h⟩

variable (V) in
/-- The operation ends with a value in `Q`, or it is allowed to stop as it does and nothing
known at `s₀` is lost. -/
def Spec (c : ℕ) (s₀ : Ring) (m : RingM α) (Q : α → Ring → Prop) (s : Ring) : Prop :=
  Holds (exec e.info.capacity) V.contract m Q
    (fun stop t => V.allowed stop ∧ V.Keeps c s₀ t) s

section Steps

variable {Q : α → Ring → Prop} {R : Unit → Ring → Prop} {N : ℕ → Ring → Prop} {a b p len : ℕ}

theorem spec_bind {β : Type} {x : RingM β} {f : β → RingM α}
    (h : V.Spec c s₀ x (fun a t => V.Spec c s₀ (f a) Q t) s) : V.Spec c s₀ (x >>= f) Q s :=
  holds_bind h

theorem spec_pure {a : α} (h : Q a s) : V.Spec c s₀ (pure a) Q s := holds_pure h

theorem spec_sub (hle : b ≤ a) (hQ : N (a - b) s) : V.Spec c s₀ (sub a b) N s :=
  spec_bind (holds_throwIf (fun h => absurd h (by omega)) fun _ => spec_pure hQ)

section Kept

variable (hs : V.Keeps c s₀ s)

include hs

/-- What is known at a later state may be counted on from there. -/
theorem spec_anchor {m : RingM α} (h : V.Spec c s m Q t) : V.Spec c s₀ m Q t :=
  Holds.mono h (fun _ _ => id) fun _ _ hE => ⟨hE.1, hs.trans hE.2⟩

theorem spec_flow {err : FlowError} (h : ∀ g, err ≠ .corrupt g) :
    V.Spec c s₀ (throw (.flow err)) Q s :=
  holds_throw ⟨V.allowed_flow h, hs⟩

theorem spec_throwIf {p : Prop} [Decidable p] {stop : Stop}
    (hstop : p → V.allowed stop) (hQ : ¬ p → R () s) : V.Spec c s₀ (throwIf p stop) R s :=
  holds_throwIf (fun hp => ⟨hstop hp, hs⟩) hQ

theorem spec_flowIf {p : Prop} [Decidable p] {err : FlowError}
    (herr : ∀ g, err ≠ .corrupt g) (hQ : ¬ p → R () s) : V.Spec c s₀ (throwIf p (.flow err)) R s :=
  spec_throwIf hs (fun _ => V.allowed_flow herr) hQ

/-- Additions stay below `2 ^ 64`, unless overflows are allowed. -/
theorem spec_add (hroom : V.allowed .overflow ∨ a + b ≤ u64Max) (hQ : N (a + b) s) :
    V.Spec c s₀ (add a b) N s := by
  refine spec_bind (spec_throwIf hs (fun h => ?_) fun _ => spec_pure hQ)
  exact hroom.resolve_right (by omega)

theorem spec_rem (hb : V.allowed .divisionByZero ∨ 0 < b) (hQ : 0 < b → N (a % b) s) :
    V.Spec c s₀ (rem a b) N s := by
  refine spec_bind (spec_throwIf hs (fun h => ?_) fun h => spec_pure (hQ (by omega)))
  exact hb.resolve_right (by omega)

theorem spec_wrap {Q : ℕ × ℕ → Ring → Prop}
    (hcap : V.allowed .divisionByZero ∨ 0 < e.info.capacity) (hQ : 0 < e.info.capacity →
      Q (p % e.info.capacity, min len (e.info.capacity - p % e.info.capacity)) s) :
    V.Spec c s₀ (e.wrap p len) Q s := by
  refine spec_bind (spec_rem hs hcap fun hpos => spec_bind (spec_sub ?_ (spec_pure (hQ hpos))))
  exact (Nat.mod_lt p hpos).le

end Kept

section Own

variable (h₀ : V.At c c s₀)

include h₀

/-- Loaded one after the other, the cursors are as in one of the two moments: the own cursor
does not move in between. -/
theorem loaded_window {t₁ t₂ : Ring} (h₁ : V.Keeps c s₀ t₁) (hr : V.contract.rely t₁ t₂) :
    ((∀ h, V.allowed (.flow (.corrupt h))) ∨
        t₂.consume ≤ t₁.commit ∧ t₁.commit ≤ t₂.consume + e.info.capacity) ∧
      (t₂.consume ≤ t₁.commit ∧ t₁.commit ≤ t₂.consume + e.info.capacity →
        t₂.Window e.info.capacity) := by
  have hat₁ := h₁.at_ h₀
  have hat₂ := V.at_rely hat₁ hr
  cases hrole : e.role with
  | producer =>
    rw [(own_commit hrole hat₁).trans (own_commit hrole hat₂).symm]
    exact ⟨(V.healthy hat₂).imp_right fun hg => hg.window, id⟩
  | consumer =>
    rw [(own_consume hrole hat₂).trans (own_consume hrole hat₁).symm]
    exact ⟨(V.healthy hat₁).imp_right fun hg => hg.window, fun hw => V.window_rely hat₁ hw hr⟩

variable (hs : V.Keeps c s₀ s)

include hs

theorem header_load {field : Field} {ε : Type} {E : ε → Ring → Prop}
    (hQ : ∀ t, V.contract.rely s t → V.Keeps c s₀ t → N (t.load field) t) :
    Holds (exec e.info.capacity) V.contract (load field) N E s := by
  refine holds_act fun t ht => ?_
  have hkeeps := hs.trans (keeps_of_rely ht)
  exact ⟨V.load_ok field (hkeeps.at_ h₀), hQ t ht hkeeps⟩

theorem spec_load {field : Field}
    (hQ : ∀ t, V.contract.rely s t → V.Keeps c s₀ t → N (t.load field) t) :
    V.Spec c s₀ (load field) N s :=
  header_load h₀ hs hQ

/-- The errors of the header checks: they are reported only if the header may be unhealthy. -/
def headerError (V : View e) (c : ℕ) (s₀ : Ring) (h : HeaderError) (t : Ring) : Prop :=
  V.allowed (.flow (.corrupt h)) ∧ V.Keeps c s₀ t

theorem header_refuse {p : Prop} [Decidable p] {h : HeaderError}
    (hp : s.Healthy e.info → ¬ p) (hQ : ¬ p → R () s) :
    Holds (exec e.info.capacity) V.contract (throwIf p h) R (headerError V c s₀) s := by
  refine holds_throwIf (fun hbad => ⟨?_, hs⟩) hQ
  exact (V.healthy (hs.at_ h₀)).elim (fun hall => hall h) fun hgood => absurd hbad (hp hgood)

theorem spec_validateFixed (hQ : ∀ t, V.contract.rely s t → V.Keeps c s₀ t → R () t) :
    V.Spec c s₀ (corrupt e.validateFixed) R s := by
  refine holds_adapt ?_
  unfold validateFixed
  refine holds_bind (header_load h₀ hs fun t₁ r₁ h₁ => holds_bind ?_)
  refine header_refuse h₀ h₁ (fun hg => not_not_intro hg.magic) fun _ => ?_
  refine holds_bind (header_load h₀ h₁ fun t₂ r₂ h₂ => holds_bind ?_)
  refine header_refuse h₀ h₂ (fun hg => not_not_intro hg.version) fun _ => ?_
  refine holds_bind (header_load h₀ h₂ fun t₃ r₃ h₃ => holds_bind ?_)
  refine header_refuse h₀ h₃ (fun hg => not_not_intro hg.reserved) fun _ => ?_
  refine holds_bind (header_load h₀ h₃ fun t₄ r₄ h₄ => ?_)
  refine header_refuse h₀ h₄ (fun hg => not_not_intro hg.capacity) fun _ => hQ t₄ ?_ h₄
  exact V.contract.trans (V.contract.trans (V.contract.trans r₁ r₂) r₃) r₄

theorem spec_validateGeneration (hQ : ∀ t, V.contract.rely s t → V.Keeps c s₀ t → R () t) :
    V.Spec c s₀ (corrupt (validateGeneration e.info.generation)) R s := by
  refine holds_adapt (holds_bind (header_load h₀ hs fun t r ht => ?_))
  exact header_refuse h₀ ht (fun hg => not_not_intro hg.generation) fun _ => hQ t r ht

theorem spec_validateCursors (hQ : ∀ t, V.Keeps c s₀ t → t.Window e.info.capacity → R () t) :
    V.Spec c s₀ (corrupt e.validateCursors) R s := by
  refine holds_adapt (holds_bind (header_load h₀ hs fun t₁ r₁ h₁ => ?_))
  refine holds_bind (header_load h₀ h₁ fun t₂ r₂ h₂ => ?_)
  obtain ⟨hgood, hwindow⟩ := loaded_window h₀ h₁ r₂
  change _ ∨ t₂.load .consume ≤ t₁.load .commit ∧ t₁.load .commit ≤ t₂.load .consume + _ at hgood
  change t₂.load .consume ≤ t₁.load .commit ∧ t₁.load .commit ≤ t₂.load .consume + _ → _ at hwindow
  refine holds_bind (holds_throwIf (fun hlt => ⟨?_, h₂⟩) fun hle => ?_)
  · exact hgood.elim (fun hall => hall _) fun hw => absurd hlt (by omega)
  · refine holds_throwIf (fun hlt => ⟨?_, h₂⟩) fun hcap => hQ t₂ h₂ (hwindow (by omega))
    exact hgood.elim (fun hall => hall _) fun hw => absurd hlt (by omega)

/-- After the check the role is right and the cursors are in the window. -/
theorem spec_check {operation : String} {role : Role}
    (hQ : e.role = role → ∀ t, V.Keeps c s₀ t → t.Window e.info.capacity → R () t) :
    V.Spec c s₀ (e.check operation role) R s := by
  refine spec_bind (spec_flowIf hs (by simp) fun hrole => spec_bind ?_)
  refine spec_validateFixed h₀ hs fun t₁ _ h₁ => spec_validateCursors h₀ h₁ fun t₂ h₂ hw => ?_
  exact hQ (not_not.mp hrole) t₂ h₂ hw

/-- The producer loads the cursors again and computes the free space. -/
theorem spec_free {operation : String} {k : ℕ → ℕ → RingM α}
    (hQ : e.role = .producer → ∀ free t, V.Keeps c s₀ t → V.At c (c + free) t →
      V.Spec c s₀ (k c free) Q t) :
    V.Spec c s₀ (do
      e.check operation .producer
      corrupt (validateGeneration e.info.generation)
      let commit ← load .commit
      let consume ← load .consume
      let used ← sub commit consume
      let free ← sub e.info.capacity used
      k commit free) Q s := by
  refine spec_bind (spec_check h₀ hs fun hrole t hchecked hw => spec_bind ?_)
  refine spec_validateGeneration h₀ hchecked fun t₀ r₀ hs => ?_
  refine spec_bind (spec_load h₀ hs fun t₁ r₁ h₁ => spec_bind (spec_load h₀ h₁ fun t₂ r₂ h₂ => ?_))
  have hw₁ := V.window_rely (hs.at_ h₀) (V.window_rely (hchecked.at_ h₀) hw r₀) r₁
  have hw₂ := V.window_rely (h₁.at_ h₀) hw₁ r₂
  have hcommit₁ : t₁.load .commit = c := own_commit hrole (h₁.at_ h₀)
  have hcommit₂ : t₂.commit = c := own_commit hrole (h₂.at_ h₀)
  have hle : t₂.load .consume ≤ c := hcommit₂ ▸ hw₂.1
  have hcap : c ≤ t₂.load .consume + e.info.capacity := hcommit₂ ▸ hw₂.2
  rw [hcommit₁]
  refine spec_bind (spec_sub hle (spec_bind (spec_sub (by omega) ?_)))
  have havail : e.available t₂ = e.info.capacity - (c - t₂.load .consume) := by
    simp [available, hrole, hcommit₂, Ring.load]
  exact hQ hrole _ t₂ h₂ (havail ▸ V.renew (h₂.at_ h₀) hw₂)

/-- The consumer loads the cursors again: the bytes up to the commit cursor it loaded are
unread. -/
theorem spec_unread {k : ℕ → ℕ → RingM α} (hrole : e.role = .consumer)
    (hw : s.Window e.info.capacity)
    (hQ : ∀ commit t, V.Keeps c s₀ t → c ≤ commit → V.At c commit t →
      V.Spec c s₀ (k commit c) Q t) :
    V.Spec c s₀ (do
      let commit ← load .commit
      let consume ← load .consume
      k commit consume) Q s := by
  refine spec_bind (spec_load h₀ hs fun t₁ r₁ h₁ => spec_bind (spec_load h₀ h₁ fun t₂ r₂ h₂ => ?_))
  have hw₁ := V.window_rely (hs.at_ h₀) hw r₁
  have hconsume₁ : t₁.consume = c := own_consume hrole (h₁.at_ h₀)
  have hconsume₂ : t₂.load .consume = c := own_consume hrole (h₂.at_ h₀)
  have hle : c ≤ t₁.load .commit := hconsume₁ ▸ hw₁.1
  have havail : c + e.available t₁ = t₁.load .commit := by
    simp only [available, hrole, hconsume₁]
    exact Nat.add_sub_cancel' hle
  rw [hconsume₂]
  exact hQ _ t₂ h₂ hle (V.at_rely (havail ▸ V.renew (h₁.at_ h₀) hw₁) r₂)

theorem spec_staleCheck {expected : ℕ}
    (hQ : ∀ t, V.contract.rely s t → V.Keeps c s₀ t → R () t) :
    V.Spec c s₀ (staleCheck expected) R s :=
  spec_bind (spec_load h₀ hs fun t r ht => spec_flowIf ht (by simp) fun _ => hQ t r ht)

end Own

theorem spec_writeSpan {offset : ℕ} {bytes : List UInt8}
    (hrole : e.role = .producer) (hs : V.Keeps c s₀ s) (hb : V.At c b s)
    (hp : V.lax ∨ c ≤ p ∧ p + bytes.length ≤ b)
    (hoffset : bytes ≠ [] → offset = p % e.info.capacity)
    (hfit : offset + bytes.length ≤ e.info.capacity)
    (hQ : ∀ t, V.Keeps c s₀ t → V.Keeps c s t → R () t) :
    V.Spec c s₀ (writeSpan p offset bytes) R s := by
  refine holds_act fun t ht => ?_
  have hst : V.Keeps c s t := keeps_of_rely ht
  obtain ⟨hok, hat⟩ := V.write_ok hrole (hst.at_ hb) hp hoffset hfit
  have hwrite : V.Keeps c s _ := hst.trans ⟨fun hb' => hat _ hb', fun hx => V.got_exec hx hok⟩
  exact ⟨hok, hQ _ (hs.trans hwrite) hwrite⟩

variable {Q : List UInt8 → Ring → Prop}

theorem spec_readSpan {offset : ℕ} (hrole : e.role = .consumer) (hs : V.Keeps c s₀ s)
    (hb : V.At c b s) (hp : c ≤ p) (hle : p + len ≤ b)
    (hoffset : 0 < len → offset = p % e.info.capacity) (hfit : offset + len ≤ e.info.capacity)
    (hQ : ∀ x t, V.Keeps c s₀ t → V.Keeps c s t → x.length = len → V.Got p x t → Q x t) :
    V.Spec c s₀ (readSpan offset len) Q s := by
  refine holds_act fun t ht => ?_
  have hst : V.Keeps c s t := keeps_of_rely ht
  obtain ⟨hok, hgot⟩ := V.read_ok hrole (hst.at_ hb) hp hle hoffset hfit
  exact ⟨hok, hQ _ t (hs.trans hst) hst (by simp [exec, span]) hgot⟩

/-- The position where the data region starts over. -/
theorem mod_wrap (p : ℕ) {capacity : ℕ} (hcap : 0 < capacity) :
    (p + (capacity - p % capacity)) % capacity = 0 := by
  have hlt := Nat.mod_lt p hcap
  have hdiv := Nat.div_add_mod p capacity
  have heq : p + (capacity - p % capacity) = capacity * (p / capacity + 1) := by
    rw [Nat.mul_add, Nat.mul_one]
    omega
  rw [heq, Nat.mul_mod_right]

/-- A copy into positions that may be counted on stays inside the data region, as any copy
that is not longer. -/
theorem spec_copyInto {bytes : List UInt8}
    (hcap : V.allowed .divisionByZero ∨ 0 < e.info.capacity) (hrole : e.role = .producer)
    (hs : V.Keeps c s₀ s) (hb : V.At c b s) (hlen : bytes.length ≤ e.info.capacity)
    (hp : V.lax ∨ c ≤ p ∧ p + bytes.length ≤ b)
    (hQ : ∀ t, V.Keeps c s₀ t → V.Keeps c s t → R () t) : V.Spec c s₀ (e.copyInto p bytes) R s := by
  refine spec_bind (spec_wrap hs hcap fun hpos => spec_bind ?_)
  have hlt := Nat.mod_lt p hpos
  dsimp only
  generalize hfirst : min bytes.length (e.info.capacity - p % e.info.capacity) = first
  have htake : (bytes.take first).length = first := by
    rw [List.length_take]
    omega
  have hdrop : (bytes.drop first).length = bytes.length - first := List.length_drop
  refine spec_writeSpan hrole hs hb (hp.imp_right fun h => ⟨h.1, by omega⟩) (fun _ => rfl)
    (by omega) fun t₁ h₁ k₁ => ?_
  refine spec_writeSpan hrole h₁ (k₁.at_ hb)
    (hp.imp_right fun h => ⟨h.1.trans (Nat.le_add_right _ _), by omega⟩) (fun hne => ?_)
    (by omega) fun t₂ h₂ k₂ => hQ t₂ h₂ (k₁.trans k₂)
  have hmore : first < bytes.length := by
    by_contra hge
    exact hne (List.drop_eq_nil_of_le (by omega))
  obtain rfl : first = e.info.capacity - p % e.info.capacity := by omega
  exact (mod_wrap p hpos).symm

/-- A copy out of positions that may be counted on yields the bytes of the stream. -/
theorem spec_copyOut (hcap : V.allowed .divisionByZero ∨ 0 < e.info.capacity)
    (hrole : e.role = .consumer) (hs : V.Keeps c s₀ s) (hb : V.At c b s) (hp : c ≤ p)
    (hle : p + len ≤ b)
    (hQ : ∀ x t, V.Keeps c s₀ t → V.Keeps c s t → x.length = len → V.Got p x t → Q x t) :
    V.Spec c s₀ (e.copyOut p len) Q s := by
  have hbound := (V.at_le hb).2
  refine spec_bind (spec_wrap hs hcap fun hpos => spec_bind ?_)
  have hlt := Nat.mod_lt p hpos
  generalize hfirst : min len (e.info.capacity - p % e.info.capacity) = first
  refine spec_readSpan hrole hs hb hp (by omega) (fun _ => rfl) (by omega)
    fun x t₁ h₁ k₁ hx gx => spec_bind ?_
  refine spec_readSpan (p := p + first) hrole h₁ (k₁.at_ hb) (by omega) (by omega)
    (fun hmore => ?_) (by omega) fun y t₂ h₂ k₂ hy gy => spec_pure ?_
  · obtain rfl : first = e.info.capacity - p % e.info.capacity := by omega
    exact (mod_wrap p hpos).symm
  · refine hQ _ t₂ h₂ (k₁.trans k₂) ?_ (V.got_append (k₂.got gx) (hx.symm ▸ gy))
    rw [List.length_append]
    omega

end Steps

variable (V) in
/-- A reservation that starts at the own cursor may be counted on. -/
structure Reserved (c : ℕ) (s : Ring) (r : Reservation) : Prop where
  start : r.start ≤ c
  len : r.len ≤ e.info.capacity
  at_ : r.start = c → V.At c (r.start + r.len) s

theorem reserved_of_at {r : Reservation} (hstart : r.start = c) (h : V.At c (c + r.len) s) :
    V.Reserved c s r := by
  have hbound := (V.at_le h).2
  exact ⟨hstart.le, by omega, fun _ => hstart ▸ h⟩

section Operations

variable (hcap : V.allowed .divisionByZero ∨ 0 < e.info.capacity) (h : V.At c c s)
  (hroom : V.allowed .overflow ∨ c + e.info.capacity ≤ u64Max)

variable {len : ℕ} {operation : String} {r : RecordCursor} {R : Unit → Ring → Prop}

include h in
theorem spec_reserve {Q : Reservation → Ring → Prop}
    (hQ : e.role = .producer → ∀ r t, V.Keeps c s t → r.start = c → r.len = len →
      V.At c (c + len) t → Q r t) : V.Spec c s (e.reserve len) Q s := by
  refine spec_free h (.refl s) fun hrole free t ht hat => ?_
  refine spec_bind (spec_flowIf ht (by simp) fun hlen => spec_pure ?_)
  exact hQ hrole _ t ht rfl rfl (V.at_mono hat (by omega) (by omega))

include h in
theorem spec_writablePayloadCapacity {Q : ℕ → Ring → Prop}
    (hQ : ∀ n t, V.Keeps c s t → Q n t) : V.Spec c s e.writablePayloadCapacity Q s :=
  spec_free h (.refl s) fun _ _ t ht _ => spec_pure (hQ _ t ht)

include hcap h in
theorem spec_write {r : Reservation} {bytes : List UInt8}
    (hassert : V.allowed .assertion ∨ bytes.length = r.len) (hr : V.Reserved c s r)
    (hstart : V.lax ∨ r.start = c) (hQ : ∀ t, V.Keeps c s t → R () t) :
    V.Spec c s (e.write r bytes) R s := by
  refine spec_bind (spec_check h (.refl s) fun hrole t₁ h₁ _ => spec_bind ?_)
  refine spec_staleCheck h h₁ fun t₂ _ h₂ => spec_bind ?_
  refine spec_throwIf h₂ (fun hne => hassert.resolve_right (Ne.symm hne)) fun hlen => ?_
  have hfit : bytes.length ≤ e.info.capacity := by
    have := hr.len
    omega
  rcases hstart with hlax | hstart
  · exact spec_copyInto hcap hrole h₂ (h₂.at_ h) hfit (Or.inl hlax) fun t₃ h₃ _ => hQ t₃ h₃
  · exact spec_copyInto hcap hrole h₂ (h₂.at_ (hr.at_ hstart)) hfit
      (Or.inr ⟨hstart.ge, by omega⟩) fun t₃ h₃ _ => hQ t₃ h₃

/-- Storing the own cursor gives the positions before it away. -/
theorem spec_store {v b : ℕ} (hs : V.Keeps c s₀ s) (hb : V.At c b s)
    (hv : c ≤ v) (hvb : v ≤ b) (hQ : ∀ t, V.Moved c v s₀ t → R () t) :
    V.Spec c s₀ (store e.role v) R s := by
  refine holds_act fun t ht => ?_
  have hst : V.Keeps c s t := keeps_of_rely ht
  obtain ⟨hok, hat⟩ := V.store_ok (hst.at_ hb) hv hvb
  refine ⟨hok, hQ _ ((hs.trans hst).moved ⟨fun hb' h' => hat _ hb' h', fun hx => ?_, ?_⟩)⟩
  · exact V.got_exec hx hok
  · exact V.at_mono (hat b hvb (hst.at_ hb)) (Nat.le_refl v) hvb

include h hroom in
theorem spec_commit {r : Reservation}
    (hassert : V.allowed .assertion ∨ r.start = c)
    (hr : r.start = c → V.At c (r.start + r.len) s)
    (hQ : r.start = c → ∀ t, V.Moved c (r.start + r.len) s t → R () t) :
    V.Spec c s (e.commit r) R s := by
  refine spec_bind (spec_check h (.refl s) fun hrole t₁ h₁ _ => spec_bind ?_)
  refine spec_staleCheck h h₁ fun t₂ _ h₂ => spec_bind (spec_load h h₂ fun t₃ _ h₃ => ?_)
  have hcommit : t₃.load .commit = c := own_commit hrole (h₃.at_ h)
  rw [hcommit]
  refine spec_bind (spec_throwIf h₃ hassert.resolve_right fun hstart => spec_bind ?_)
  obtain rfl : r.start = c := not_not.mp hstart
  replace hr := hr rfl
  have hbound := (V.at_le hr).2
  refine spec_add h₃ (hroom.imp_right fun hle => by omega) ?_
  rw [← hrole]
  exact spec_store h₃ (h₃.at_ hr) (by omega) (Nat.le_refl _) (hQ rfl)

theorem recordPrefix_length (kind : RecordKind) (len : ℕ) :
    (recordPrefix kind len).length = recordHeaderLen := by
  simp [recordPrefix, lenBytes, recordHeaderLen]

include hcap h hroom in
theorem spec_reserveRecord {kind : RecordKind} {Q : WritableRecord → Ring → Prop}
    (hQ : e.role = .producer → ∀ w t, V.Keeps c s t → w.reservation.start = c →
      w.reservation.len = recordHeaderLen + w.payloadLen →
      w.payloadStart = w.reservation.start + recordHeaderLen →
      V.At c (w.reservation.start + w.reservation.len) t → Q w t) :
    V.Spec c s (e.reserveRecord kind len) Q s := by
  refine spec_bind (spec_flowIf (.refl s) (by simp) fun _ => spec_bind ?_)
  refine spec_flowIf (.refl s) (by simp) fun hfit => spec_bind ?_
  refine spec_reserve h fun hrole r t₁ h₁ hstart hlen hat => spec_bind ?_
  have hprefix := recordPrefix_length kind len
  refine spec_copyInto hcap hrole h₁ hat (by omega) (Or.inr ⟨hstart.ge, by omega⟩)
    fun t₂ h₂ k₂ => spec_bind ?_
  refine spec_add h₂ (hroom.imp_right fun hle => by omega) (spec_pure ?_)
  refine hQ hrole _ t₂ h₂ hstart hlen rfl ?_
  rw [hstart, hlen]
  exact k₂.at_ hat

include hcap h hroom in
theorem spec_sendRecord {kind : RecordKind} {bytes : List UInt8}
    (hQ : ∀ t, V.Moved c (c + (recordHeaderLen + bytes.length)) s t → R () t) :
    V.Spec c s (e.sendRecord kind bytes) R s := by
  refine spec_bind (spec_flowIf (.refl s) (by simp) fun hfit => spec_bind ?_)
  refine spec_reserve h fun hrole r t₁ h₁ hstart hlen hat => spec_bind ?_
  have hprefix := recordPrefix_length kind bytes.length
  refine spec_copyInto hcap hrole h₁ hat (by omega) (Or.inr ⟨hstart.ge, by omega⟩)
    fun t₂ h₂ k₂ => spec_bind ?_
  refine spec_add h₂ (hroom.imp_right fun hle => by omega) (spec_bind ?_)
  refine spec_copyInto hcap hrole h₂ (k₂.at_ hat) (by omega)
    (Or.inr ⟨by omega, by omega⟩) fun t₃ h₃ k₃ => ?_
  refine spec_anchor h₃ (spec_commit (h₃.at_ h) hroom (Or.inr hstart) (fun _ => ?_)
    fun _ t₄ hmoved => hQ t₄ ?_)
  · rw [hstart, hlen]
    exact k₃.at_ (k₂.at_ hat)
  · rw [← hlen, ← hstart]
    rw [← hstart] at h₃ hmoved
    exact h₃.moved hmoved

include h in
theorem spec_readable {Q : ℕ → Ring → Prop} (hQ : ∀ n t, V.Keeps c s t → Q n t) :
    V.Spec c s e.readable Q s := by
  refine spec_bind (spec_check h (.refl s) fun hrole t₁ h₁ w₁ => ?_)
  exact spec_unread h h₁ hrole w₁ fun commit t₂ h₂ hle _ => spec_sub hle (hQ _ t₂ h₂)

include hcap h in
theorem spec_read {Q : List UInt8 → Ring → Prop} (hQ : ∀ x t, V.Keeps c s t → V.Got c x t → Q x t) :
    V.Spec c s (e.read len) Q s := by
  refine spec_bind (spec_check h (.refl s) fun hrole t₁ h₁ w₁ => ?_)
  refine spec_unread h h₁ hrole w₁ fun commit t₂ h₂ hle hat => spec_bind (spec_sub hle ?_)
  refine spec_bind (spec_flowIf h₂ (by simp) fun hlen => ?_)
  exact spec_copyOut hcap hrole h₂ hat (Nat.le_refl c) (by omega)
    fun x t₃ h₃ _ _ hx => hQ x t₃ h₃ hx

include h hroom in
theorem spec_consume
    (hQ : ∀ t, V.Moved c (c + len) s t → R () t) : V.Spec c s (e.consume len) R s := by
  refine spec_bind (spec_check h (.refl s) fun hrole t₁ h₁ w₁ => ?_)
  refine spec_unread h h₁ hrole w₁ fun commit t₂ h₂ hle hat => spec_bind (spec_sub hle ?_)
  have hbound := (V.at_le hat).2
  refine spec_bind (spec_flowIf h₂ (by simp) fun hlen => spec_bind ?_)
  refine spec_add h₂ (hroom.imp_right fun hle => by omega) ?_
  rw [← hrole]
  exact spec_store h₂ hat (by omega) (by omega) hQ

variable {Q : Option (RecordMeta × ℕ) → Ring → Prop}

include hcap in
theorem spec_parseRecord {readable : ℕ} (hrole : e.role = .consumer) (hs : V.Keeps c s t)
    (hat : V.At c (c + readable) t) (hnone : ∀ u, V.Keeps c s u → Q none u)
    (hsome : ∀ m u, V.Keeps c s u → V.At c (c + (recordHeaderLen + m.len)) u → Q (some (m, c)) u) :
    V.Spec c s (e.parseRecord c readable) Q t := by
  unfold parseRecord
  split_ifs with hshort
  · exact spec_pure (hnone t hs)
  · refine spec_bind (spec_copyOut hcap hrole hs hat (Nat.le_refl c) (by omega)
      fun header u hu ku _ _ => ?_)
    split
    · exact spec_flow hu (by simp)
    · refine spec_bind (spec_flowIf hu (by simp) fun _ => ?_)
      split_ifs with htorn
      · exact spec_pure (hnone u hu)
      · refine spec_pure (hsome _ u hu (V.at_mono (ku.at_ hat) (by omega) ?_))
        dsimp only
        omega

include hcap h in
/-- A record that a reader reports lies in the unread bytes as a whole. -/
theorem spec_scanRecord {fenced : Bool} (hnone : ∀ t, V.Keeps c s t → Q none t)
    (hsome : e.role = .consumer → ∀ m t, V.Keeps c s t → V.At c (c + (recordHeaderLen + m.len)) t →
      Q (some (m, c)) t) :
    V.Spec c s (e.scanRecord operation fenced) Q s := by
  refine spec_bind (spec_check h (.refl s) fun hrole t₁ h₁ w₁ => spec_bind ?_)
  have hrest (t₂ : Ring) (h₂ : V.Keeps c s t₂) (w₂ : t₂.Window e.info.capacity) :
      V.Spec c s (do
        let commit ← load .commit
        let consume ← load .consume
        let readable ← sub commit consume
        e.parseRecord consume readable) Q t₂ := by
    refine spec_unread h h₂ hrole w₂ fun commit t₃ h₃ hle hat => spec_bind (spec_sub hle ?_)
    rw [← Nat.add_sub_cancel' hle] at hat
    exact spec_parseRecord hcap hrole h₃ hat hnone (hsome hrole)
  unfold fence
  split_ifs
  · exact spec_validateGeneration h h₁ fun t₂ r₂ h₂ =>
      hrest t₂ h₂ (V.window_rely (h₁.at_ h) w₁ r₂)
  · exact spec_pure (hrest t₁ h₁ w₁)

include hcap h in
theorem spec_nextRecordMeta {Q : Option RecordMeta → Ring → Prop}
    (hQ : ∀ r t, V.Keeps c s t → Q r t) : V.Spec c s e.nextRecordMeta Q s :=
  spec_bind (spec_scanRecord hcap h (fun t ht => spec_pure (hQ _ t ht))
    fun _ _ t ht _ => spec_pure (hQ _ t ht))

/-- The cursor of a record at `c` that may be counted on. -/
structure RecordAt (V : View e) (c : ℕ) (s : Ring) (r : RecordCursor) : Prop where
  role : e.role = .consumer
  start : r.recordStart = c
  payload : r.payloadStart = r.recordStart + recordHeaderLen
  len : r.recordLen = recordHeaderLen + r.payloadLen
  at_ : V.At c (r.recordStart + r.recordLen) s

include hcap h hroom in
theorem spec_frontRecord {Q : Option RecordCursor → Ring → Prop}
    (hQ : ∀ r t, V.Keeps c s t → (∀ x ∈ r, RecordAt V c t x) → Q r t) :
    V.Spec c s (e.frontRecord operation) Q s := by
  refine spec_bind (spec_scanRecord hcap h (fun t ht => spec_pure (hQ none t ht (by simp)))
    fun hrole m t ht hat => spec_bind ?_)
  have hbound := (V.at_le hat).2
  refine spec_add ht (hroom.imp_right fun hle => by omega) (spec_pure (hQ _ t ht fun x hx => ?_))
  obtain rfl := Option.mem_some.mp hx
  exact ⟨hrole, rfl, rfl, rfl, hat⟩

include h in
theorem spec_checkCursor
    (hQ : e.role = .consumer → r.recordStart = c → ∀ t, V.Keeps c s t → R () t) :
    V.Spec c s (e.checkCursor operation r) R s := by
  refine spec_bind (spec_check h (.refl s) fun hrole t₁ h₁ _ => spec_bind ?_)
  refine spec_staleCheck h h₁ fun t₂ _ h₂ => spec_bind (spec_load h h₂ fun t₃ _ h₃ => ?_)
  have hconsume : t₃.load .consume = c := own_consume hrole (h₃.at_ h)
  refine spec_flowIf h₃ (by simp) fun hsame => hQ hrole ?_ t₃ h₃
  rw [hconsume] at hsame
  exact (not_not.mp hsame).symm

include hcap h hroom in
theorem spec_copyRecordRange {offset size : ℕ} {Q : List UInt8 → Ring → Prop}
    (hr : r.recordStart = c → RecordAt V c s r)
    (hQ : ∀ x t, V.Keeps c s t → V.Got (r.payloadStart + offset) x t → Q x t) :
    V.Spec c s (e.copyRecordRange r offset size) Q s := by
  refine spec_bind (spec_checkCursor h fun hrole hstart t₁ h₁ => spec_bind ?_)
  obtain ⟨-, -, hpayload, hlen, hat⟩ := hr hstart
  have hbound := (V.at_le hat).2
  refine spec_flowIf h₁ (by simp) fun hoffset => spec_bind (spec_sub (by omega) (spec_bind ?_))
  refine spec_add h₁ (hroom.imp_right fun hle => by omega) ?_
  exact spec_copyOut hcap hrole h₁ (h₁.at_ hat) (by omega) (by omega) fun x t₂ h₂ _ _ hx =>
    hQ x t₂ h₂ hx

include h hroom in
theorem spec_releaseAt (hr : r.recordStart = c → RecordAt V c s r)
    (hQ : r.recordStart = c → ∀ t, V.Moved c (r.recordStart + r.recordLen) s t → R () t) :
    V.Spec c s (e.releaseAt operation r) R s := by
  refine spec_bind (spec_checkCursor h fun hrole hstart t₁ h₁ => spec_bind ?_)
  have hat := (hr hstart).at_
  have hbound := (V.at_le hat).2
  refine spec_add h₁ (hroom.imp_right fun hle => by omega) ?_
  rw [← hrole]
  exact spec_store h₁ (h₁.at_ hat) (by omega) (Nat.le_refl _) (hQ hstart)

include hcap h hroom in
theorem spec_recvRecord {Q : Option (RecordKind × List UInt8) → Ring → Prop}
    (hnone : ∀ t, V.Keeps c s t → Q none t)
    (hsome : ∀ kind x t, V.Moved c (c + (recordHeaderLen + x.length)) s t →
      V.Got (c + recordHeaderLen) x t → Q (some (kind, x)) t) :
    V.Spec c s e.recvRecord Q s := by
  refine spec_bind (spec_scanRecord hcap h (fun t ht => spec_pure (hnone t ht))
    fun hrole m t ht hat => spec_bind ?_)
  have hbound := (V.at_le hat).2
  refine spec_add ht (hroom.imp_right fun hle => by omega) (spec_bind ?_)
  refine spec_copyOut hcap hrole ht hat (by omega) (by omega) fun x t₁ h₁ k₁ hx gx => spec_bind ?_
  refine spec_add h₁ (hroom.imp_right fun hle => by omega) (spec_bind ?_)
  rw [← hrole]
  refine spec_anchor h₁ (spec_store (.refl t₁) (k₁.at_ hat) (by omega) (by omega)
    fun t₂ hmoved => spec_pure (hsome _ x t₂ ?_ (hmoved.got gx)))
  rw [hx, ← Nat.add_assoc]
  exact h₁.moved hmoved

include h in
theorem spec_positions {Q : ℕ × ℕ → Ring → Prop} (hQ : ∀ r t, V.Keeps c s t → Q r t) :
    V.Spec c s e.positions Q s := by
  refine spec_bind (spec_validateFixed h (.refl s) fun t₁ _ h₁ => spec_bind ?_)
  refine spec_validateGeneration h h₁ fun t₂ _ h₂ => spec_bind ?_
  refine spec_validateCursors h h₂ fun t₃ h₃ _ => spec_bind ?_
  refine spec_load h h₃ fun t₄ _ h₄ => spec_bind (spec_load h h₄ fun t₅ _ h₅ => ?_)
  exact spec_pure (hQ _ t₅ h₅)

include h in
theorem spec_peerTermination {Q : Option PeerTermination → Ring → Prop}
    (hQ : ∀ r t, V.Keeps c s t → Q r t) : V.Spec c s e.peerTermination Q s := by
  refine spec_bind (spec_validateFixed h (.refl s) fun t₁ _ h₁ => spec_bind ?_)
  refine spec_validateGeneration h h₁ fun t₂ _ h₂ => spec_bind (spec_load h h₂ fun t₃ _ h₃ => ?_)
  split
  · exact spec_pure (hQ _ t₃ h₃)
  · exact spec_pure (hQ _ t₃ h₃)
  · exact spec_pure (hQ _ t₃ h₃)
  · exact spec_flow h₃ (by simp)

end Operations

section Clients

variable (V)

/-- The reservation of a writable record holds its prefix and its payload. -/
structure Writable (c : ℕ) (s : Ring) (w : WritableRecord) : Prop where
  role : e.role = .producer
  reserved : V.Reserved c s w.reservation
  payload : w.payloadStart = w.reservation.start + recordHeaderLen
  len : w.reservation.len = recordHeaderLen + w.payloadLen

/-- A record that starts at the own cursor may be counted on. -/
def Pinned (c : ℕ) (s : Ring) (r : RecordCursor) : Prop :=
  r.recordStart ≤ c ∧ (r.recordStart = c → RecordAt V c s r)

/-- All that a client holds is as its endpoint left it. -/
structure Sound (client : Client) (s : Ring) : Prop where
  at_ : V.At client.position client.position s
  reservations : ∀ r ∈ client.reservations, V.Reserved client.position s r
  writables : ∀ w ∈ client.writables, V.Writable client.position s w
  pinned : ∀ r ∈ client.pinned, V.Pinned client.position s r
  cursors : ∀ r ∈ client.cursors, V.Pinned client.position s r
  copies : ∀ x ∈ client.copies, V.Got x.1 x.2 s
  reports : ∀ stop ∈ client.reports, V.allowed stop

variable {V} {v : ℕ} {client : Client}

theorem sound_attached (h : V.At c c s) : V.Sound { position := c } s where
  at_ := h
  reservations := by simp
  writables := by simp
  pinned := by simp
  cursors := by simp
  copies := by simp
  reports := by simp

theorem Reserved.keeps {r : Reservation} (h : V.Reserved c s r) (hk : V.Keeps c s t) :
    V.Reserved c t r :=
  { h with at_ := fun hstart => hk.at_ (h.at_ hstart) }

theorem Reserved.moved {r : Reservation} (h : V.Reserved c s r) (hm : V.Moved c v s t)
    (hle : c ≤ v) : V.Reserved v t r := by
  have hstart := h.start
  exact ⟨hstart.trans hle, h.len, fun heq => hm.at_ (by omega) (h.at_ (by omega))⟩

theorem Pinned.keeps {r : RecordCursor} (h : V.Pinned c s r) (hk : V.Keeps c s t) :
    V.Pinned c t r :=
  ⟨h.1, fun hstart => { h.2 hstart with at_ := hk.at_ (h.2 hstart).at_ }⟩

theorem Pinned.moved {r : RecordCursor} (h : V.Pinned c s r) (hm : V.Moved c v s t)
    (hle : c ≤ v) : V.Pinned v t r := by
  refine ⟨h.1.trans hle, fun hstart => ?_⟩
  have hc : r.recordStart = c := by
    have := h.1
    omega
  obtain ⟨hrole, -, hpayload, hlen, hat⟩ := h.2 hc
  exact ⟨hrole, hstart, hpayload, hlen, hm.at_ (by omega) hat⟩

theorem Sound.keeps (h : V.Sound client s) (hk : V.Keeps client.position s t) :
    V.Sound client t where
  at_ := hk.at_ h.at_
  reservations r hr := (h.reservations r hr).keeps hk
  writables w hw := { h.writables w hw with reserved := (h.writables w hw).reserved.keeps hk }
  pinned r hr := (h.pinned r hr).keeps hk
  cursors r hr := (h.cursors r hr).keeps hk
  copies x hx := hk.got (h.copies x hx)
  reports := h.reports

theorem Sound.moved (h : V.Sound client s) (hm : V.Moved client.position v s t)
    (hle : client.position ≤ v) : V.Sound { client with position := v } t where
  at_ := hm.here
  reservations r hr := (h.reservations r hr).moved hm hle
  writables w hw := { h.writables w hw with reserved := (h.writables w hw).reserved.moved hm hle }
  pinned r hr := (h.pinned r hr).moved hm hle
  cursors r hr := (h.cursors r hr).moved hm hle
  copies x hx := hm.got (h.copies x hx)
  reports := h.reports

theorem Sound.copied (h : V.Sound client s) {p : ℕ} {x : List UInt8} (hx : V.Got p x s) :
    V.Sound { client with copies := (p, x) :: client.copies } s :=
  { h with copies := List.forall_mem_cons.mpr ⟨hx, h.copies⟩ }

/-- The record at the front is pinned beside those that are. -/
theorem pinned_append {rs : List RecordCursor} (h : ∀ x ∈ rs, V.Pinned c t x)
    {r : Option RecordCursor} (hr : ∀ x ∈ r, RecordAt V c t x) :
    ∀ x ∈ r.toList ++ rs, V.Pinned c t x := by
  refine List.forall_mem_append.mpr ⟨fun x hx => ?_, h⟩
  have hrecord := hr x (Option.mem_toList.mp hx)
  exact ⟨hrecord.start.le, fun _ => hrecord⟩

theorem settle_valid {m : RingM α} {note : α → Client} (h : V.Sound client s)
    (hm : V.Spec client.position s m (fun a t => V.Sound (note a) t) s) :
    Valid (exec e.info.capacity) V.contract (client.settle m note) V.Sound s := by
  refine valid_bind.mpr (Valid.mono hm fun r t hr => ?_)
  cases r with
  | ok a => exact hr
  | error stop =>
    have hkept := h.keeps hr.2
    refine { hkept with reports := fun x hx => ?_ }
    rcases List.mem_append.mp hx with hx | hx
    · exact hkept.reports x hx
    · exact List.mem_singleton.mp hx ▸ hr.1

/-- Whatever a client calls, its endpoint keeps its side of the view and leaves the client
sound. -/
theorem perform_valid (hcap : V.allowed .divisionByZero ∨ 0 < e.info.capacity)
    (h : V.Sound client s) {call : Call} (howns : client.owns call = true)
    (htimely : V.lax ∨ client.timely call = true)
    (hassert : V.allowed .assertion ∨ client.asserted call = true)
    (hroom : V.allowed .overflow ∨ client.position + e.info.capacity ≤ u64Max) :
    Valid (exec e.info.capacity) V.contract (e.perform client call) V.Sound s := by
  cases call with
  | reserve len =>
    refine settle_valid h (spec_reserve h.at_ fun _ r t hk hstart hlen hat => ?_)
    refine { h.keeps hk with reservations := List.forall_mem_cons.mpr ⟨?_, ?_⟩ }
    · exact reserved_of_at hstart (hlen.symm ▸ hat)
    · exact (h.keeps hk).reservations
  | writablePayloadCapacity =>
    exact settle_valid h (spec_writablePayloadCapacity h.at_ fun _ _ hk => h.keeps hk)
  | write r bytes =>
    have hmem : r ∈ client.reservations := of_decide_eq_true howns
    exact settle_valid h (spec_write hcap h.at_ (hassert.imp_right of_decide_eq_true)
      (h.reservations r hmem) (htimely.imp_right of_decide_eq_true) fun _ hk => h.keeps hk)
  | commit r =>
    have hmem : r ∈ client.reservations := of_decide_eq_true howns
    exact settle_valid h (spec_commit h.at_ hroom (hassert.imp_right of_decide_eq_true)
      (h.reservations r hmem).at_ fun hstart _ hm => h.moved hm (by omega))
  | reserveRecord kind len =>
    refine settle_valid h (spec_reserveRecord hcap h.at_ hroom
      fun hrole w t hk hstart hlen hpayload hat => ?_)
    refine { h.keeps hk with writables := List.forall_mem_cons.mpr ⟨?_, ?_⟩ }
    · exact ⟨hrole, reserved_of_at hstart (hstart ▸ hat), hpayload, hlen⟩
    · exact (h.keeps hk).writables
  | spansMut w bytes =>
    simp only [Client.owns, Bool.and_eq_true, decide_eq_true_eq] at howns
    obtain ⟨⟨hmem, hstart⟩, hlen⟩ := howns
    obtain ⟨hrole, ⟨-, hfit, hat⟩, hpayload, hreserved⟩ := h.writables w hmem
    exact settle_valid h (spec_copyInto hcap hrole (.refl s) (hat hstart) (by omega)
      (Or.inr ⟨by omega, by omega⟩) fun _ hk _ => h.keeps hk)
  | commitRecord w =>
    simp only [Client.owns, Bool.and_eq_true, decide_eq_true_eq] at howns
    obtain ⟨hmem, hstart⟩ := howns
    exact settle_valid h (spec_commit h.at_ hroom (Or.inr hstart) (h.writables w hmem).reserved.at_
      fun _ _ hm => h.moved hm (by omega))
  | sendRecord kind bytes =>
    exact settle_valid h (spec_sendRecord hcap h.at_ hroom fun _ hm => h.moved hm (by omega))
  | readable => exact settle_valid h (spec_readable h.at_ fun _ _ hk => h.keeps hk)
  | read len =>
    exact settle_valid h (spec_read hcap h.at_ fun _ _ hk hx => (h.keeps hk).copied hx)
  | consume len =>
    exact settle_valid h (spec_consume h.at_ hroom fun _ hm => h.moved hm (by omega))
  | nextRecordMeta =>
    exact settle_valid h (spec_nextRecordMeta hcap h.at_ fun _ _ hk => h.keeps hk)
  | peekRecord =>
    refine settle_valid h (spec_frontRecord hcap h.at_ hroom fun r t hk hr => ?_)
    exact { h.keeps hk with pinned := pinned_append (h.keeps hk).pinned hr }
  | spans r =>
    simp only [Client.owns, Bool.and_eq_true, decide_eq_true_eq] at howns
    obtain ⟨hmem, hstart⟩ := howns
    obtain ⟨hrole, -, hpayload, hlen, hat⟩ := (h.pinned r hmem).2 hstart
    exact settle_valid h (spec_copyOut hcap hrole (.refl s) hat (by omega) (by omega)
      fun _ _ hk _ _ hx => (h.keeps hk).copied hx)
  | release r =>
    have hpinned := h.pinned r (of_decide_eq_true howns)
    exact settle_valid h (spec_releaseAt h.at_ hroom hpinned.2 fun hstart _ hm =>
      h.moved hm (by omega))
  | recordCursor =>
    refine settle_valid h (spec_frontRecord hcap h.at_ hroom fun r t hk hr => ?_)
    exact { h.keeps hk with cursors := pinned_append (h.keeps hk).cursors hr }
  | copyRecordRange r offset size =>
    have hpinned := h.cursors r (of_decide_eq_true howns)
    exact settle_valid h (spec_copyRecordRange hcap h.at_ hroom hpinned.2
      fun _ _ hk hx => (h.keeps hk).copied hx)
  | releaseRecordCursor r =>
    have hpinned := h.cursors r (of_decide_eq_true howns)
    exact settle_valid h (spec_releaseAt h.at_ hroom hpinned.2 fun hstart _ hm =>
      h.moved hm (by omega))
  | recvRecord =>
    exact settle_valid h (spec_recvRecord hcap h.at_ hroom (fun _ hk => h.keeps hk)
      fun _ _ _ hm hx => (h.moved hm (by omega)).copied hx)
  | positions => exact settle_valid h (spec_positions h.at_ fun _ _ hk => h.keeps hk)
  | peerTermination => exact settle_valid h (spec_peerTermination h.at_ fun _ _ hk => h.keeps hk)

end Clients

end View

end Swactor.DataPlane
