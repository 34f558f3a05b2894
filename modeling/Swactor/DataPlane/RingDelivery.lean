import Swactor.DataPlane.RingContainment

/-!
# Delivery through the ring

A producer and a consumer that both follow the protocol, with every access of one
interleaved with those of the other. Each side works with a cursor of the other that may be
stale, but cursors only grow: what the producer takes for free is free, what the consumer
takes for committed is committed. The cells of the committed bytes that are not consumed
are never written, so that the consumer copies out, at every position of the stream, the
byte that was committed there.
-/
namespace Swactor.DataPlane

open Interleaving Machine DataPlane.Ring List

variable {capacity : ℕ}

theorem mod_ne_of_lt {a b : ℕ} (hlt : a < b) (hnear : b < a + capacity) :
    a % capacity ≠ b % capacity := by
  intro heq
  have hdvd : capacity ∣ b - a := (Nat.modEq_iff_dvd' hlt.le).mp heq
  have hzero := Nat.eq_zero_of_dvd_of_lt hdvd (by omega)
  omega

theorem mod_add_of_fit {p j : ℕ} (h : p % capacity + j < capacity) :
    (p + j) % capacity = p % capacity + j := by
  rw [Nat.add_mod, Nat.mod_eq_of_lt (a := j) (by omega), Nat.mod_eq_of_lt h]

/-- In a window of the stream as long as the ring, the cells of a span belong to its own
positions only. -/
theorem mod_notMem_span {lo p q offset len : ℕ} (hp : lo ≤ p) (hfree : p + len ≤ lo + capacity)
    (hq : lo ≤ q) (hnear : q < lo + capacity) (hout : ¬ (p ≤ q ∧ q < p + len))
    (hoffset : 0 < len → offset = p % capacity) (hfit : offset + len ≤ capacity) :
    ¬ (offset ≤ q % capacity ∧ q % capacity < offset + len) := by
  intro hmem
  obtain rfl := hoffset (by omega)
  have hcell : (p + (q % capacity - p % capacity)) % capacity = q % capacity := by
    rw [mod_add_of_fit (by omega)]
    omega
  rcases Nat.lt_or_ge q p with hlt | hge
  · exact mod_ne_of_lt (by omega) (by omega) hcell.symm
  · exact mod_ne_of_lt (by omega) (by omega) hcell

namespace Ring

variable {s : Ring}

theorem content_length (capacity lo hi : ℕ) : (s.content capacity lo hi).length = hi - lo := by
  simp [content]

variable {i offset len p : ℕ} {t : Ring}

theorem getElem?_content {capacity lo hi : ℕ} (h : lo + i < hi) :
    (s.content capacity lo hi)[i]? = some (s.data ((lo + i) % capacity)) := by
  have hi' : i < hi - lo := by omega
  simp [content, hi']

theorem getElem?_span {j : ℕ} (h : j < len) :
    (s.span offset len)[j]? = some (s.data (offset + j)) := by
  simp [span, h]

theorem overlay_of_mem {α : Type} {xs : List α} {f : ℕ → α} {x : α} (hle : offset ≤ i)
    (hx : xs[i - offset]? = some x) : overlay offset xs f i = x := by
  simp [overlay, hle, hx]

theorem overlay_of_notMem {α : Type} {xs : List α} {f : ℕ → α}
    (h : ¬ (offset ≤ i ∧ i < offset + xs.length)) : overlay offset xs f i = f i := by
  unfold overlay
  split_ifs with hle
  · rw [getElem?_eq_none (by omega), Option.getD_none]
  · rfl

/-- The cell of a committed byte that is not consumed lies outside of the span. -/
def Spares (s : Ring) (capacity offset len : ℕ) : Prop :=
  ∀ p, s.consume ≤ p → p < s.commit →
    ¬ (offset ≤ p % capacity ∧ p % capacity < offset + len)

/-- The ring holds the committed bytes that are not consumed, and what was copied in for the
positions behind them. -/
structure Delivers (s : Ring) (info : RingHandle) : Prop where
  healthy : s.Healthy info
  length : s.committed.length = s.commit
  consumed : s.consumed = s.committed.take s.consume
  intact : ∀ p, s.consume ≤ p → p < s.commit →
    s.committed[p]? = some (s.data (p % info.capacity))
  published : ∀ p b, s.drafted p = some b → p < s.commit → s.committed[p]? = some b
  pending : ∀ p b, s.drafted p = some b → s.commit ≤ p →
    p < s.consume + info.capacity ∧ s.data (p % info.capacity) = b

variable {info : RingHandle}

theorem delivers_install {capacity generation : ℕ} :
    (install capacity generation).Delivers ⟨capacity, generation⟩ where
  healthy := ⟨rfl, rfl, rfl, rfl, rfl, Nat.le_refl 0, Nat.zero_le _⟩
  length := rfl
  consumed := rfl
  intact p _ hlt := absurd hlt (Nat.not_lt_zero p)
  published p b hd := absurd hd (by simp [install])
  pending p b hd := absurd hd (by simp [install])

section

variable (h : s.Delivers info)
include h

/-- Publishing positions that are free keeps the stream. -/
theorem Delivers.commit {v : ℕ} (hv : s.commit ≤ v) (hfree : v ≤ s.consume + info.capacity) :
    (exec info.capacity (.store .producer v) s).2.Delivers info := by
  have hnew {p : ℕ} (hge : s.commit ≤ p) (hlt : p < v) :
      (s.committed ++ s.content info.capacity s.commit v)[p]? =
        some (s.data (p % info.capacity)) := by
    rw [getElem?_append_right (by rw [h.length]; exact hge), h.length,
      getElem?_content (by omega), Nat.add_sub_cancel' hge]
  have hold {p : ℕ} (hlt : p < s.commit) :
      (s.committed ++ s.content info.capacity s.commit v)[p]? = s.committed[p]? :=
    getElem?_append_left (by rw [h.length]; exact hlt)
  have hwindow := h.healthy.window
  refine ⟨{ h.healthy with window := ⟨hwindow.1.trans hv, hfree⟩ }, ?_, ?_, ?_, ?_, ?_⟩
  · show (s.committed ++ s.content info.capacity s.commit v).length = v
    rw [length_append, content_length, h.length]
    omega
  · show s.consumed = (s.committed ++ s.content info.capacity s.commit v).take s.consume
    rw [h.consumed, take_append_of_le_length (by rw [h.length]; exact hwindow.1)]
  · intro p hge hlt
    by_cases hp : p < s.commit
    · exact (hold hp).trans (h.intact p hge hp)
    · exact hnew (by omega) hlt
  · intro p b hd hlt
    by_cases hp : p < s.commit
    · exact (hold hp).trans (h.published p b hd hp)
    · refine (hnew (by omega) hlt).trans ?_
      rw [(h.pending p b hd (by omega)).2]
  · intro p b hd hge
    exact h.pending p b hd (hv.trans hge)

/-- Giving up positions that are committed keeps the stream. -/
theorem Delivers.consume {v : ℕ} (hv : s.consume ≤ v) (hle : v ≤ s.commit) :
    (exec info.capacity (.store .consumer v) s).2.Delivers info := by
  have hwindow := h.healthy.window
  have hwindow' := hwindow.2
  refine ⟨{ h.healthy with window := ⟨hle, ?_⟩ }, h.length, ?_, ?_, h.published, ?_⟩
  · show s.commit ≤ v + info.capacity
    omega
  · show s.consumed ++ s.content info.capacity s.consume v = s.committed.take v
    have hlen := h.length
    apply ext_getElem?
    intro i
    by_cases hi : i < s.consume
    · rw [h.consumed, getElem?_append_left (by rw [length_take]; omega),
        getElem?_take_of_lt hi, getElem?_take_of_lt (by omega)]
    · rw [h.consumed, getElem?_append_right (by rw [length_take]; omega),
        length_take, Nat.min_eq_left (by omega)]
      by_cases hiv : i < v
      · rw [getElem?_content (by omega), getElem?_take_of_lt hiv,
          Nat.add_sub_cancel' (by omega)]
        exact (h.intact i (by omega) (by omega)).symm
      · rw [getElem?_eq_none (by rw [content_length]; omega),
          getElem?_eq_none (by rw [length_take]; omega)]
  · intro p hge hlt
    exact h.intact p (hv.trans hge) hlt
  · intro p b hd hge
    have hp := h.pending p b hd hge
    exact ⟨hp.1.trans_le (Nat.add_le_add_right hv _), hp.2⟩

/-- A copy for free positions touches no committed byte that is not consumed. -/
theorem Delivers.spares (hp : s.commit ≤ p) (hfree : p + len ≤ s.consume + info.capacity)
    (hoffset : 0 < len → offset = p % info.capacity) (hfit : offset + len ≤ info.capacity) :
    s.Spares info.capacity offset len := by
  intro q hge hlt
  have hwindow := h.healthy.window
  exact mod_notMem_span (hwindow.1.trans hp) hfree hge (hlt.trans_le hwindow.2) (by omega)
    hoffset hfit

/-- A copy for free positions keeps the stream. -/
theorem Delivers.write {bytes : List UInt8} (hp : s.commit ≤ p)
    (hfree : p + bytes.length ≤ s.consume + info.capacity)
    (hoffset : bytes ≠ [] → offset = p % info.capacity)
    (hfit : offset + bytes.length ≤ info.capacity) :
    (exec info.capacity (.writeSpan p offset bytes) s).2.Delivers info := by
  have hoffset' : 0 < bytes.length → offset = p % info.capacity := fun hpos =>
    hoffset (ne_nil_of_length_pos hpos)
  have hspares : s.Spares info.capacity offset bytes.length := h.spares hp hfree hoffset' hfit
  have hwindow := h.healthy.window
  refine ⟨{ h.healthy with }, h.length, h.consumed, ?_, ?_, ?_⟩
  · intro q hge hlt
    show s.committed[q]? = some (overlay offset bytes s.data (q % info.capacity))
    rw [overlay_of_notMem (hspares q hge hlt)]
    exact h.intact q hge hlt
  · intro q b hd hlt
    have hq : ¬ (p ≤ q ∧ q < p + (bytes.map some).length) := by
      have : q < s.commit := hlt
      omega
    exact h.published q b ((overlay_of_notMem hq).symm.trans hd) hlt
  · intro q b hd hge
    show q < s.consume + info.capacity ∧
      overlay offset bytes s.data (q % info.capacity) = b
    have hd' : overlay p (bytes.map some) s.drafted q = some b := hd
    by_cases hq : p ≤ q ∧ q < p + bytes.length
    · obtain ⟨j, rfl⟩ := Nat.exists_eq_add_of_le hq.1
      have hj : j < bytes.length := by omega
      obtain rfl := hoffset' (by omega)
      have hb : bytes[j]? = some b := by
        rw [overlay_of_mem (x := some bytes[j]) hq.1 (by simp [hj])] at hd'
        simpa [hj] using hd'
      refine ⟨by omega, ?_⟩
      rw [mod_add_of_fit (by omega)]
      exact overlay_of_mem (by omega) (by rw [Nat.add_sub_cancel_left]; exact hb)
    · have hold : s.drafted q = some b := by
        rw [overlay_of_notMem (by simpa using hq)] at hd'
        exact hd'
      obtain ⟨hlt, hdata⟩ := h.pending q b hold hge
      refine ⟨hlt, ?_⟩
      rw [overlay_of_notMem, hdata]
      exact mod_notMem_span (hwindow.1.trans hp) hfree (hwindow.1.trans hge) hlt hq hoffset' hfit

/-- A copy out of committed positions that are not consumed is a piece of the stream. -/
theorem Delivers.read (hp : s.consume ≤ p) (hle : p + len ≤ s.commit)
    (hoffset : 0 < len → offset = p % info.capacity) (hfit : offset + len ≤ info.capacity) :
    s.span offset len <+: s.committed.drop p := by
  have hspan : s.span offset len = (s.committed.drop p).take len := by
    apply ext_getElem?
    intro j
    by_cases hj : j < len
    · obtain rfl := hoffset (by omega)
      rw [getElem?_span hj, getElem?_take_of_lt hj, getElem?_drop,
        h.intact (p + j) (by omega) (by omega), mod_add_of_fit (by omega)]
    · rw [getElem?_eq_none (by simp [span]; omega),
        getElem?_eq_none (by rw [length_take]; omega)]
  rw [hspan]
  exact take_prefix _ _

end

/-- What the consumer may do between two accesses of the producer. -/
structure Drained (info : RingHandle) (s t : Ring) : Prop where
  delivers : s.Delivers info → t.Delivers info
  commit : t.commit = s.commit
  committed : t.committed = s.committed
  consume : s.consume ≤ t.consume

/-- What the producer may do between two accesses of the consumer. -/
structure Filled (info : RingHandle) (s t : Ring) : Prop where
  delivers : s.Delivers info → t.Delivers info
  consume : t.consume = s.consume
  committed : s.committed <+: t.committed

theorem Drained.refl (s : Ring) : Drained info s s := ⟨id, rfl, rfl, Nat.le_refl _⟩

theorem Drained.trans {u : Ring} (h : Drained info s t) (h' : Drained info t u) :
    Drained info s u :=
  ⟨fun hs => h'.delivers (h.delivers hs), h'.commit.trans h.commit,
    h'.committed.trans h.committed, h.consume.trans h'.consume⟩

theorem Filled.refl (s : Ring) : Filled info s s := ⟨id, rfl, prefix_rfl⟩

theorem Filled.trans {u : Ring} (h : Filled info s t) (h' : Filled info t u) : Filled info s u :=
  ⟨fun hs => h'.delivers (h.delivers hs), h'.consume.trans h.consume,
    h.committed.trans h'.committed⟩

theorem Filled.commit (h : Filled info s t) (hs : s.Delivers info) : s.commit ≤ t.commit := by
  rw [← hs.length, ← (h.delivers hs).length]
  exact h.committed.length_le

end Ring

/-- An access that writes no cell of a committed byte that is not consumed. -/
def RingOp.Spares (capacity : ℕ) (s : Ring) : RingOp → Prop
  | .writeSpan _ offset bytes => s.Spares capacity offset bytes.length
  | .load _ | .store _ _ | .readSpan _ _ => True

section Parties

variable (info : RingHandle)

def producerContract : Contract RingOp Ring where
  rely := Drained info
  ok o s := s.Filled info (exec info.capacity o s).2 ∧ o.Spares info.capacity s
  refl := Drained.refl
  trans := Drained.trans

def consumerContract : Contract RingOp Ring where
  rely := Filled info
  ok o s := s.Drained info (exec info.capacity o s).2 ∧ o.Spares info.capacity s
  refl := Filled.refl
  trans := Filled.trans

/-- Neither a header that is refused nor a difference of cursors below zero. -/
def Stop.Sane (stop : Stop) : Prop := stop ≠ .underflow ∧ ∀ h, stop ≠ .flow (.corrupt h)

theorem Stop.sane_flow {err : FlowError} (h : ∀ g, err ≠ .corrupt g) : (Stop.flow err).Sane :=
  ⟨by simp, fun g heq => h g (Stop.flow.inj heq)⟩

/-- The producer may count on the positions that were free when it looked. -/
def producerView : View ⟨info, .producer⟩ where
  contract := producerContract info
  At c b s := s.Delivers info ∧ s.commit = c ∧ c ≤ b ∧ b ≤ s.consume + info.capacity
  Got _ _ _ := True
  allowed := Stop.Sane
  lax := False
  own h := h.2.1
  at_le := by
    rintro c b s ⟨h, rfl, hle, hfree⟩
    exact ⟨hle, hfree.trans (Nat.add_le_add_right h.healthy.window.1 _)⟩
  at_mono h hle hle' := ⟨h.1, h.2.1, hle, hle'.trans h.2.2.2⟩
  at_rely := by
    rintro c b s t ⟨h, rfl, hle, hfree⟩ hr
    exact ⟨hr.delivers h, hr.commit, hle, hfree.trans (Nat.add_le_add_right hr.consume _)⟩
  got_rely _ _ := trivial
  got_exec _ _ := trivial
  got_append _ _ := trivial
  window_rely h _ hr := (hr.delivers h.1).healthy.window
  healthy h := Or.inr h.1.healthy
  allowed_flow := Stop.sane_flow
  renew := by
    rintro c b s ⟨h, rfl, -⟩ hw
    have hw₁ := hw.1
    have hw₂ := hw.2
    refine ⟨h, rfl, Nat.le_add_right _ _, ?_⟩
    show s.commit + (info.capacity - (s.commit - s.consume)) ≤ s.consume + info.capacity
    dsimp only at hw₂
    omega
  load_ok _ _ := ⟨.refl _, trivial⟩
  write_ok := by
    rintro c b s p offset bytes - ⟨h, rfl, -, hfree⟩ hp hoffset hfit
    obtain ⟨hcp, hpb⟩ := hp.resolve_left id
    have hwrite := h.write hcp (hpb.trans hfree) hoffset hfit
    refine ⟨⟨⟨fun _ => hwrite, rfl, List.prefix_rfl⟩, ?_⟩, fun b' h' => ⟨hwrite, h'.2⟩⟩
    exact h.spares hcp (hpb.trans hfree)
      (fun hpos => hoffset (List.ne_nil_of_length_pos hpos)) hfit
  read_ok hrole := nomatch hrole
  store_ok := by
    rintro c b s v ⟨h, rfl, -, hfree⟩ hv hvb
    have hstore := h.commit hv (hvb.trans hfree)
    exact ⟨⟨⟨fun _ => hstore, rfl, List.prefix_append _ _⟩, trivial⟩,
      fun b' hle h' => ⟨hstore, rfl, hle, h'.2.2.2⟩⟩

/-- The consumer may count on the positions that were committed when it looked. -/
def consumerView : View ⟨info, .consumer⟩ where
  contract := consumerContract info
  At c b s := s.Delivers info ∧ s.consume = c ∧ c ≤ b ∧ b ≤ s.commit
  Got p x s := x <+: s.committed.drop p
  allowed := Stop.Sane
  lax := False
  own h := h.2.1
  at_le := by
    rintro c b s ⟨h, rfl, hle, hb⟩
    exact ⟨hle, hb.trans h.healthy.window.2⟩
  at_mono h hle hle' := ⟨h.1, h.2.1, hle, hle'.trans h.2.2.2⟩
  at_rely := by
    rintro c b s t ⟨h, rfl, hle, hb⟩ hr
    exact ⟨hr.delivers h, hr.consume, hle, hb.trans (hr.commit h)⟩
  got_rely hx hr := hx.trans (hr.committed.drop _)
  got_exec := by
    intro p x s o hx hok
    rw [hok.1.committed]
    exact hx
  got_append := by
    rintro p x y s ⟨rest, hrest⟩ hy
    rw [← List.drop_drop, ← hrest, List.drop_left] at hy
    rw [← hrest]
    exact (List.prefix_append_right_inj x).mpr hy
  window_rely h _ hr := (hr.delivers h.1).healthy.window
  healthy h := Or.inr h.1.healthy
  allowed_flow := Stop.sane_flow
  renew := by
    rintro c b s ⟨h, rfl, -⟩ hw
    refine ⟨h, rfl, Nat.le_add_right _ _, ?_⟩
    exact (Nat.add_sub_cancel' hw.1).le
  load_ok _ _ := ⟨.refl _, trivial⟩
  write_ok hrole := nomatch hrole
  read_ok := by
    rintro c b s p offset len - ⟨h, rfl, -, hb⟩ hp hle hoffset hfit
    exact ⟨⟨.refl _, trivial⟩, h.read hp (hle.trans hb) hoffset hfit⟩
  store_ok := by
    rintro c b s v ⟨h, rfl, -, hb⟩ hv hvb
    have hstore := h.consume hv (hvb.trans hb)
    exact ⟨⟨⟨fun _ => hstore, rfl, rfl, hv⟩, trivial⟩,
      fun b' hle h' => ⟨hstore, rfl, hle, h'.2.2.2⟩⟩

end Parties

/-- A ring with both of its parties. -/
structure Channel where
  ring : Ring
  producer : Status RingOp RingOp.Result Client
  consumer : Status RingOp RingOp.Result Client

namespace Channel

def party (x : Channel) : Role → Status RingOp RingOp.Result Client
  | .producer => x.producer
  | .consumer => x.consumer

def withParty (x : Channel) (status : Status RingOp RingOp.Result Client) : Role → Channel
  | .producer => { x with producer := status }
  | .consumer => { x with consumer := status }

/-- The client of a party calls an operation, or the party makes its next access. -/
inductive Action
  | call (role : Role) (call : Call)
  | access (role : Role)

def step (info : RingHandle) (x : Channel) : Action → Channel
  | .call role call =>
      match x.party role with
      | .idle client => x.withParty (.busy (Endpoint.perform ⟨info, role⟩ client call)) role
      | .busy _ => x
  | .access role =>
      let (status, ring) := (x.party role).advance (exec info.capacity) x.ring
      { x with ring := ring }.withParty status role

/-- A client passes what it was handed out, and writes a reservation only as long as nothing
was committed since. -/
def Fair (x : Channel) : Action → Prop
  | .call role call =>
      match x.party role with
      | .idle client => client.owns call = true ∧ client.timely call = true
      | .busy _ => True
  | .access _ => True

instance fair_decidable : ∀ (x : Channel) (a : Action), Decidable (x.Fair a)
  | ⟨_, .idle client, _⟩, .call .producer call =>
      inferInstanceAs (Decidable (client.owns call = true ∧ client.timely call = true))
  | ⟨_, .busy _, _⟩, .call .producer _ => inferInstanceAs (Decidable True)
  | ⟨_, _, .idle client⟩, .call .consumer call =>
      inferInstanceAs (Decidable (client.owns call = true ∧ client.timely call = true))
  | ⟨_, _, .busy _⟩, .call .consumer _ => inferInstanceAs (Decidable True)
  | _, .access _ => inferInstanceAs (Decidable True)

/-- An installed ring to which both parties are attached. -/
def opened (info : RingHandle) : Channel where
  ring := install info.capacity info.generation
  producer := .idle { position := 0 }
  consumer := .idle { position := 0 }

def run (info : RingHandle) (actions : List Action) : Channel :=
  actions.foldl (step info) (opened info)

/-- A party whose client calls an operation, which then runs to its end. -/
def whole (role : Role) (call : Call) : List Action :=
  .call role call :: List.replicate 12 (.access role)

variable {info : RingHandle}

/-- The ring holds the stream, and each party keeps its side. -/
structure Ok (info : RingHandle) (x : Channel) : Prop where
  delivers : x.ring.Delivers info
  producer : x.producer.Ok (exec info.capacity) (producerContract info)
    (producerView info).Sound x.ring
  consumer : x.consumer.Ok (exec info.capacity) (consumerContract info)
    (consumerView info).Sound x.ring

theorem ok_opened : (opened info).Ok info where
  delivers := delivers_install
  producer := View.sound_attached (V := producerView info)
    ⟨delivers_install, rfl, Nat.le_refl 0, Nat.zero_le _⟩
  consumer := View.sound_attached (V := consumerView info)
    ⟨delivers_install, rfl, Nat.le_refl 0, Nat.le_refl 0⟩

/-- A view that allows all panics but a difference below zero asks a client for no more than
to be fair. -/
theorem perform_fair {role : Role} {V : View ⟨info, role⟩} (hallowed : V.allowed = Stop.Sane)
    {client : Client} {s : Ring} (h : V.Sound client s) {call : Call}
    (hfair : client.owns call = true ∧ client.timely call = true) :
    Valid (exec info.capacity) V.contract (Endpoint.perform ⟨info, role⟩ client call)
      V.Sound s := by
  apply View.perform_valid _ h hfair.1 (Or.inr hfair.2)
  all_goals
    rw [hallowed]
    exact Or.inl ⟨by simp, by simp⟩

variable {x : Channel}

section

variable (h : x.Ok info)
include h

theorem ok_call {role : Role} {call : Call} (hfair : x.Fair (.call role call)) :
    (x.step info (.call role call)).Ok info := by
  obtain ⟨ring, producer, consumer⟩ := x
  cases role with
  | producer =>
    cases producer with
    | idle client => exact { h with producer := perform_fair rfl h.producer hfair }
    | busy program => exact h
  | consumer =>
    cases consumer with
    | idle client => exact { h with consumer := perform_fair rfl h.consumer hfair }
    | busy program => exact h

theorem Ok.filled : x.ring.Filled info (x.producer.advance (exec info.capacity) x.ring).2 :=
  h.producer.advance_state (.refl _) fun _ hok => hok.1

theorem Ok.drained : x.ring.Drained info (x.consumer.advance (exec info.capacity) x.ring).2 :=
  h.consumer.advance_state (.refl _) fun _ hok => hok.1

theorem ok_access (role : Role) : (x.step info (.access role)).Ok info := by
  cases role with
  | producer =>
    exact
      { delivers := h.filled.delivers h.delivers
        producer := h.producer.advance
        consumer := h.consumer.stable
          (fun _ _ _ hs hr => hs.keeps (View.keeps_of_rely hr)) h.filled }
  | consumer =>
    exact
      { delivers := h.drained.delivers h.delivers
        producer := h.producer.stable
          (fun _ _ _ hs hr => hs.keeps (View.keeps_of_rely hr)) h.drained
        consumer := h.consumer.advance }

theorem ok_step (a : Action) (hfair : x.Fair a) : (x.step info a).Ok info := by
  cases a with
  | call role call => exact ok_call h hfair
  | access role => exact ok_access h role

end

/-- Delivery: in every run in which no reservation is written after a later commit, the bytes
consumed are the first ones of those committed, the bytes committed are the ones last written
for their positions and stay in the ring until they are consumed, and what the consumer
copies out are pieces of them. No call of either party ends with a header that is refused. -/
theorem delivered (info : RingHandle) (actions : List Action)
    (hfair : Guarded Fair (step info) (opened info) actions) :
    let x := run info actions
    x.ring.consumed <+: x.ring.committed ∧
      x.ring.consumed.length = x.ring.consume ∧ x.ring.committed.length = x.ring.commit ∧
      (∀ p b, x.ring.drafted p = some b → p < x.ring.commit → x.ring.committed[p]? = some b) ∧
      (∀ p, x.ring.consume ≤ p → p < x.ring.commit →
        x.ring.committed[p]? = some (x.ring.data (p % info.capacity))) ∧
      (∀ role position offset bytes,
        (x.party role).next = some (.writeSpan position offset bytes) →
          x.ring.Spares info.capacity offset bytes.length) ∧
      (∀ client, x.consumer.client? = some client → ∀ copy ∈ client.copies,
        copy.2 <+: x.ring.committed.drop copy.1) ∧
      ∀ role client, (x.party role).client? = some client → ∀ stop ∈ client.reports,
        ∀ h, stop ≠ .flow (.corrupt h) := by
  intro x
  have hok : x.Ok info := hfair.invariant (fun _ a hy hf => ok_step hy a hf) ok_opened
  have h := hok.delivers
  refine ⟨?_, ?_, h.length, h.published, h.intact, ?_, ?_, ?_⟩
  · rw [h.consumed]
    exact take_prefix _ _
  · rw [h.consumed, length_take, h.length]
    exact Nat.min_eq_left h.healthy.window.1
  · intro role position offset bytes hnext
    cases role with
    | producer => exact (hok.producer.next_ok hnext).2
    | consumer => exact (hok.consumer.next_ok hnext).2
  · intro client hclient
    exact (hok.consumer.client hclient).copies
  · intro role client hclient stop hstop
    cases role with
    | producer => exact ((hok.producer.client hclient).reports stop hstop).2
    | consumer => exact ((hok.consumer.client hclient).reports stop hstop).2

/-- Three bytes, of which two are consumed before three more wrap around. -/
theorem delivered_wrapped :
    let info : RingHandle := ⟨4, 1⟩
    let actions := whole .producer (.reserve 3) ++
      whole .producer (.write ⟨0, 3, 1⟩ [1, 2, 3]) ++ whole .producer (.commit ⟨0, 3, 1⟩) ++
      whole .consumer (.consume 2) ++ whole .producer (.reserve 3) ++
      whole .producer (.write ⟨3, 3, 1⟩ [4, 5, 6]) ++ whole .producer (.commit ⟨3, 3, 1⟩) ++
      whole .consumer (.read 4)
    let x := run info actions
    x.ring.committed = [1, 2, 3, 4, 5, 6] ∧
      x.consumer.client? = some { position := 2, copies := [(2, [3, 4, 5, 6])] } ∧
      x.ring.consumed <+: x.ring.committed := by
  intro info actions x
  have hfair : Guarded Fair (step info) (opened info) actions := by decide +kernel
  have hcommitted : x.ring.committed = [1, 2, 3, 4, 5, 6] := by decide +kernel
  have hclient : x.consumer.client? =
      some { position := 2, copies := [(2, [3, 4, 5, 6])] } := by decide +kernel
  clear_value actions
  exact ⟨hcommitted, hclient, (delivered info actions hfair).1⟩

/-- A reservation that is written again after its commit: the bytes that were committed are
lost before they are consumed, and the consumer copies out others. -/
theorem late_write_overwrites :
    let info : RingHandle := ⟨4, 1⟩
    let actions := whole .producer (.reserve 3) ++
      whole .producer (.write ⟨0, 3, 1⟩ [1, 2, 3]) ++ whole .producer (.commit ⟨0, 3, 1⟩) ++
      whole .producer (.write ⟨0, 3, 1⟩ [7, 8, 9]) ++ whole .consumer (.read 3)
    let x := run info actions
    x.ring.committed = [1, 2, 3] ∧ x.ring.consumed = [] ∧ x.ring.span 0 3 = [7, 8, 9] ∧
      x.producer.client? = some { position := 3, reservations := [⟨0, 3, 1⟩] } ∧
      x.consumer.client? = some { position := 0, copies := [(0, [7, 8, 9])] } := by
  decide +kernel

end Channel

end Swactor.DataPlane
