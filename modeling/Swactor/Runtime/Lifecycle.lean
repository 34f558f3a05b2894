import Swactor.Lib.Trace
import Swactor.Runtime.Refinement
import Swactor.Runtime.Routing

/-!
# The lifecycle of an actor

The rules of the lifecycle are stated on the trace: which events may follow a trace.
The order of the callbacks of every actor can be read off a trace that is lawful under
these rules. The traces of the runtime are lawful because the flags of a slot record
which of the actor's events have happened.
-/
namespace Swactor.Runtime

open Function Machine Trace List

section Trace

variable {W : Type}

section

variable (trace : List (Event W)) (a : ActorAddress)

/-- The actor was marked as stopping. -/
def Stopped : Prop :=
  ∃ cause, .stopping a cause ∈ trace

/-- The actor was stopped or poisoned. -/
def Marked : Prop :=
  Stopped trace a ∨ .poisoned a ∈ trace

def Removed : Prop :=
  ∃ w, .removed a w ∈ trace

/-- The rules: what may happen after `past`. -/
def Permits (past : List (Event W)) : Event W → Prop
  | .startCalled a => .startCalled a ∉ past ∧ ¬Marked past a ∧ ¬Removed past a
  | .handleCalled a _ => .startCalled a ∈ past ∧ ¬Marked past a ∧ ¬Removed past a
  | .stopping a cause =>
      ¬Removed past a ∧ (cause.needsStart = true → .startCalled a ∈ past)
  | .poisoned a => .startCalled a ∈ past ∧ ¬Removed past a
  | .removed a _ => Marked past a ∧ ¬Removed past a
  | .stopCalled a =>
      Removed past a ∧ Stopped past a ∧ .poisoned a ∉ past ∧ .stopCalled a ∉ past
  | .discarded a _ => Marked past a ∨ Removed past a
  | _ => True

end

variable {trace past rest : List (Event W)} {e : Event W} {a : ActorAddress}

theorem Stopped.mono (h : Stopped past a) (hsub : past ⊆ trace) : Stopped trace a :=
  h.imp fun _ hmem => hsub hmem

theorem Marked.mono (h : Marked past a) (hsub : past ⊆ trace) : Marked trace a :=
  h.imp (fun hs => hs.mono hsub) fun hmem => hsub hmem

theorem Removed.mono (h : Removed past a) (hsub : past ⊆ trace) : Removed trace a :=
  h.imp fun _ hmem => hsub hmem

variable {trace : List (Event W)} {a : ActorAddress}

/-- Two events of a trace, in their order. -/
theorem split_of_mem_rest {f : Event W} (hsplit : trace = past ++ e :: rest) (hf : f ∈ rest) :
    ∃ past' rest', trace = past' ++ f :: rest' ∧ past ⊆ past' ∧ e ∈ past' := by
  obtain ⟨l, r, rfl⟩ := append_of_mem hf
  refine ⟨past ++ e :: l, r, by rw [hsplit]; simp, fun x hx => mem_append_left _ hx, ?_⟩
  exact mem_append_right _ mem_cons_self

/-- A callback of the actor. -/
def Callback (a : ActorAddress) (e : Event W) : Prop :=
  e = .startCalled a ∨ (∃ payload, e = .handleCalled a payload) ∨ e = .stopCalled a

variable (h : Lawful Permits trace)
include h

theorem started_once [DecidableEq W] : trace.count (.startCalled a) ≤ 1 := by
  refine h.countP_le_one fun past e hpermits he => ?_
  rw [eq_of_beq he] at hpermits
  simpa [seen, forall_mem_ne'] using hpermits.1

theorem stopped_once [DecidableEq W] : trace.count (.stopCalled a) ≤ 1 := by
  refine h.countP_le_one fun past e hpermits he => ?_
  rw [eq_of_beq he] at hpermits
  simpa [seen, forall_mem_ne'] using hpermits.2.2.2

/-- `on_stop` never runs for an actor that is or will be poisoned. -/
theorem not_poisoned (hstop : .stopCalled a ∈ trace) : .poisoned a ∉ trace := by
  intro hmem
  obtain ⟨past, rest, hsplit⟩ := append_of_mem hstop
  obtain ⟨hremoved, -, hclean, -⟩ := h _ _ _ hsplit
  rw [hsplit] at hmem
  rcases mem_append.mp hmem with hmem | hmem
  · exact hclean hmem
  · rcases mem_cons.mp hmem with hmem | hmem
    · cases hmem
    · obtain ⟨past', rest', hsplit', hsub, -⟩ := split_of_mem_rest hsplit hmem
      exact (h _ _ _ hsplit').2 (hremoved.mono hsub)

/-- `on_stop` is the last callback. -/
theorem no_callback_after_stop (hsplit : trace = past ++ .stopCalled a :: rest) (he : e ∈ rest) :
    ¬Callback a e := by
  obtain ⟨hremoved, -, -, -⟩ := h _ _ _ hsplit
  obtain ⟨past', rest', hsplit', hsub, hmem⟩ := split_of_mem_rest hsplit he
  have hpermits := h _ _ _ hsplit'
  rintro (rfl | ⟨payload, rfl⟩ | rfl)
  · exact hpermits.2.2 (hremoved.mono hsub)
  · exact hpermits.2.2 (hremoved.mono hsub)
  · exact hpermits.2.2.2 hmem

/-- An actor whose `on_stop` runs was started, unless an admin command or a signal
intercepted at delivery stopped it. -/
theorem start_before_stop (hsplit : trace = past ++ .stopCalled a :: rest) :
    .startCalled a ∈ past ∨ .stopping a .intercepted ∈ past ∨ .stopping a .admin ∈ past := by
  obtain ⟨-, ⟨cause, hcause⟩, -, -⟩ := h _ _ _ hsplit
  obtain ⟨l, r, hl⟩ := append_of_mem hcause
  have hsplit' : trace = l ++ .stopping a cause :: (r ++ .stopCalled a :: rest) := by
    rw [hsplit, hl]
    simp
  have hneeds := (h _ _ _ hsplit').2
  cases cause with
  | requested | signalled => exact Or.inl (hl ▸ mem_append_left _ (hneeds rfl))
  | intercepted => exact Or.inr (Or.inl hcause)
  | admin => exact Or.inr (Or.inr hcause)

end Trace

namespace Spec

section Flags

variable {W : Type} {budget : ℕ} {gate : Gate} {trace es : List (Event W)} {a b : ActorAddress}
  {x y : Slot}

/-- The actor whose flags an event concerns. -/
def marks : Event W → Option ActorAddress
  | .startCalled a => some a
  | .stopping a _ => some a
  | .poisoned a => some a
  | _ => none

/-- The flags of a slot are what the trace says of its actor. -/
structure Records (trace : List (Event W)) (a : ActorAddress) (x : Slot) : Prop where
  started : x.started = true ↔ .startCalled a ∈ trace
  stopping : x.stopping = true ↔ Stopped trace a
  poisoned : x.poisoned = true ↔ .poisoned a ∈ trace

theorem mem_append_of_silent (h : ∀ e ∈ es, marks e ≠ some a) {e : Event W}
    (he : marks e = some a) : e ∈ trace ++ es ↔ e ∈ trace := by
  rw [mem_append]
  exact ⟨fun hmem => hmem.resolve_right fun hes => h e hes he, Or.inl⟩

theorem stopped_append_of_silent (h : ∀ e ∈ es, marks e ≠ some a) :
    Stopped (trace ++ es) a ↔ Stopped trace a :=
  exists_congr fun _ => mem_append_of_silent h rfl

theorem Records.append (hx : Records trace a x) (h : ∀ e ∈ es, marks e ≠ some a) :
    Records (trace ++ es) a x := by
  refine ⟨?_, ?_, ?_⟩
  · rw [mem_append_of_silent h rfl]
    exact hx.started
  · rw [stopped_append_of_silent h]
    exact hx.stopping
  · rw [mem_append_of_silent h rfl]
    exact hx.poisoned

theorem Records.marked (hx : Records trace a x) :
    Marked trace a ↔ x.stopping = true ∨ x.poisoned = true := by
  rw [hx.stopping, hx.poisoned]
  rfl

theorem marks_discards (ps : List Payload) :
    ∀ e ∈ (discards a ps : List (Event W)), marks e = none := by
  intro e he
  obtain ⟨m, rfl⟩ := eq_discarded_of_mem he
  rfl

theorem silent_discards (ps : List Payload) :
    ∀ e ∈ (discards a ps : List (Event W)), marks e ≠ some b :=
  fun e he => by simp [marks_discards ps e he]

theorem SlotStep.marks (h : SlotStep a x es y) : ∀ e ∈ es, ∀ b, Spec.marks e = some b → b = a := by
  have hcons : ∀ (f : Event W) (ps : List Payload), Spec.marks f = some a →
      ∀ e ∈ f :: discards a ps, ∀ b, Spec.marks e = some b → b = a := by
    intro f ps hf e he b hb
    rcases mem_cons.mp he with rfl | he
    · exact Option.some.inj (hb.symm.trans hf)
    · exact absurd hb (silent_discards ps e he)
  cases h with
  | start => simp [Spec.marks]
  | take typed => cases typed <;> simp [Spec.marks]
  | halt cause | poison => exact hcons _ _ rfl
  | clear => exact fun e he b hb => absurd hb (silent_discards _ e he)

/-- The flags follow the trace. -/
theorem SlotStep.records (h : SlotStep a x es y) (hx : Records trace a x) :
    Records (trace ++ es) a y := by
  have hcons : ∀ (f : Event W) (ps : List Payload) (z : Slot), Records (trace ++ [f]) a z →
      Records (trace ++ f :: discards a ps) a z := by
    intro f ps z hz
    have h := hz.append (silent_discards (a := a) (b := a) ps)
    rwa [append_assoc] at h
  cases h with
  | start hstarted hstopping hpoisoned =>
    refine ⟨by simp, ?_, ?_⟩
    · simpa [Stopped] using hx.stopping
    · simpa using hx.poisoned
  | take typed => exact ⟨(hx.append (by cases typed <;> simp [Spec.marks])).started,
      (hx.append (by cases typed <;> simp [Spec.marks])).stopping,
      (hx.append (by cases typed <;> simp [Spec.marks])).poisoned⟩
  | halt cause hcause =>
    refine hcons _ _ _ ⟨?_, ?_, ?_⟩
    · simpa using hx.started
    · exact ⟨fun _ => ⟨cause, by simp⟩, fun _ => rfl⟩
    · simpa using hx.poisoned
  | poison hstarted =>
    refine hcons _ _ _ ⟨?_, ?_, ?_⟩
    · simpa using hx.started
    · simpa [Stopped] using hx.stopping
    · simp
  | clear hdead =>
    have h := hx.append (silent_discards (a := a) (b := a) x.mailbox)
    exact ⟨h.started, h.stopping, h.poisoned⟩

theorem lawful_discards (hl : Lawful Permits trace) (h : Marked trace a ∨ Removed trace a)
    (ps : List Payload) : Lawful Permits (trace ++ discards a ps) := by
  induction ps generalizing trace with
  | nil => simpa [discards] using hl
  | cons p ps ih =>
    cases p with
    | user m =>
      have hsub : trace ⊆ trace ++ [.discarded a m] := subset_append_left _ _
      have hnext : Lawful Permits (trace ++ [.discarded a m]) := lawful_concat.mpr ⟨hl, h⟩
      have hrest := ih hnext (h.imp (·.mono hsub) (·.mono hsub))
      rwa [append_assoc] at hrest
    | stop | stopWith v | resume => exact ih hl h

/-- An event after which the mailbox of the actor is discarded. -/
theorem lawful_cons_discards {f : Event W} (hl : Lawful Permits trace) (hf : Permits trace f)
    (h : Marked (trace ++ [f]) a ∨ Removed (trace ++ [f]) a) (ps : List Payload) :
    Lawful Permits (trace ++ f :: discards a ps) := by
  have hall := lawful_discards (lawful_concat.mpr ⟨hl, hf⟩) h ps
  rwa [append_assoc] at hall

/-- A change of a slot keeps the rules. -/
theorem SlotStep.lawful (h : SlotStep a x es y) (hx : Records trace a x)
    (hlive : ¬Removed trace a) (hl : Lawful Permits trace) : Lawful Permits (trace ++ es) := by
  cases h with
  | start hstarted hstopping hpoisoned =>
    have hnew : ¬Marked trace a := by simp [hx.marked, hstopping, hpoisoned]
    refine lawful_concat.mpr ⟨hl, fun hmem => ?_, hnew, hlive⟩
    simp [hx.started.mpr hmem] at hstarted
  | take typed hmailbox hstarted hstopping hpoisoned =>
    have hnew : ¬Marked trace a := by simp [hx.marked, hstopping, hpoisoned]
    refine lawful_concat.mpr ⟨hl, ?_⟩
    cases typed with
    | true => exact ⟨hx.started.mp hstarted, hnew, hlive⟩
    | false => trivial
  | halt cause hcause =>
    refine lawful_cons_discards hl ?_ (Or.inl (Or.inl ⟨cause, by simp⟩)) _
    exact ⟨hlive, fun hneeds => hx.started.mp (hcause hneeds)⟩
  | poison hstarted =>
    refine lawful_cons_discards hl ?_ (Or.inl (Or.inr (by simp))) _
    exact ⟨hx.started.mp hstarted, hlive⟩
  | clear hdead =>
    refine lawful_discards hl (Or.inl (hx.marked.mpr ?_)) _
    simpa [or_comm] using hdead

/-- A delivery is an arrival or a stop. -/
theorem Delivery.cases {msg : Payload} (h : Delivery a msg x es y) :
    ((∀ e ∈ es, Spec.marks e = none) ∧ (∀ past : List (Event W), Lawful Permits past →
      Lawful Permits (past ++ es)) ∧ y.started = x.started ∧
      y.stopping = x.stopping ∧ y.poisoned = x.poisoned) ∨ SlotStep a x es y := by
  cases h with
  | push =>
    refine Or.inl ⟨?_, fun past hl => ?_, rfl, rfl, rfl⟩
    · cases msg <;> simp [arrivals, Spec.marks]
    · cases msg with
      | user m => exact lawful_concat.mpr ⟨hl, trivial⟩
      | stop | stopWith v | resume => exact (append_nil past).symm ▸ hl
  | resume => exact Or.inl ⟨by simp, fun past hl => (append_nil past).symm ▸ hl, rfl, rfl, rfl⟩
  | halt => exact Or.inr (.halt .intercepted fun hneeds => by simp [StopCause.needsStart] at hneeds)

end Flags

section Invariant

variable {W : Type} {budget : ℕ} {gate : Gate} {s : State W} {a : ActorAddress}

structure Tracked (s : State W) : Prop where
  records : ∀ {w a x}, (s.desk w).pool a = some x → Records s.trace a x
  touched : ∀ {a}, .startCalled a ∈ s.trace ∨ Marked s.trace a →
    (∃ w, ((s.desk w).pool a).isSome = true) ∨ Removed s.trace a
  legal : Lawful Permits s.trace

theorem tracked_init : Tracked ({} : State W) := by
  refine ⟨fun hx => ?_, fun ht => ?_, lawful_nil⟩
  · cases hx
  · rcases ht with ht | ⟨cause, ht⟩ | ht
    · exact absurd ht not_mem_nil
    · exact absurd ht not_mem_nil
    · exact absurd ht not_mem_nil

variable {w : W} {x : Slot} {d : Desk} {es : List (Event W)}

theorem Placed.route_of_pool (hp : Placed s) (hx : ((s.desk w).pool a).isSome = true) :
    s.route a = some w :=
  ((hp.desk w).held a).mpr (Or.inl hx)

theorem Placed.pool_unique (hp : Placed s) {v : W} (hw : ((s.desk w).pool a).isSome = true)
    (hv : ((s.desk v).pool a).isSome = true) : w = v :=
  Option.some.inj ((hp.route_of_pool hw).symm.trans (hp.route_of_pool hv))

/-- An actor that is routed and not being removed was not removed. -/
theorem Placed.not_removed (hp : Placed s) (hroute : s.route a = some w)
    (hdying : a ∉ (s.desk w).dying) : ¬Removed s.trace a := by
  rintro ⟨v, hv⟩
  obtain ⟨hhome, hwhere⟩ := hp.removed hv
  obtain rfl : v = w := hp.home hhome (hp.routed hroute)
  rcases hwhere with hwhere | hwhere
  · rw [hroute] at hwhere
    cases hwhere
  · exact hdying hwhere

theorem Placed.not_removed_of_pool (hp : Placed s) (hx : (s.desk w).pool a = some x) :
    ¬Removed s.trace a := by
  have hsome : ((s.desk w).pool a).isSome = true := by simp [hx]
  refine hp.not_removed (hp.route_of_pool hsome) fun hmem => ?_
  rw [(hp.desk w).absent a (mem_append_right _ hmem)] at hx
  cases hx

/-- An actor whose spawn is queued has no lifecycle yet. -/
theorem Tracked.untouched (h : Tracked s) (hp : Placed s) (hqueued : a ∈ (s.desk w).spawns) :
    .startCalled a ∉ s.trace ∧ ¬Marked s.trace a := by
  have hroute : s.route a = some w := ((hp.desk w).held a).mpr (Or.inr (Or.inl hqueued))
  have hnodup := nodup_append.mp (hp.desk w).nodup
  have hlive : ¬Removed s.trace a :=
    hp.not_removed hroute fun hmem => hnodup.2.2 a hqueued a hmem rfl
  have hnone : (s.desk w).pool a = none := (hp.desk w).absent a (mem_append_left _ hqueued)
  rw [← not_or]
  intro ht
  rcases h.touched ht with ⟨v, hv⟩ | hr
  · obtain rfl : v = w := Option.some.inj ((hp.route_of_pool hv).symm.trans hroute)
    simp [hnone] at hv
  · exact hlive hr

theorem Tracked.accept (h : Tracked s) (sender : Sender) (dest : ActorAddress) :
    Tracked (s.accept sender dest) := by
  have hsilent : ∀ b, ∀ e ∈ [Event.accepted (W := W) dest (s.message sender)],
      marks e ≠ some b := by simp [marks]
  refine ⟨fun hx => (h.records hx).append (hsilent _), fun {b} ht => ?_,
    lawful_concat.mpr ⟨h.legal, trivial⟩⟩
  have hold : .startCalled b ∈ s.trace ∨ Marked s.trace b :=
    ht.imp (mem_append_of_silent (hsilent b) rfl).mp
      (Or.imp (stopped_append_of_silent (hsilent b)).mp (mem_append_of_silent (hsilent b) rfl).mp)
  exact (h.touched hold).imp id fun hr => hr.mono (subset_append_left _ _)

theorem Tracked.reroute (h : Tracked s) (route : ActorAddress → Option W) :
    Tracked { s with route := route } :=
  ⟨h.records, h.touched, h.legal⟩

variable [DecidableEq W]

/-- One worker changes: the events concern actors in its pool, whose slots follow. -/
theorem Tracked.put (h : Tracked s) (hp : Placed s)
    (hmarks : ∀ e ∈ es, ∀ b, marks e = some b → ((s.desk w).pool b).isSome = true)
    (hrecords : ∀ b x, d.pool b = some x → Records (s.trace ++ es) b x)
    (hkeep : ∀ b, ((s.desk w).pool b).isSome = true →
      (d.pool b).isSome = true ∨ Removed (s.trace ++ es) b)
    (hlegal : Lawful Permits (s.trace ++ es)) : Tracked (s.put w d es) := by
  have hpool : ∀ b, (∃ v, ((s.desk v).pool b).isSome = true) →
      (∃ v, (((s.put w d es).desk v).pool b).isSome = true) ∨ Removed (s.trace ++ es) b := by
    rintro b ⟨v, hv⟩
    obtain ⟨rfl, hd⟩ | ⟨-, hd⟩ := s.put_desk_cases w d es v
    · exact (hkeep b hv).imp_left fun hb => ⟨v, hd.symm ▸ hb⟩
    · exact Or.inl ⟨v, hd.symm ▸ hv⟩
  refine ⟨fun {v b x} hx => ?_, fun {b} ht => ?_, hlegal⟩
  · obtain ⟨rfl, hd⟩ | ⟨hv, hd⟩ := s.put_desk_cases w d es v <;> rw [hd] at hx
    · exact hrecords b x hx
    · refine (h.records hx).append fun e he hmark => hv ?_
      exact hp.pool_unique (by simp [hx]) (hmarks e he b hmark)
  · by_cases hold : .startCalled b ∈ s.trace ∨ Marked s.trace b
    · rcases h.touched hold with hb | hb
      · exact hpool b hb
      · exact Or.inr (hb.mono (subset_append_left _ _))
    · have hnew : ∃ e ∈ es, marks e = some b := by
        by_contra hnone
        have hsilent : ∀ e ∈ es, marks e ≠ some b := fun e he hm => hnone ⟨e, he, hm⟩
        refine hold (ht.imp (mem_append_of_silent hsilent rfl).mp ?_)
        exact Or.imp (stopped_append_of_silent hsilent).mp (mem_append_of_silent hsilent rfl).mp
      obtain ⟨e, he, hm⟩ := hnew
      exact hpool b ⟨w, hmarks e he b hm⟩

/-- One worker changes and no flag does. -/
theorem Tracked.put_silent (h : Tracked s) (hp : Placed s) (hsilent : ∀ e ∈ es, marks e = none)
    (hpool : ∀ b y, d.pool b = some y → ∃ x, (s.desk w).pool b = some x ∧
      y.started = x.started ∧ y.stopping = x.stopping ∧ y.poisoned = x.poisoned)
    (hkeep : ∀ b, ((s.desk w).pool b).isSome = true → (d.pool b).isSome = true)
    (hlegal : Lawful Permits (s.trace ++ es)) : Tracked (s.put w d es) := by
  refine h.put hp (fun e he b hb => ?_) (fun b y hy => ?_) (fun b hb => Or.inl (hkeep b hb)) hlegal
  · rw [hsilent e he] at hb
    cases hb
  · obtain ⟨x, hx, hstarted, hstopping, hpoisoned⟩ := hpool b y hy
    have hr : Records (s.trace ++ es) b x :=
      (h.records hx).append fun e he => by simp [hsilent e he]
    exact ⟨hstarted ▸ hr.started, hstopping ▸ hr.stopping, hpoisoned ▸ hr.poisoned⟩

/-- Only the queues of a worker change. -/
theorem Tracked.put_queues (h : Tracked s) (hp : Placed s) (hd : d.pool = (s.desk w).pool)
    (hsilent : ∀ e ∈ es, marks e = none) (hlegal : Lawful Permits (s.trace ++ es)) :
    Tracked (s.put w d es) :=
  h.put_silent hp hsilent (fun _ y hy => ⟨y, hd ▸ hy, rfl, rfl, rfl⟩) (fun _ hb => hd ▸ hb) hlegal

theorem Tracked.put_quiet (h : Tracked s) (hp : Placed s) (hd : d.pool = (s.desk w).pool) :
    Tracked (s.put w d []) :=
  h.put_queues hp hd (by simp) (by simpa using h.legal)

/-- A slot changes and its flags do not. -/
theorem Tracked.put_slot (h : Tracked s) (hp : Placed s) {y : Slot} (hd : d.pool = (s.desk w).pool)
    (hx : (s.desk w).pool a = some x)
    (hflags : y.started = x.started ∧ y.stopping = x.stopping ∧ y.poisoned = x.poisoned)
    (hsilent : ∀ e ∈ es, marks e = none) (hlegal : Lawful Permits (s.trace ++ es)) :
    Tracked (s.put w (d.setSlot a y) es) := by
  refine h.put_silent hp hsilent (fun b z hz => ?_) (fun b hb => isSome_setSlot (hd ▸ hb)) hlegal
  obtain ⟨rfl, rfl⟩ | ⟨-, hz⟩ := setSlot_eq_some hz
  · exact ⟨x, hx, hflags⟩
  · exact ⟨z, hd ▸ hz, rfl, rfl, rfl⟩

theorem Tracked.slot (h : Tracked s) (hp : Placed s) {y : Slot} (hd : d.pool = (s.desk w).pool)
    (hx : (s.desk w).pool a = some x) (hstep : SlotStep a x es y) :
    Tracked (s.put w (d.setSlot a y) es) := by
  have hlive : ¬Removed s.trace a := hp.not_removed_of_pool hx
  refine h.put hp (fun e he b hb => ?_) (fun b z hz => ?_)
    (fun b hb => Or.inl (isSome_setSlot (hd ▸ hb))) (hstep.lawful (h.records hx) hlive h.legal)
  · rw [hstep.marks e he b hb, hx]
    rfl
  · obtain ⟨rfl, rfl⟩ | ⟨hba, hz⟩ := setSlot_eq_some hz
    · exact hstep.records (h.records hx)
    · exact (h.records (hd ▸ hz)).append fun e he hm => hba (hstep.marks e he b hm)

/-- Placing an envelope. Only a message to a removed actor is dropped. -/
theorem Tracked.placing (h : Tracked s) (hp : Placed s) (hr : Routed s) {d' : Desk} {e : Envelope}
    (hplace : Placing (fun a => s.route a = some w) e d es d') (hd : d.pool = (s.desk w).pool)
    (hletter : ∀ m, letterOf e = some m → (s.desk w).waiting m) : Tracked (s.put w d' es) := by
  cases hplace with
  | deliver hx hdel =>
    rw [hd] at hx
    rcases hdel.cases with ⟨hsilent, hlegal, hflags⟩ | hslot
    · exact h.put_slot hp hd hx hflags hsilent (hlegal s.trace h.legal)
    · exact h.slot hp hd hx hslot
  | defer hx hhere => exact h.put_quiet hp hd
  | drop hx hhere =>
    refine h.put_queues hp hd (marks_discards _) ?_
    cases hpayload : e.payload with
    | user m =>
      have hhome : .spawned e.dest w ∈ s.trace :=
        (hr w).dest (e.dest, m) (hletter _ (by simp [letterOf, hpayload]))
      exact lawful_discards h.legal (Or.inr ⟨w, (hp.gone hhome).resolve_left hhere⟩) _
    | stop | stopWith v | resume => exact (append_nil s.trace).symm ▸ h.legal

theorem Tracked.install (h : Tracked s) (hp : Placed s) {rest : List ActorAddress}
    (hspawns : (s.desk w).spawns = a :: rest) :
    Tracked (s.put w { (s.desk w).setSlot a {} with spawns := rest } []) := by
  obtain ⟨hstart, hmark⟩ := h.untouched hp (hspawns ▸ mem_cons_self : a ∈ (s.desk w).spawns)
  obtain ⟨hstop, hpoison⟩ := not_or.mp hmark
  refine h.put hp (by simp) (fun b x hx => ?_) (fun b hb => Or.inl (isSome_setSlot hb))
    (by simpa using h.legal)
  rw [append_nil]
  obtain ⟨rfl, rfl⟩ | ⟨-, hx⟩ := setSlot_eq_some hx
  · exact ⟨by simpa using hstart, by simpa using hstop, by simpa using hpoison⟩
  · exact h.records hx

omit [DecidableEq W] in
/-- `on_stop` of a removed actor that was stopping and never poisoned keeps the rules. -/
theorem Tracked.stop_permitted (h : Tracked s) (hrec : Records s.trace a x)
    (hlive : ¬Removed s.trace a) (heligible : isOnStopEligible x.stopping x.poisoned = true)
    (hsilent : ∀ e ∈ es, marks e = none) (hstop : .stopCalled a ∉ es)
    (hremoved : Removed (s.trace ++ es) a) : Permits (s.trace ++ es) (.stopCalled a) := by
  obtain ⟨hstopping, hpoisoned⟩ : x.stopping = true ∧ x.poisoned = false := by
    simpa [isOnStopEligible] using heligible
  refine ⟨hremoved, (hrec.stopping.mp hstopping).mono (subset_append_left _ _),
    fun hmem => ?_, fun hmem => ?_⟩
  · have hold : .poisoned a ∈ s.trace :=
      (mem_append_of_silent (a := a) (fun e he => by simp [hsilent e he]) rfl).mp hmem
    rw [hrec.poisoned.mpr hold] at hpoisoned
    cases hpoisoned
  · have hold : .stopCalled a ∈ s.trace := (mem_append.mp hmem).resolve_right hstop
    obtain ⟨past, rest, hsplit⟩ := append_of_mem hold
    refine hlive ((h.legal _ _ _ hsplit).1.mono ?_)
    rw [hsplit]
    exact subset_append_left _ _

theorem Tracked.reap (h : Tracked s) (hp : Placed s) (hx : (s.desk w).pool a = some x)
    (hdead : (x.poisoned || x.stopping) = true) :
    Tracked (s.put w
      { s.desk w with
        pool := update (s.desk w).pool a none, dying := (s.desk w).dying ++ [a] }
      (.removed a w :: discards a x.mailbox ++
        if isOnStopEligible x.stopping x.poisoned then [.stopCalled a] else [])) := by
  have hrec := h.records hx
  have hlive := hp.not_removed_of_pool hx
  have hmarked : Marked s.trace a := hrec.marked.mpr (by simpa [or_comm] using hdead)
  have hquiet : ∀ e ∈ (.removed a w :: discards a x.mailbox : List (Event W)),
      marks e = none := by
    intro e he
    rcases mem_cons.mp he with rfl | he
    · rfl
    · exact marks_discards _ e he
  have hnostop : .stopCalled a ∉ (.removed a w :: discards a x.mailbox : List (Event W)) := by
    intro hmem
    obtain ⟨m, hm⟩ := eq_discarded_of_mem ((mem_cons.mp hmem).resolve_left (by simp))
    cases hm
  set last : List (Event W) :=
    if isOnStopEligible x.stopping x.poisoned then [.stopCalled a] else [] with hlast
  have hsilent : ∀ e ∈ (.removed a w :: discards a x.mailbox ++ last : List (Event W)),
      marks e = none := by
    intro e he
    rcases mem_append.mp he with he | he
    · exact hquiet e he
    · rw [hlast] at he
      split_ifs at he with heligible
      · obtain rfl : e = .stopCalled a := by simpa using he
        rfl
      · exact absurd he not_mem_nil
  have hremoved : Removed (s.trace ++ (.removed a w :: discards a x.mailbox ++ last)) a :=
    ⟨w, by simp⟩
  have hlegal : Lawful Permits (s.trace ++ (.removed a w :: discards a x.mailbox ++ last)) := by
    have hfirst := lawful_cons_discards (a := a) (f := .removed a w) h.legal ⟨hmarked, hlive⟩
      (Or.inr ⟨w, by simp⟩) x.mailbox
    rw [← append_assoc, hlast]
    split_ifs with heligible
    · exact lawful_concat.mpr
        ⟨hfirst, h.stop_permitted hrec hlive heligible hquiet hnostop ⟨w, by simp⟩⟩
    · rwa [append_nil]
  refine h.put hp (fun e he b hb => ?_) (fun b y hy => ?_) (fun b hb => ?_) hlegal
  · rw [hsilent e he] at hb
    cases hb
  · have hba : b ≠ a := by
      rintro rfl
      simp at hy
    have hy' : (s.desk w).pool b = some y := by
      simpa [update_of_ne hba] using hy
    exact (h.records hy').append fun e he => by simp [hsilent e he]
  · by_cases hba : b = a
    · exact Or.inr (hba ▸ hremoved)
    · exact Or.inl (by simpa [update_of_ne hba] using hb)

theorem DeskStep.tracked (h : Tracked s) (hp : Placed s) (hr : Routed s)
    (hstep : DeskStep budget gate (fun a => s.route a = some w) w (s.desk w) es d) :
    Tracked (s.put w d es) := by
  cases hstep with
  | slot hx hslot => exact h.slot hp rfl hx hslot
  | enterDrain | leaveDeferred | leaveTransfers => exact h.put_quiet hp rfl
  | drainDeferred hdrain hbudget hqueue hplace =>
    exact h.placing hp hr hplace rfl fun m hm => Or.inr (Or.inl (mem_letters_of_head hqueue hm))
  | drainTransfers hdrain hbudget hqueue hplace =>
    exact h.placing hp hr hplace rfl fun m hm => Or.inl (mem_letters_of_head hqueue hm)
  | drainPending hdrain hqueue hgate hplace =>
    exact h.placing hp hr hplace rfl fun m hm => Or.inr (Or.inr (mem_letters_of_head hqueue hm))
  | install hdrain hspawns => exact h.install hp hspawns
  | reap hdrain hx hdead => exact h.reap hp hx hdead

theorem Step.tracked (h : Tracked s) (hp : Placed s) (hr : Routed s) {s' : State W}
    (hstep : Step budget gate s s') : Tracked s' := by
  cases hstep with
  | desk w hd => exact hd.tracked h hp hr
  | spawn w a hfresh =>
    have hlegal : Lawful Permits (s.trace ++ [.spawned a w]) :=
      lawful_concat.mpr ⟨h.legal, trivial⟩
    exact (h.put_queues hp (by rfl) (by simp [marks]) hlegal).reroute _
  | unmap w hdying => exact (h.put_quiet hp (by rfl)).reroute _
  | post w sender hroute hsender | stage w hroute hsender =>
    exact (h.accept _ _).put_quiet (hp.accept _ _) rfl
  | signalTransfer w he | signalPending w he => exact h.put_quiet hp rfl
  | inject w hx =>
    exact (h.accept _ _).put_slot (hp.accept _ _) rfl hx ⟨rfl, rfl, rfl⟩ (by simp [marks])
      (lawful_concat.mpr ⟨(h.accept _ _).legal, trivial⟩)

end Invariant

end Spec

namespace System

open Spec

variable {n : ℕ}

theorem run_tracked [NeZero n] (cfg : RuntimeConfig) (actions : List (Action n)) :
    (run cfg actions).Sound ∧ Placed (run cfg actions).abs ∧
      Routed (run cfg actions).abs ∧ Tracked (run cfg actions).abs :=
  run_invariant_open (P := fun t => Routed t ∧ Tracked t) ⟨routed_init, tracked_init⟩
    (fun _ _ hp ht hstep => ⟨hstep.routed hp ht.1, hstep.tracked ht.2 hp ht.1⟩) actions

/-- A worker between two passes holds no actor that is being removed. -/
theorem unmapped_when_idle {s : System n} (hp : Placed s.abs) {w : Fin n} {a : ActorAddress}
    (hidle : (s.workers w).phase = .idle) (hremoved : .removed a w ∈ s.trace) :
    s.workerOf a = none := by
  obtain ⟨-, hwhere⟩ := hp.removed hremoved
  refine hwhere.resolve_right fun hdying => ?_
  have hnil : (s.abs.desk w).dying = [] := by simp [abs, absWorker, hidle, Phase.dying]
  rw [hnil] at hdying
  exact absurd hdying not_mem_nil

/-- The lifecycle of every actor in every run: `on_start` at most once and before any
`handle`; no `handle` once the actor is poisoned or stopping; `on_stop` at most once,
never for a poisoned actor, and followed by no callback of the actor; a removed actor
is unmapped when the pass that removed it has ended; and an `on_stop` without `on_start`
happens only after an admin stop or a stop signal intercepted by a suspension. -/
theorem actor_lifecycle [NeZero n] (cfg : RuntimeConfig) (actions : List (Action n))
    (a : ActorAddress) :
    (run cfg actions).trace.count (.startCalled a) ≤ 1 ∧
    (∀ past payload rest,
      (run cfg actions).trace = past ++ .handleCalled a payload :: rest →
        .startCalled a ∈ past ∧ ¬Marked past a) ∧
    (run cfg actions).trace.count (.stopCalled a) ≤ 1 ∧
    (.stopCalled a ∈ (run cfg actions).trace → .poisoned a ∉ (run cfg actions).trace) ∧
    (∀ past rest, (run cfg actions).trace = past ++ .stopCalled a :: rest →
      ∀ e ∈ rest, ¬Callback a e) ∧
    (∀ w, ((run cfg actions).workers w).phase = .idle →
      .removed a w ∈ (run cfg actions).trace → (run cfg actions).workerOf a = none) ∧
    (∀ past rest, (run cfg actions).trace = past ++ .stopCalled a :: rest →
      .startCalled a ∈ past ∨ .stopping a .intercepted ∈ past ∨
        .stopping a .admin ∈ past) := by
  obtain ⟨-, hp, -, ht⟩ := run_tracked cfg actions
  have hlegal : Lawful Permits (run cfg actions).trace := ht.legal
  refine ⟨started_once hlegal, fun past payload rest hsplit => ?_, stopped_once hlegal,
    not_poisoned hlegal, fun past rest hsplit e he => no_callback_after_stop hlegal hsplit he,
    fun w hidle hremoved => unmapped_when_idle hp hidle hremoved,
    fun past rest hsplit => start_before_stop hlegal hsplit⟩
  obtain ⟨hstarted, hmarked, -⟩ := hlegal _ _ _ hsplit
  exact ⟨hstarted, hmarked⟩

/-- Actor `7` is spawned and stopped by an admin command before its first tick; one pass
of the only worker follows. -/
def stopBeforeStart : List (Action 1) :=
  [.spawn 7, .admin (.stopActor 7), .beginPass 0 false, .advance 0, .advance 0, .advance 0,
    .advance 0, .advance 0, .advance 0, .advance 0, .advance 0, .visit 0 7, .advance 0,
    .advance 0, .advance 0, .reap 0 7]

theorem trace_stopBeforeStart : (run ⟨1024, 64⟩ stopBeforeStart).trace =
    [.spawned 7 0, .stopping 7 .admin, .removed 7 0] ++ .stopCalled 7 :: [] := by
  decide +kernel

theorem actor_lifecycle_stop_before_start :
    (run ⟨1024, 64⟩ stopBeforeStart).trace.count (.stopCalled 7) ≤ 1 ∧
    (.startCalled 7 ∈ [Event.spawned 7 (0 : Fin 1), .stopping 7 .admin, .removed 7 0] ∨
      .stopping 7 .intercepted ∈ [Event.spawned 7 (0 : Fin 1), .stopping 7 .admin, .removed 7 0] ∨
      .stopping 7 .admin ∈ [Event.spawned 7 (0 : Fin 1), .stopping 7 .admin, .removed 7 0]) := by
  obtain ⟨-, -, honce, -, -, -, hstart⟩ := actor_lifecycle ⟨1024, 64⟩ stopBeforeStart 7
  exact ⟨honce, hstart [.spawned 7 0, .stopping 7 .admin, .removed 7 0] []
    trace_stopBeforeStart⟩

/-- An admin stop that reaches a new actor before its first tick: `on_stop` runs although
`on_start` never did. -/
theorem on_stop_without_on_start :
    ¬∀ (cfg : RuntimeConfig) (actions : List (Action 1)) (a : ActorAddress) past rest,
      (run cfg actions).trace = past ++ .stopCalled a :: rest → .startCalled a ∈ past := by
  intro h
  have hstart := h ⟨1024, 64⟩ stopBeforeStart 7 [.spawned 7 0, .stopping 7 .admin, .removed 7 0]
    [] trace_stopBeforeStart
  exact absurd hstart (by decide)

end System

end Swactor.Runtime
