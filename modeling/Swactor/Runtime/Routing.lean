import Swactor.Runtime.Placement

/-!
# User messages wait at the home of their destination

A user message in a queue is addressed to an actor of the worker that owns the queue.
The transfer queue of a worker holds messages from other workers and from outside, its
pending messages come from its own actors.
-/
namespace Swactor.Runtime.Spec

open List

variable {W : Type} {budget : ℕ} {gate : Gate}

/-- A user message with its destination. -/
abbrev Letter := ActorAddress × UserMessage

def letterOf (e : Envelope) : Option Letter :=
  match e.payload with
  | .user m => some (e.dest, m)
  | _ => none

def letters (queue : List Envelope) : List Letter :=
  queue.filterMap letterOf

variable {e : Envelope} {x : Letter} {d d' : Desk} {here : ActorAddress → Prop}
  {es : List (Event W)} {w : W}

theorem letterOf_control (h : control e.payload = true) : letterOf e = none := by
  unfold letterOf
  cases hp : e.payload with
  | user m => simp [control, hp] at h
  | stop => rfl
  | stopWith v => rfl
  | resume => rfl

@[simp] theorem letters_append (q q' : List Envelope) :
    letters (q ++ q') = letters q ++ letters q' :=
  filterMap_append

theorem letters_of_eq_cons {q rest : List Envelope} (h : q = e :: rest) :
    letters q = letters [e] ++ letters rest := by
  rw [h, ← letters_append]
  rfl

theorem mem_letters_cons {q : List Envelope} :
    x ∈ letters (e :: q) ↔ letterOf e = some x ∨ x ∈ letters q := by
  rw [letters, letters, mem_filterMap, mem_filterMap]
  simp

theorem mem_letters_of_head {q rest : List Envelope} (h : q = e :: rest)
    (hx : letterOf e = some x) : x ∈ letters q := by
  rw [h, mem_letters_cons]
  exact Or.inl hx

theorem mem_letters_append_singleton {q : List Envelope} :
    x ∈ letters (q ++ [e]) ↔ x ∈ letters q ∨ letterOf e = some x := by
  rw [letters_append, mem_append, mem_letters_cons]
  simp [letters]

/-- The user messages in the queues of a worker. -/
def Desk.waiting (d : Desk) (x : Letter) : Prop :=
  x ∈ letters d.transfer ∨ x ∈ letters d.deferred ∨ x ∈ letters d.pending

/-- Every message in the queues of `d'` was in the same queue of `d`, or has been deferred
meanwhile. -/
structure Shrinks (d d' : Desk) : Prop where
  waiting : ∀ x, d'.waiting x → d.waiting x
  transfer : ∀ x ∈ letters d'.transfer, x ∈ letters d.transfer
  pending : ∀ x ∈ letters d'.pending, x ∈ letters d.pending

theorem Shrinks.refl (d : Desk) : Shrinks d d :=
  ⟨fun _ => id, fun _ => id, fun _ => id⟩

/-- Placing an envelope puts at most that envelope into the deferred queue. -/
theorem Placing.queues (h : Placing here e d es d') :
    d'.transfer = d.transfer ∧ d'.pending = d.pending ∧
      (d'.deferred = d.deferred ∨ d'.deferred = d.deferred ++ [e]) := by
  cases h with
  | deliver | drop => exact ⟨rfl, rfl, Or.inl rfl⟩
  | defer => exact ⟨rfl, rfl, Or.inr rfl⟩

theorem Placing.waiting (h : Placing here e d es d') (hx : d'.waiting x) :
    d.waiting x ∨ letterOf e = some x := by
  obtain ⟨htransfer, hpending, hdeferred⟩ := h.queues
  unfold Desk.waiting at hx ⊢
  rw [htransfer, hpending] at hx
  rcases hdeferred with hdeferred | hdeferred
  · rw [hdeferred] at hx
    exact Or.inl hx
  · rw [hdeferred, mem_letters_append_singleton] at hx
    tauto

theorem Placing.shrinks {d₀ : Desk} (h : Placing here e d es d')
    (hwaiting : ∀ x, d.waiting x ∨ letterOf e = some x → d₀.waiting x)
    (htransfer : ∀ x ∈ letters d.transfer, x ∈ letters d₀.transfer)
    (hpending : ∀ x ∈ letters d.pending, x ∈ letters d₀.pending) : Shrinks d₀ d' := by
  obtain ⟨heq, heq', -⟩ := h.queues
  exact ⟨fun x hx => hwaiting x (h.waiting hx), heq ▸ htransfer, heq' ▸ hpending⟩

theorem DeskStep.shrinks (h : DeskStep budget gate here w d es d') : Shrinks d d' := by
  cases h with
  | slot | install | enterDrain | leaveDeferred | leaveTransfers | reap =>
    exact ⟨fun _ => id, fun _ => id, fun _ => id⟩
  | drainDeferred hdrain hbudget hqueue hplace =>
    refine hplace.shrinks (fun x hx => ?_) (fun _ => id) fun _ => id
    unfold Desk.waiting at hx ⊢
    rw [hqueue, mem_letters_cons]
    tauto
  | drainTransfers hdrain hbudget hqueue hplace =>
    refine hplace.shrinks (fun x hx => ?_) (fun x hx => ?_) fun _ => id
    · unfold Desk.waiting at hx ⊢
      rw [hqueue, mem_letters_cons]
      tauto
    · rw [hqueue, mem_letters_cons]
      exact Or.inr hx
  | drainPending hdrain hqueue hgate hplace =>
    refine hplace.shrinks (fun x hx => ?_) (fun _ => id) fun x hx => ?_
    · unfold Desk.waiting at hx ⊢
      rw [hqueue, mem_letters_cons]
      tauto
    · rw [hqueue, mem_letters_cons]
      exact Or.inr hx

/-- What the trace says of the messages in the queues of a worker. -/
structure DeskRouted (trace : List (Event W)) (w : W) (d : Desk) : Prop where
  dest : ∀ x, d.waiting x → .spawned x.1 w ∈ trace
  outside : ∀ x ∈ letters d.transfer, ∀ a, x.2.sender = .actor a →
    ∃ v, v ≠ w ∧ .spawned a v ∈ trace
  inside : ∀ x ∈ letters d.pending, ∃ a, x.2.sender = .actor a ∧ .spawned a w ∈ trace

def Routed (s : State W) : Prop := ∀ w, DeskRouted s.trace w (s.desk w)

theorem routed_init : Routed ({} : State W) :=
  fun _ => ⟨by simp [Desk.waiting, letters], by simp [letters], by simp [letters]⟩

theorem DeskRouted.grow {trace : List (Event W)} (h : DeskRouted trace w d) (hd : Shrinks d d')
    (es : List (Event W)) : DeskRouted (trace ++ es) w d' := by
  refine ⟨fun x hx => ?_, fun x hx a ha => ?_, fun x hx => ?_⟩
  · exact mem_append_left es (h.dest x (hd.waiting x hx))
  · obtain ⟨v, hv, hhome⟩ := h.outside x (hd.transfer x hx) a ha
    exact ⟨v, hv, mem_append_left es hhome⟩
  · obtain ⟨a, ha, hhome⟩ := h.inside x (hd.pending x hx)
    exact ⟨a, ha, mem_append_left es hhome⟩

theorem Routed.reroute {s : State W} (h : Routed s) (route : ActorAddress → Option W) :
    Routed { s with route := route } :=
  h

theorem Routed.accept {s : State W} (h : Routed s) (sender : Sender) (dest : ActorAddress) :
    Routed (s.accept sender dest) :=
  fun w => (h w).grow (.refl _) [.accepted dest (s.message sender)]

variable [DecidableEq W] {s : State W}

theorem Routed.put (h : Routed s) (hd : DeskRouted (s.trace ++ es) w d) :
    Routed (s.put w d es) := by
  intro v
  obtain ⟨rfl, hv⟩ | ⟨-, hv⟩ := s.put_desk_cases w d es v <;> rw [hv]
  · exact hd
  · exact (h v).grow (.refl _) es

theorem Routed.shrink (h : Routed s) (hd : Shrinks (s.desk w) d) (es : List (Event W)) :
    Routed (s.put w d es) :=
  h.put ((h w).grow hd es)

theorem Routed.sendTransfer (h : Routed s)
    (hdest : ∀ x, letterOf e = some x → .spawned x.1 w ∈ s.trace)
    (hsender : ∀ x, letterOf e = some x → ∀ a, x.2.sender = .actor a →
      ∃ v, v ≠ w ∧ .spawned a v ∈ s.trace) : Routed (s.sendTransfer w e) := by
  refine h.put ?_
  rw [append_nil]
  refine ⟨fun x hx => ?_, fun x hx a ha => ?_, (h w).inside⟩
  · unfold Desk.waiting at hx
    rw [mem_letters_append_singleton, or_right_comm] at hx
    exact hx.elim ((h w).dest x) (hdest x)
  · rw [mem_letters_append_singleton] at hx
    exact hx.elim (fun hx => (h w).outside x hx a ha) fun hx => hsender x hx a ha

theorem Routed.sendPending (h : Routed s)
    (hdest : ∀ x, letterOf e = some x → .spawned x.1 w ∈ s.trace)
    (hsender : ∀ x, letterOf e = some x → ∃ a, x.2.sender = .actor a ∧
      .spawned a w ∈ s.trace) : Routed (s.sendPending w e) := by
  refine h.put ?_
  rw [append_nil]
  refine ⟨fun x hx => ?_, (h w).outside, fun x hx => ?_⟩
  · unfold Desk.waiting at hx
    rw [mem_letters_append_singleton, ← or_assoc, ← or_assoc] at hx
    exact hx.elim (fun hx => (h w).dest x (or_assoc.mp hx)) (hdest x)
  · rw [mem_letters_append_singleton] at hx
    exact hx.elim ((h w).inside x) (hsender x)

theorem Step.routed (hp : Placed s) (h : Routed s) {s' : State W}
    (hstep : Step budget gate s s') : Routed s' := by
  cases hstep with
  | desk w hd => exact h.shrink hd.shrinks _
  | spawn w a hfresh | unmap w hdying =>
    refine (h.shrink ?_ _).reroute _
    exact ⟨fun _ => id, fun _ => id, fun _ => id⟩
  | @post w sender dest hroute hsender =>
    refine (h.accept sender dest).sendTransfer (fun x hx => ?_) fun x hx a ha => ?_
    · cases hx
      exact mem_append_left _ (hp.routed hroute)
    · cases hx
      obtain ⟨v, hv, hhome⟩ := hsender a ha
      exact ⟨v, hv, mem_append_left _ hhome⟩
  | @stage w sender dest hroute hsender =>
    refine (h.accept (.actor sender) dest).sendPending (fun x hx => ?_) fun x hx => ?_
    · cases hx
      exact mem_append_left _ (hp.routed hroute)
    · cases hx
      exact ⟨sender, rfl, mem_append_left _ hsender⟩
  | signalTransfer w he =>
    exact h.sendTransfer (by simp [letterOf_control he]) (by simp [letterOf_control he])
  | signalPending w he =>
    exact h.sendPending (by simp [letterOf_control he]) (by simp [letterOf_control he])
  | inject w hx =>
    refine (h.accept _ _).shrink ?_ _
    exact ⟨fun _ => id, fun _ => id, fun _ => id⟩

end Swactor.Runtime.Spec
