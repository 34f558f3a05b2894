import Swactor.Lib.Requeue
import Swactor.Runtime.Custody

/-!
# The order of the messages from one sender to one target

The messages of one sender to one target that have not arrived yet stand in a line:
first those in the deferred queue, then those in the transfer queue, then those in
`pending_local`. What has been sent is what has arrived followed by that line. Inside
the ingress drain the deferred queue counts in the order in which the rest of the drain
will leave it.

Two steps can break the line. The drain takes envelopes from the front of the deferred
queue and pushes those of an actor whose spawn is still queued back to its end, until
its budget is used up, not until it has seen every envelope once. And an envelope of
`pending_local` is delivered to an installed target even when earlier ones wait in the
deferred queue. `fifo` is the condition that neither happens to two messages of one
sender and one target.
-/
namespace Swactor.Runtime

open Requeue Event Function List

variable {W : Type}

def Event.arrived? : Event W → Option Spec.Letter
  | .arrived a m => some (a, m)
  | _ => none

open Spec

section Pair

variable (snd : Sender) (t : ActorAddress)

/-- A user message from `snd` to `t`. -/
def between (x : Letter) : Bool :=
  x.1 = t && x.2.sender = snd

def sent (trace : List (Event W)) : List Letter :=
  (trace.filterMap accepted?).filter (between snd t)

/-- What has arrived in the mailbox of `t` from `snd`. -/
def received (trace : List (Event W)) : List Letter :=
  (trace.filterMap arrived?).filter (between snd t)

def posted (queue : List Envelope) : List Letter :=
  (letters queue).filter (between snd t)

variable {snd t}

theorem sent_append (es es' : List (Event W)) :
    sent snd t (es ++ es') = sent snd t es ++ sent snd t es' := by
  simp [sent, filterMap_append]

theorem received_append (es es' : List (Event W)) :
    received snd t (es ++ es') = received snd t es ++ received snd t es' := by
  simp [received, filterMap_append]

theorem posted_append (q q' : List Envelope) :
    posted snd t (q ++ q') = posted snd t q ++ posted snd t q' := by
  simp [posted]

theorem posted_cons (e : Envelope) (q : List Envelope) :
    posted snd t (e :: q) = posted snd t [e] ++ posted snd t q :=
  posted_append [e] q

theorem posted_eq_nil_iff {q : List Envelope} :
    posted snd t q = [] ↔ ∀ x ∈ letters q, x.1 = t → x.2.sender ≠ snd := by
  simp [posted, between, filter_eq_nil_iff]

variable {e : Envelope}

theorem posted_control (he : control e.payload = true) : posted snd t [e] = [] := by
  simp [posted, letters, letterOf_control he]

theorem posted_of_dest_ne (he : e.dest ≠ t) : posted snd t [e] = [] := by
  cases hp : e.payload <;> simp [posted, letters, letterOf, between, hp, he]

theorem posted_singleton (e : Envelope) :
    posted snd t [e] = [] ↔ (letterOf e).any (between snd t) = false := by
  unfold posted letters
  cases h : letterOf e <;> simp [h]

theorem posted_eq_nil_iff_any {q : List Envelope} :
    posted snd t q = [] ↔ ∀ e ∈ q, (letterOf e).any (between snd t) = false := by
  induction q with
  | nil => simp [posted, letters]
  | cons e q ih =>
    rw [posted_cons, append_eq_nil_iff, posted_singleton, ih, forall_mem_cons]

theorem posted_filter (q : List Envelope) :
    posted snd t (q.filter fun e => (letterOf e).any (between snd t)) = posted snd t q := by
  induction q with
  | nil => rfl
  | cons e q ih =>
    rw [posted_cons, ← ih, filter_cons]
    split_ifs with he
    · exact posted_cons e _
    · have hnil : posted snd t [e] = [] := by
        rw [posted_singleton]
        simpa using he
      rw [hnil, nil_append]

/-- The envelope holds a user message from `snd` to `t`. -/
theorem between_of_any (h : (letterOf e).any (between snd t) = true) :
    e.dest = t ∧ ∃ m, e.payload = .user m ∧ m.sender = snd := by
  unfold letterOf at h
  cases hp : e.payload with
  | user m =>
    rw [hp] at h
    simp only [Option.any_some, between, Bool.and_eq_true, decide_eq_true_eq] at h
    exact ⟨h.1, m, rfl, h.2⟩
  | stop | stopWith v | resume => simp [hp] at h

end Pair

section Arrivals

variable {a : ActorAddress} {x y : Slot} {es : List (Event W)}

theorem arrived_discards (ps : List Payload) :
    (discards a ps : List (Event W)).filterMap arrived? = [] :=
  filterMap_discards (fun _ _ => rfl) a ps

theorem Spec.SlotStep.arrived (h : SlotStep a x es y) : es.filterMap arrived? = [] := by
  cases h with
  | start => rfl
  | take typed => cases typed <;> rfl
  | halt cause | poison | clear => exact arrived_discards x.mailbox

theorem Spec.Delivery.arrived {msg : Payload} (h : Delivery a msg x es y) :
    es.filterMap arrived? = letters [⟨a, msg⟩] := by
  cases h with
  | push => cases msg <;> rfl
  | resume hmsg => exact (mail_control hmsg).symm
  | halt hmsg => exact (arrived_discards x.mailbox).trans (mail_control hmsg).symm

end Arrivals

/-- Two user messages of one sender, other than the runtime, to one target. -/
def samePair (x y : Envelope) : Bool :=
  match x.payload, y.payload with
  | .user m, .user m' => x.dest = y.dest && m.sender = m'.sender && m.sender ≠ .runtime
  | _, _ => false

namespace Spec

namespace Desk

/-- The spawn of the target is still queued. -/
def stuck (d : Desk) (e : Envelope) : Bool :=
  e.dest ∈ d.spawns

/-- The deferred queue as the rest of a running drain will leave it. -/
def line (budget : ℕ) (d : Desk) : List Envelope :=
  match d.drain with
  | .deferred k => requeue d.stuck (budget - k) d.deferred
  | _ => d.deferred

def lineup (budget : ℕ) (snd : Sender) (t : ActorAddress) (d : Desk) : List Letter :=
  posted snd t (d.line budget) ++ posted snd t d.transfer ++ posted snd t d.pending

end Desk

/-- No two messages of one sender and target lie on both sides of the position at which the
budget of the drain will be used up, and none overtakes another one that is deferred. -/
def fifo (budget : ℕ) : Gate where
  enter := fun d =>
    ∀ x ∈ (d.deferred.filter d.stuck).take (cut d.stuck budget d.deferred),
      ∀ y ∈ (d.deferred.filter d.stuck).drop (cut d.stuck budget d.deferred),
        samePair x y = false
  direct := fun d e => (d.pool e.dest).isSome = true → ∀ x ∈ d.deferred, samePair x e = false

/-- What is known of the deferred queue inside a drain. -/
structure Settled (budget : ℕ) (d : Desk) : Prop where
  dying : d.drain ≠ .off → d.dying = []
  free : ∀ k, d.drain = .deferred k → budget = 0 → ∀ e ∈ d.deferred, d.stuck e = false
  absent : ∀ k, d.drain = .transfers k → withinBudget budget k = true →
    ∀ e ∈ d.deferred, d.pool e.dest = none

section Line

variable {budget k : ℕ} {d : Desk} {e : Envelope} {rest : List Envelope}

theorem line_of_off (h : d.drain = .off) : d.line budget = d.deferred := by
  simp [Desk.line, h]

theorem line_of_transfers (h : d.drain = .transfers k) : d.line budget = d.deferred := by
  simp [Desk.line, h]

theorem line_of_deferred (h : d.drain = .deferred k) :
    d.line budget = requeue d.stuck (budget - k) d.deferred := by
  simp [Desk.line, h]

theorem requeue_pop_free {stuck : Envelope → Bool} (hbudget : withinBudget budget k = true)
    (he : stuck e = false) :
    requeue stuck (budget - k) (e :: rest) =
      e :: requeue stuck (budget - (k + 1)) rest := by
  have hwithin : budget = 0 ∨ k < budget := by simpa [withinBudget] using hbudget
  rcases hwithin with rfl | hlt
  · simp [requeue]
  · have hk : budget - k = budget - (k + 1) + 1 := by omega
    rw [hk, requeue_free he]

theorem requeue_pop_stuck {stuck : Envelope → Bool} (hbudget : withinBudget budget k = true)
    (hlimited : budget ≠ 0) (he : stuck e = true) :
    requeue stuck (budget - k) (e :: rest) =
      requeue stuck (budget - (k + 1)) (rest ++ [e]) := by
  have hwithin : budget = 0 ∨ k < budget := by simpa [withinBudget] using hbudget
  have hk : budget - k = budget - (k + 1) + 1 := by omega
  rw [hk, requeue_stuck he]

theorem samePair_of_any {snd : Sender} {t : ActorAddress} (hsnd : snd ≠ .runtime)
    {x y : Envelope} (hx : (letterOf x).any (between snd t) = true)
    (hy : (letterOf y).any (between snd t) = true) : samePair x y = true := by
  obtain ⟨hxt, m, hxm, hms⟩ := between_of_any hx
  obtain ⟨hyt, m', hym, hms'⟩ := between_of_any hy
  simp [samePair, hxm, hym, hxt, hyt, hms, hms', hsnd]

/-- Starting the drain keeps the line of every pair. -/
theorem posted_enter {snd : Sender} (t : ActorAddress) (hsnd : snd ≠ .runtime)
    (hgate : (fifo budget).enter d) :
    posted snd t (requeue d.stuck budget d.deferred) = posted snd t d.deferred := by
  rw [← posted_filter, ← posted_filter d.deferred]
  refine congrArg _ (filter_requeue (fun x y hx hy => ?_) ?_)
  · obtain ⟨hxt, -⟩ := between_of_any hx
    obtain ⟨hyt, -⟩ := between_of_any hy
    simp [Desk.stuck, hxt, hyt]
  · by_contra hboth
    obtain ⟨hfront, hback⟩ := not_or.mp hboth
    push Not at hfront hback
    obtain ⟨x, hx, hxp⟩ := hfront
    obtain ⟨y, hy, hyp⟩ := hback
    have hsame := samePair_of_any hsnd (by simpa using hxp) (by simpa using hyp)
    rw [hgate x hx y hy] at hsame
    exact absurd hsame Bool.false_ne_true

end Line

section Steps

variable {budget : ℕ} {here : ActorAddress → Prop} {d d' : Desk} {e : Envelope}
  {es : List (Event W)} {snd : Sender} {t : ActorAddress}

theorem Placing.drain (h : Placing here e d es d') : d'.drain = d.drain := by
  cases h <;> rfl

/-- An envelope to an actor of this worker arrives or is deferred. -/
theorem Placing.arrives (h : Placing here e d es d') (snd : Sender) (ht : here t) :
    (d'.deferred = d.deferred ∧ received snd t es = posted snd t [e] ∧
      ((d.pool e.dest).isSome = true ∨ ¬here e.dest)) ∨
    (d'.deferred = d.deferred ++ [e] ∧ received snd t es = [] ∧
      d.pool e.dest = none ∧ here e.dest) := by
  cases h with
  | deliver hx hdeliver =>
    refine Or.inl ⟨rfl, ?_, Or.inl (by simp [hx])⟩
    rw [received, hdeliver.arrived]
    rfl
  | defer hx hhere => exact Or.inr ⟨rfl, rfl, hx, hhere⟩
  | drop hx hhere =>
    have hne : e.dest ≠ t := fun h => hhere (h ▸ ht)
    refine Or.inl ⟨rfl, ?_, Or.inr hhere⟩
    rw [received, arrived_discards, posted_of_dest_ne hne]
    rfl

variable {route : ActorAddress → Option W} {w : W}

theorem DeskPlaced.free (hd : DeskPlaced route w d)
    (h : (d.pool e.dest).isSome = true ∨ ¬route e.dest = some w) : d.stuck e = false := by
  have hnot : e.dest ∉ d.spawns := by
    intro hmem
    rcases h with h | h
    · rw [hd.absent e.dest (mem_append_left _ hmem)] at h
      exact absurd h Bool.false_ne_true
    · exact h ((hd.held e.dest).mpr (Or.inr (Or.inl hmem)))
  simp [Desk.stuck, hnot]

theorem DeskPlaced.stuck (hd : DeskPlaced route w d) (hdying : d.dying = [])
    (hpool : d.pool e.dest = none) (hroute : route e.dest = some w) : d.stuck e = true := by
  rcases (hd.held e.dest).mp hroute with h | h | h
  · simp [hpool] at h
  · simp [Desk.stuck, h]
  · simp [hdying] at h

variable {rest : List Envelope} {gate : Gate}

/-- One iteration over the deferred queue takes the first message out of the line or leaves
the line as it is. -/
theorem lineup_drainDeferred {k : ℕ} (hd : DeskPlaced route w d) (hs : Settled budget d)
    (hdrain : d.drain = .deferred k) (hbudget : withinBudget budget k = true)
    (hqueue : d.deferred = e :: rest) (h : Placing (fun a => route a = some w) e
      { d with deferred := rest, drain := .deferred (k + 1) } es d') (ht : route t = some w) :
    d.lineup budget snd t = received snd t es ++ d'.lineup budget snd t := by
  obtain ⟨htransfer, hpending, -⟩ := h.queues
  have hspawns : d'.stuck = d.stuck := by
    ext1 x
    simp only [Desk.stuck, h.sameActors.spawns]
  have hline : d.line budget = requeue d.stuck (budget - k) (e :: rest) := by
    rw [line_of_deferred hdrain, hqueue]
  have hline' : d'.line budget = requeue d.stuck (budget - (k + 1)) d'.deferred := by
    rw [line_of_deferred h.drain, hspawns]
  unfold Desk.lineup
  rw [hline, hline', htransfer, hpending]
  rcases h.arrives snd ht with ⟨hdeferred, hes, hfree⟩ | ⟨hdeferred, hes, hpool, hroute⟩
  · rw [hdeferred, requeue_pop_free hbudget (hd.free hfree), hes, posted_cons]
    simp
  · have hstuck : d.stuck e = true := hd.stuck (hs.dying (by simp [hdrain])) hpool hroute
    have hlimited : budget ≠ 0 := fun hzero => by
      have hfree := hs.free k hdrain hzero e (hqueue ▸ mem_cons_self)
      rw [hstuck] at hfree
      exact absurd hfree (by decide)
    rw [hdeferred, requeue_pop_stuck hbudget hlimited hstuck, hes]
    simp

/-- A message that arrives from the transfer queue has no deferred one before it. -/
theorem lineup_drainTransfers {k : ℕ} (hs : Settled budget d) (hdrain : d.drain = .transfers k)
    (hbudget : withinBudget budget k = true) (hqueue : d.transfer = e :: rest)
    (h : Placing (fun a => route a = some w) e
      { d with transfer := rest, drain := .transfers (k + 1) } es d') (ht : route t = some w) :
    d.lineup budget snd t = received snd t es ++ d'.lineup budget snd t := by
  obtain ⟨htransfer, hpending, -⟩ := h.queues
  unfold Desk.lineup
  rw [line_of_transfers hdrain, line_of_transfers h.drain, htransfer, hpending, hqueue,
    posted_cons e rest]
  rcases h.arrives snd ht with ⟨hdeferred, hes, hfree⟩ | ⟨hdeferred, hes, hpool, hroute⟩
  · rw [hdeferred, hes]
    by_cases hdest : e.dest = t
    · have hnone : posted snd t d.deferred = [] := by
        rw [posted_eq_nil_iff_any]
        intro x hx
        by_contra hany
        obtain ⟨hxt, -⟩ := between_of_any (Bool.eq_true_of_not_eq_false hany)
        have hsome : (d.pool e.dest).isSome = true :=
          hfree.resolve_right fun hnot => hnot (hdest ▸ ht)
        rw [hdest, ← hxt, hs.absent k hdrain hbudget x hx] at hsome
        exact absurd hsome Bool.false_ne_true
      simp [hnone]
    · simp [posted_of_dest_ne hdest]
  · rw [hdeferred, hes, posted_append]
    simp

/-- A message that arrives from `pending_local` has none before it. -/
theorem lineup_drainPending (hsnd : snd ≠ .runtime) (hdrain : d.drain = .off)
    (hqueue : d.pending = e :: rest) (hgate : (fifo budget).direct d e)
    (hmixed : posted snd t d.transfer = [] ∨ posted snd t d.pending = [])
    (h : Placing (fun a => route a = some w) e { d with pending := rest } es d')
    (ht : route t = some w) :
    d.lineup budget snd t = received snd t es ++ d'.lineup budget snd t := by
  obtain ⟨htransfer, hpending, -⟩ := h.queues
  unfold Desk.lineup
  rw [line_of_off hdrain, line_of_off (h.drain.trans hdrain), htransfer, hpending, hqueue,
    posted_cons]
  by_cases hnil : posted snd t [e] = []
  · rcases h.arrives snd ht with ⟨hdeferred, hes, -⟩ | ⟨hdeferred, hes, -⟩ <;>
      simp [hdeferred, hes, hnil, posted_append]
  · have hempty : posted snd t d.transfer = [] := by
      refine hmixed.resolve_right fun hpend => hnil ?_
      rw [hqueue, posted_cons] at hpend
      exact (append_eq_nil_iff.mp hpend).1
    rcases h.arrives snd ht with ⟨hdeferred, hes, hfree⟩ | ⟨hdeferred, hes, -⟩
    · have hdest : e.dest = t := by
        by_contra hne
        exact hnil (posted_of_dest_ne hne)
      have hsome : (d.pool e.dest).isSome = true :=
        hfree.resolve_right fun hnot => hnot (hdest ▸ ht)
      have hany : (letterOf e).any (between snd t) = true := by
        rw [posted_singleton] at hnil
        exact Bool.eq_true_of_not_eq_false hnil
      have hnone : posted snd t d.deferred = [] := by
        rw [posted_eq_nil_iff_any]
        intro x hx
        by_contra hxany
        have hsame := samePair_of_any hsnd (Bool.eq_true_of_not_eq_false hxany) hany
        rw [hgate hsome x hx] at hsame
        exact absurd hsame Bool.false_ne_true
      simp [hempty, hdeferred, hes, hnone]
    · simp [hempty, hdeferred, hes, posted_append]

theorem received_of_arrived (h : es.filterMap arrived? = []) : received snd t es = [] := by
  rw [received, h]
  rfl

theorem DeskStep.lineup (hd : DeskPlaced route w d) (hs : Settled budget d)
    (hsnd : snd ≠ .runtime)
    (hmixed : posted snd t d.transfer = [] ∨ posted snd t d.pending = [])
    (h : DeskStep budget (fifo budget) (fun a => route a = some w) w d es d')
    (ht : route t = some w) :
    d.lineup budget snd t = received snd t es ++ d'.lineup budget snd t := by
  cases h with
  | slot hx hslot =>
    rw [received_of_arrived hslot.arrived]
    rfl
  | install hdrain hspawns =>
    unfold Desk.lineup
    rw [line_of_off hdrain, line_of_off (by exact hdrain)]
    rfl
  | enterDrain hdrain hdying hspawns hgate =>
    unfold Desk.lineup
    rw [line_of_off hdrain, ← posted_enter t hsnd hgate]
    rfl
  | drainDeferred hdrain hbudget hqueue hplace =>
    exact lineup_drainDeferred hd hs hdrain hbudget hqueue hplace ht
  | @leaveDeferred k hdrain hend =>
    have hline : d.line budget = d.deferred := by
      rw [line_of_deferred hdrain]
      rcases hend with hend | hend
      · have hk : budget - k = 0 := by
          simp only [withinBudget, Bool.or_eq_false_iff, decide_eq_false_iff_not] at hend
          omega
        rw [hk]
        rfl
      · rw [hend, requeue_nil]
    unfold Desk.lineup
    rw [hline]
    rfl
  | drainTransfers hdrain hbudget hqueue hplace =>
    exact lineup_drainTransfers hs hdrain hbudget hqueue hplace ht
  | leaveTransfers hdrain =>
    unfold Desk.lineup
    rw [line_of_transfers hdrain]
    rfl
  | drainPending hdrain hqueue hgate hplace =>
    exact lineup_drainPending hsnd hdrain hqueue hgate hmixed hplace ht
  | @reap addr x hdrain hx hdead =>
    have harrived := filterMap_reap (f := arrived?) (w := w) (a := addr) (x := x) rfl rfl
    rw [arrived_discards] at harrived
    rw [received_of_arrived harrived]
    unfold Desk.lineup
    rw [line_of_off hdrain, line_of_off (by exact hdrain)]
    rfl

/-- Nothing arrives for an actor of another worker. -/
theorem Placing.received_of_ne (hd : DeskPlaced route w d)
    (h : Placing (fun a => route a = some w) e d es d') (ht : route t ≠ some w) :
    received snd t es = [] := by
  cases h with
  | deliver hx hdeliver =>
    have hroute : route e.dest = some w := (hd.held e.dest).mpr (Or.inl (by simp [hx]))
    rw [received, hdeliver.arrived]
    exact posted_of_dest_ne fun h => ht (h ▸ hroute)
  | defer => rfl
  | drop => exact received_of_arrived (arrived_discards _)

theorem DeskStep.received_of_ne (hd : DeskPlaced route w d)
    (h : DeskStep budget gate (fun a => route a = some w) w d es d') (ht : route t ≠ some w) :
    received snd t es = [] := by
  have hqueues : ∀ q q' q'' dr, DeskPlaced route w
      { d with transfer := q, deferred := q', pending := q'', drain := dr } :=
    fun q q' q'' dr => hd.of_sameActors ⟨fun _ => rfl, rfl, rfl⟩
  cases h with
  | slot hx hslot => exact received_of_arrived hslot.arrived
  | install | enterDrain | leaveDeferred | leaveTransfers => rfl
  | drainDeferred hdrain hbudget hqueue hplace | drainTransfers hdrain hbudget hqueue hplace
  | drainPending hdrain hqueue hgate hplace =>
    exact hplace.received_of_ne (hqueues _ _ _ _) ht
  | reap =>
    refine received_of_arrived ?_
    rw [filterMap_reap (f := arrived?) rfl rfl, arrived_discards]

theorem Placing.deferred (h : Placing here e d es d') :
    ∀ x ∈ d'.deferred, x ∈ d.deferred ∨ x = e ∧ d.pool e.dest = none ∧ here e.dest := by
  intro x hx
  cases h with
  | deliver | drop => exact Or.inl hx
  | defer hpool hhere =>
    exact (mem_append.mp hx).imp_right fun h => ⟨mem_singleton.mp h, hpool, hhere⟩

theorem settled_off (h : d.drain = .off) : Settled budget d :=
  ⟨fun hne => absurd h hne, fun k hk => by simp [h] at hk, fun k hk => by simp [h] at hk⟩

theorem Settled.setSlot (hs : Settled budget d) {a : ActorAddress} {x : Slot}
    (hx : d.pool a = some x) (y : Slot) : Settled budget (d.setSlot a y) := by
  refine ⟨hs.dying, hs.free, fun k hk hbudget e he => ?_⟩
  have hpool : ((d.setSlot a y).pool e.dest).isSome = (d.pool e.dest).isSome :=
    (sameActors_setSlot hx).pool e.dest
  rw [hs.absent k hk hbudget e he] at hpool
  simpa using hpool

theorem DeskStep.settled (hs : Settled budget d) (h : DeskStep budget gate here w d es d') :
    Settled budget d' := by
  cases h with
  | slot hx hslot => exact hs.setSlot hx _
  | install hdrain hspawns | reap hdrain hx hdead => exact settled_off hdrain
  | enterDrain hdrain hdying hspawns hgate =>
    refine ⟨fun _ => hdying, fun k _ hzero e _ => ?_, fun k hk => by cases hk⟩
    simp [Desk.stuck, hspawns hzero]
  | @drainDeferred _ k e rest _ hdrain hbudget hqueue hplace =>
    have hdying : d.dying = [] := hs.dying (by simp [hdrain])
    have hmem : ∀ x ∈ e :: rest, budget = 0 → d.stuck x = false := fun x hx hzero =>
      hs.free k hdrain hzero x (hqueue ▸ hx)
    have hstuck : ∀ x, d'.stuck x = d.stuck x := fun x => by
      simp only [Desk.stuck, hplace.sameActors.spawns]
    refine ⟨fun _ => hplace.sameActors.dying.trans hdying, fun j _ hzero x hx => ?_,
      fun j hj => by simp [hplace.drain] at hj⟩
    rw [hstuck]
    rcases hplace.deferred x hx with hx | ⟨rfl, -⟩
    · exact hmem x (mem_cons_of_mem _ hx) hzero
    · exact hmem x mem_cons_self hzero
  | leaveDeferred hdrain hend =>
    refine ⟨fun _ => hs.dying (by simp [hdrain]), (fun j hj => by cases hj), ?_⟩
    intro j hj hbudget e he
    obtain rfl : _ = j := Drain.transfers.inj hj
    rcases hend with hend | hend
    · rw [hend] at hbudget
      exact absurd hbudget Bool.false_ne_true
    · rw [show d.deferred = [] from hend] at he
      exact absurd he not_mem_nil
  | @drainTransfers _ k e rest _ hdrain hbudget hqueue hplace =>
    have hdying : d.dying = [] := hs.dying (by simp [hdrain])
    refine ⟨fun _ => hplace.sameActors.dying.trans hdying,
      fun j hj => by simp [hplace.drain] at hj, fun j _ _ x hx => ?_⟩
    have hnone : d.pool x.dest = none := by
      rcases hplace.deferred x hx with hx | ⟨rfl, hpool, -⟩
      · exact hs.absent k hdrain hbudget x hx
      · exact hpool
    have hpool : (d'.pool x.dest).isSome = (d.pool x.dest).isSome :=
      hplace.sameActors.pool x.dest
    rw [hnone] at hpool
    simpa using hpool
  | leaveTransfers hdrain => exact settled_off rfl
  | drainPending hdrain hqueue hgate hplace => exact settled_off (hplace.drain.trans hdrain)

/-- What enters the deferred queue is routed to its worker. -/
theorem DeskStep.deferred (h : DeskStep budget gate here w d es d') :
    ∀ x ∈ d'.deferred, x ∈ d.deferred ∨ here x.dest := by
  intro x hx
  cases h with
  | slot | install | enterDrain | leaveDeferred | leaveTransfers | reap => exact Or.inl hx
  | drainDeferred hdrain hbudget hqueue hplace =>
    rcases hplace.deferred x hx with hx | ⟨rfl, -, hhere⟩
    · rw [hqueue]
      exact Or.inl (mem_cons_of_mem _ hx)
    · exact Or.inr hhere
  | drainTransfers hdrain hbudget hqueue hplace | drainPending hdrain hqueue hgate hplace =>
    rcases hplace.deferred x hx with hx | ⟨rfl, -, hhere⟩
    · exact Or.inl hx
    · exact Or.inr hhere

end Steps

/-- What one sender sent to one target is what has arrived, followed by the line of the
worker that the target is routed to. -/
structure Ordered (budget : ℕ) (s : State W) : Prop where
  settled : ∀ w, Settled budget (s.desk w)
  known : ∀ w, ∀ e ∈ (s.desk w).deferred, .spawned e.dest w ∈ s.trace
  unsent : ∀ snd t, snd ≠ .runtime → (∀ v, .spawned t v ∉ s.trace) → sent snd t s.trace = []
  line : ∀ snd t w, snd ≠ .runtime → s.route t = some w →
    sent snd t s.trace = received snd t s.trace ++ (s.desk w).lineup budget snd t
  inOrder : ∀ snd t, snd ≠ .runtime → received snd t s.trace <+: sent snd t s.trace

theorem ordered_init (budget : ℕ) : Ordered budget ({} : State W) :=
  ⟨fun _ => settled_off rfl, fun w e he => absurd he not_mem_nil, fun _ _ _ _ => rfl,
    fun _ _ _ _ h => (by cases h), fun _ _ _ => nil_prefix⟩

section Run

variable {budget : ℕ} {s s' : State W} {w : W} {d : Desk} {es : List (Event W)}

/-- The address map changes where no message is lost sight of. -/
theorem Ordered.reroute (h : Ordered budget s) (route : ActorAddress → Option W)
    (hline : ∀ snd t v, snd ≠ .runtime → route t = some v → s.route t = some v ∨
      sent snd t s.trace = received snd t s.trace ++ (s.desk v).lineup budget snd t) :
    Ordered budget { s with route := route } :=
  ⟨h.settled, h.known, h.unsent,
    fun snd t v hsnd ht => (hline snd t v hsnd ht).elim (h.line snd t v hsnd) id, h.inOrder⟩

variable {a dest : ActorAddress}

/-- A queued spawn of a new address does not touch what waits in the queues. -/
theorem stuck_spawn (h : Ordered budget s) (hfresh : ∀ v, .spawned a v ∉ s.trace) {e : Envelope}
    (he : e ∈ (s.desk w).deferred) :
    Desk.stuck { s.desk w with spawns := (s.desk w).spawns ++ [a] } e = (s.desk w).stuck e := by
  have hne : e.dest ≠ a := by
    rintro rfl
    exact hfresh w (h.known w e he)
  simp [Desk.stuck, hne]

theorem line_spawn (h : Ordered budget s) (hfresh : ∀ v, .spawned a v ∉ s.trace) :
    Desk.line budget { s.desk w with spawns := (s.desk w).spawns ++ [a] } =
      (s.desk w).line budget := by
  cases hdrain : (s.desk w).drain with
  | deferred k =>
    rw [line_of_deferred hdrain, line_of_deferred (by exact hdrain)]
    exact requeue_congr fun e he => stuck_spawn h hfresh he
  | transfers k => rw [line_of_transfers hdrain, line_of_transfers (by exact hdrain)]
  | off => rw [line_of_off hdrain, line_of_off (by exact hdrain)]

/-- No message waits for an address that was never spawned. -/
theorem lineup_fresh (hr : Routed s) (hfresh : ∀ v, .spawned a v ∉ s.trace) (snd : Sender) :
    (s.desk w).lineup budget snd a = [] := by
  have hqueue : ∀ q : List Envelope, (∀ x ∈ letters q, (s.desk w).waiting x) →
      posted snd a q = [] := by
    intro q hq
    refine posted_eq_nil_iff.mpr fun x hx hdest => ?_
    subst hdest
    exact absurd ((hr w).dest x (hq x hx)) (hfresh w)
  have hdeferred : ∀ x ∈ letters ((s.desk w).line budget), x ∈ letters (s.desk w).deferred := by
    intro x hx
    obtain ⟨e, he, hx⟩ := mem_filterMap.mp hx
    refine mem_filterMap.mpr ⟨e, ?_, hx⟩
    unfold Desk.line at he
    split at he
    · exact mem_of_mem_requeue he
    · exact he
  unfold Desk.lineup
  rw [hqueue _ fun x hx => Or.inr (Or.inl (hdeferred x hx)), hqueue _ fun x hx => Or.inl hx,
    hqueue _ fun x hx => Or.inr (Or.inr hx)]
  rfl

/-- The messages of an actor to a target on its own worker go through `pending_local`. -/
theorem Routed.outsider (hp : Placed s) (hr : Routed s) {snd : Sender} {t : ActorAddress}
    (h : ∀ a, snd = .actor a → ∃ v, v ≠ w ∧ .spawned a v ∈ s.trace) :
    posted snd t (s.desk w).pending = [] := by
  refine posted_eq_nil_iff.mpr fun x hx _ hsender => ?_
  obtain ⟨a, ha, hhome⟩ := (hr w).inside x hx
  obtain ⟨v, hv, hhome'⟩ := h a (hsender.symm.trans ha)
  exact hv (hp.home hhome' hhome)

theorem Routed.unmixed (hp : Placed s) (hr : Routed s) (w : W) (snd : Sender)
    (t : ActorAddress) :
    posted snd t (s.desk w).transfer = [] ∨ posted snd t (s.desk w).pending = [] := by
  by_cases h : posted snd t (s.desk w).transfer = []
  · exact Or.inl h
  refine Or.inr (hr.outsider hp fun a ha => ?_)
  rw [posted_eq_nil_iff] at h
  push Not at h
  obtain ⟨x, hx, -, hsender⟩ := h
  exact (hr w).outside x hx a (hsender.trans ha)

variable [DecidableEq W]

section

variable (h : Ordered budget s) (hp : Placed s)

include h hp

/-- A step of one worker and of the senders to it. -/
theorem Ordered.extend (hdesk : s'.desk = update s.desk w d) (hroute : s'.route = s.route)
    (htrace : s'.trace = s.trace ++ es) (hsettled : Settled budget d)
    (hknown : ∀ e ∈ d.deferred, e ∈ (s.desk w).deferred ∨ s.route e.dest = some w)
    (hself : ∀ snd t, snd ≠ .runtime → s.route t = some w →
      (s.desk w).lineup budget snd t ++ sent snd t es = received snd t es ++ d.lineup budget snd t)
    (hother : ∀ snd t, snd ≠ .runtime → s.route t ≠ some w →
      sent snd t es = [] ∧ received snd t es = []) : Ordered budget s' := by
  have hself_desk : s'.desk w = d := by rw [hdesk, update_self]
  have hother_desk : ∀ v, v ≠ w → s'.desk v = s.desk v := fun v hv => by
    rw [hdesk, update_of_ne hv]
  have hmem : ∀ e ∈ s.trace, e ∈ s'.trace := fun e he => htrace ▸ mem_append_left _ he
  have hline : ∀ snd t v, snd ≠ .runtime → s.route t = some v →
      sent snd t s'.trace = received snd t s'.trace ++ (s'.desk v).lineup budget snd t := by
    intro snd t v hsnd ht
    rw [htrace, sent_append, received_append, h.line snd t v hsnd ht]
    by_cases hv : v = w
    · subst hv
      rw [hself_desk, append_assoc, hself snd t hsnd ht, append_assoc]
    · obtain ⟨hsent, hreceived⟩ := hother snd t hsnd (by simp [ht, hv])
      rw [hsent, hreceived, hother_desk v hv]
      simp
  have hquiet : ∀ snd t, snd ≠ .runtime → s.route t ≠ some w →
      sent snd t s'.trace = sent snd t s.trace ∧
        received snd t s'.trace = received snd t s.trace := by
    intro snd t hsnd ht
    obtain ⟨hsent, hreceived⟩ := hother snd t hsnd ht
    rw [htrace, sent_append, received_append, hsent, hreceived]
    simp
  refine ⟨fun v => ?_, fun v e he => ?_, fun snd t hsnd hfresh => ?_, fun snd t v hsnd ht => ?_,
    fun snd t hsnd => ?_⟩
  · by_cases hv : v = w
    · subst hv
      rw [hself_desk]
      exact hsettled
    · rw [hother_desk v hv]
      exact h.settled v
  · by_cases hv : v = w
    · subst hv
      rw [hself_desk] at he
      rcases hknown e he with he | he
      · exact hmem _ (h.known v e he)
      · exact hmem _ (hp.routed he)
    · rw [hother_desk v hv] at he
      exact hmem _ (h.known v e he)
  · have ht : s.route t ≠ some w := fun ht => hfresh w (hmem _ (hp.routed ht))
    rw [(hquiet snd t hsnd ht).1]
    exact h.unsent snd t hsnd fun v hv => hfresh v (hmem _ hv)
  · exact hline snd t v hsnd (hroute ▸ ht)
  · by_cases ht : s.route t = some w
    · exact ⟨_, (hline snd t w hsnd ht).symm⟩
    · rw [(hquiet snd t hsnd ht).1, (hquiet snd t hsnd ht).2]
      exact h.inOrder snd t hsnd

theorem Ordered.put (hsettled : Settled budget d) (hdeferred : d.deferred = (s.desk w).deferred)
    (hlineup : ∀ snd t, d.lineup budget snd t = (s.desk w).lineup budget snd t)
    (hsent : ∀ snd t, sent snd t es = []) (hreceived : ∀ snd t, received snd t es = []) :
    Ordered budget (s.put w d es) := by
  refine h.extend hp rfl rfl rfl hsettled (fun e he => Or.inl (hdeferred ▸ he)) ?_ ?_
  · intro snd t _ _
    rw [hsent, hreceived, hlineup, append_nil, nil_append]
  · exact fun snd t _ _ => ⟨hsent snd t, hreceived snd t⟩

theorem Ordered.unmap {rest : List ActorAddress} (hdying : (s.desk w).dying = a :: rest) :
    Ordered budget { s.put w { s.desk w with dying := rest } [] with
      route := update s.route a none } := by
  have hoff : (s.desk w).drain = .off := by
    by_contra hne
    simp [(h.settled w).dying hne] at hdying
  have hput : Ordered budget (s.put w { s.desk w with dying := rest } []) :=
    h.put hp (settled_off hoff) rfl (fun _ _ => rfl) (fun _ _ => rfl) fun _ _ => rfl
  refine hput.reroute _ fun snd t v _ ht => Or.inl ?_
  have hne : t ≠ a := by
    rintro rfl
    simp at ht
  rwa [update_of_ne hne] at ht

theorem Ordered.spawn (hr : Routed s) (hfresh : ∀ v, .spawned a v ∉ s.trace) :
    Ordered budget { s.put w { s.desk w with spawns := (s.desk w).spawns ++ [a] }
      [.spawned a w] with route := update s.route a (some w) } := by
  have hlineup : ∀ snd t,
      Desk.lineup budget snd t { s.desk w with spawns := (s.desk w).spawns ++ [a] } =
        (s.desk w).lineup budget snd t := fun snd t => by
    unfold Desk.lineup
    rw [line_spawn h hfresh]
  have hsettled : Settled budget { s.desk w with spawns := (s.desk w).spawns ++ [a] } := by
    refine ⟨(h.settled w).dying, fun k hk hzero e he => ?_, (h.settled w).absent⟩
    rw [stuck_spawn h hfresh he]
    exact (h.settled w).free k hk hzero e he
  have hput : Ordered budget (s.put w { s.desk w with spawns := (s.desk w).spawns ++ [a] }
      [.spawned a w]) := h.put hp hsettled rfl hlineup (fun _ _ => rfl) fun _ _ => rfl
  refine hput.reroute _ fun snd t v hsnd ht => ?_
  by_cases hta : t = a
  · subst hta
    obtain rfl : w = v := by simpa using ht
    refine Or.inr ?_
    have hsent : sent snd t s.trace = [] := h.unsent snd t hsnd hfresh
    have hreceived : received snd t s.trace = [] :=
      prefix_nil.mp (hsent ▸ h.inOrder snd t hsnd)
    rw [State.put_desk_self, hlineup, lineup_fresh hr hfresh]
    change sent snd t (s.trace ++ _) = received snd t (s.trace ++ _) ++ []
    rw [sent_append, received_append, hsent, hreceived]
    rfl
  · refine Or.inl ?_
    rwa [update_of_ne hta] at ht

/-- A message is accepted and joins the end of the line. -/
theorem Ordered.send {sender : Sender} (hroute : s.route dest = some w)
    (hdesk : s'.desk = update s.desk w d) (hsame : s'.route = s.route)
    (htrace : s'.trace = s.trace ++ [.accepted dest (s.message sender)])
    (hsettled : Settled budget d) (hdeferred : d.deferred = (s.desk w).deferred)
    (hline : ∀ snd t, d.lineup budget snd t =
      (s.desk w).lineup budget snd t ++ posted snd t [s.letter sender dest]) :
    Ordered budget s' := by
  have hsent : ∀ snd t, sent snd t [accepted (W := W) dest (s.message sender)] =
      posted snd t [s.letter sender dest] := fun _ _ => rfl
  refine h.extend hp hdesk hsame htrace hsettled (fun e he => Or.inl (hdeferred ▸ he))
    (fun snd t _ _ => ?_) fun snd t _ ht => ⟨?_, rfl⟩
  · rw [hsent, hline]
    rfl
  · rw [hsent]
    exact posted_of_dest_ne fun heq => ht (heq ▸ hroute)

theorem Ordered.post (hr : Routed s) {sender : Sender} (hroute : s.route dest = some w)
    (hsender : ∀ a, sender = .actor a → ∃ v, v ≠ w ∧ .spawned a v ∈ s.trace) :
    Ordered budget ((s.accept sender dest).sendTransfer w (s.letter sender dest)) := by
  have hs := h.settled w
  refine h.send hp hroute rfl rfl (append_nil _) ⟨hs.dying, hs.free, hs.absent⟩ rfl
    fun snd t => ?_
  change _ ++ posted snd t ((s.desk w).transfer ++ [_]) ++ posted snd t (s.desk w).pending =
    _ ++ posted snd t (s.desk w).transfer ++ posted snd t (s.desk w).pending ++ _
  rw [posted_append]
  by_cases hsnd : snd = sender
  · have hpending : posted snd t (s.desk w).pending = [] :=
      hr.outsider hp fun a ha => hsender a (hsnd ▸ ha)
    simp [hpending]
    rfl
  · have hnil : posted snd t [s.letter sender dest] = [] :=
      posted_eq_nil_iff.mpr fun x hx _ heq => hsnd (by cases mem_singleton.mp hx; exact heq.symm)
    simp [hnil]
    rfl

theorem Ordered.stage {sender : ActorAddress} (hroute : s.route dest = some w) :
    Ordered budget
      ((s.accept (.actor sender) dest).sendPending w (s.letter (.actor sender) dest)) := by
  have hs := h.settled w
  refine h.send hp hroute rfl rfl (append_nil _) ⟨hs.dying, hs.free, hs.absent⟩ rfl
    fun snd t => ?_
  change _ ++ posted snd t ((s.desk w).pending ++ [_]) =
    _ ++ posted snd t (s.desk w).pending ++ _
  rw [posted_append, ← append_assoc]
  rfl

/-- A message of the runtime itself has no place in the order. -/
theorem Ordered.inject {x y : Slot} (hx : (s.desk w).pool dest = some x) :
    Ordered budget ((s.accept .runtime dest).put w ((s.desk w).setSlot dest y)
      [.arrived dest (s.message .runtime)]) := by
  let es : List (Event W) :=
    [.accepted dest (s.message .runtime), .arrived dest (s.message .runtime)]
  have htrace : (s.accept .runtime dest).trace ++ [arrived dest (s.message .runtime)] =
      s.trace ++ es := append_assoc _ _ _
  have hquiet : ∀ snd t, snd ≠ .runtime → sent snd t es = [] ∧ received snd t es = [] := by
    intro snd t hsnd
    have hne : Sender.runtime ≠ snd := fun heq => hsnd heq.symm
    have hother : between snd t (dest, s.message .runtime) = false := by
      simp [between, State.message, hne]
    simp [es, sent, received, accepted?, arrived?, hother]
  refine h.extend hp rfl rfl htrace ((h.settled w).setSlot hx y) (fun e he => Or.inl he)
    (fun snd t hsnd _ => ?_) fun snd t hsnd _ => hquiet snd t hsnd
  rw [(hquiet snd t hsnd).1, (hquiet snd t hsnd).2, append_nil, nil_append]
  rfl

end

/-- Under `fifo` every step of the specification keeps the order. -/
theorem Step.ordered (hp : Placed s) (hr : Routed s) (h : Ordered budget s)
    (hstep : Step budget (fifo budget) s s') : Ordered budget s' := by
  have hs := h.settled
  cases hstep with
  | desk w hd =>
    have hsent : ∀ snd t, sent snd t _ = [] := fun snd t => by
      rw [sent, hd.accepted]
      rfl
    refine h.extend hp rfl rfl rfl (hd.settled (hs w)) hd.deferred (fun snd t hsnd ht => ?_)
      fun snd t _ ht => ⟨hsent snd t, hd.received_of_ne (hp.desk w) ht⟩
    rw [hsent, append_nil]
    exact hd.lineup (hp.desk w) (hs w) hsnd (hr.unmixed hp w snd t) ht
  | spawn w a hfresh => exact h.spawn hp hr hfresh
  | unmap w hdying => exact h.unmap hp hdying
  | post w sender hroute hsender => exact h.post hp hr hroute hsender
  | stage w hroute hsender => exact h.stage hp hroute
  | @signalTransfer w e he =>
    refine h.put hp ⟨(hs w).dying, (hs w).free, (hs w).absent⟩ rfl (fun snd t => ?_)
      (fun _ _ => rfl) fun _ _ => rfl
    change _ ++ posted snd t ((s.desk w).transfer ++ [e]) ++ _ = _
    rw [posted_append, posted_control he, append_nil]
    rfl
  | @signalPending w e he =>
    refine h.put hp ⟨(hs w).dying, (hs w).free, (hs w).absent⟩ rfl (fun snd t => ?_)
      (fun _ _ => rfl) fun _ _ => rfl
    change _ ++ posted snd t ((s.desk w).pending ++ [e]) = _
    rw [posted_append, posted_control he, append_nil]
    rfl
  | inject w hx => exact h.inject hp hx

end Run

end Spec

namespace Worker

/-- The spawn request of the target is still queued. -/
def awaitsSpawn (wk : Worker) (envelope : Envelope) : Bool :=
  envelope.dest ∈ wk.spawnRx.map SpawnRequest.addr

/-- The deferred messages whose target is not installed yet. -/
def stranded (wk : Worker) : List Envelope :=
  wk.deferredTransfers.filter wk.awaitsSpawn

/-- How many of the stranded messages the last round of the next drain pushes behind the
others before its budget is used up. -/
def stranding (cfg : RuntimeConfig) (wk : Worker) : ℕ :=
  cut wk.awaitsSpawn cfg.workerIngressBudget wk.deferredTransfers

/-- The next piece of the pass splits no pair of messages of one sender and target: if it
starts the ingress drain, not between the stranded messages that are pushed back and the
others; if it delivers an envelope of `pending_local`, no deferred one is overtaken. -/
def keepsOrder (cfg : RuntimeConfig) (wk : Worker) : Bool :=
  (!wk.entersDrain cfg || (wk.stranded.take (wk.stranding cfg)).all fun x =>
    (wk.stranded.drop (wk.stranding cfg)).all fun y => !samePair x y) &&
  match wk.nextPending with
  | some e => e.dest ∉ wk.pool || wk.deferredTransfers.all fun x => !samePair x e
  | none => true

theorem passes_of_keepsOrder {cfg : RuntimeConfig} {wk : Worker}
    (h : wk.keepsOrder cfg = true) : wk.Passes cfg (fifo cfg.workerIngressBudget) := by
  rw [keepsOrder, Bool.and_eq_true] at h
  obtain ⟨henter, hdirect⟩ := h
  refine ⟨fun hdrain x hx y hy => ?_, fun e he hpool x hx => ?_⟩
  · rw [hdrain, Bool.not_true, Bool.false_or, all_eq_true] at henter
    have hall := all_eq_true.mp (henter x hx) y hy
    simpa using hall
  · have hmem : e.dest ∈ wk.pool := by
      have hsome : (wk.pool[e.dest]?.map (absSlot (wk.phase.starting = some e.dest))).isSome =
        true := hpool
      simpa using hsome
    rw [he] at hdirect
    simp only [hmem, not_true_eq_false, decide_false, Bool.false_or] at hdirect
    have hall := all_eq_true.mp hdirect x hx
    simpa using hall

end Worker

namespace System

variable {n : ℕ}

def keepsOrder (cfg : RuntimeConfig) (s : System n) : Action n → Bool
  | .advance w => (s.workers w).keepsOrder cfg
  | _ => true

/-- In every run in which no piece of a pass splits two messages of one sender to one
target, each target receives the messages of each sender in the order of the sends. -/
theorem fifo_per_sender [NeZero n] {cfg : RuntimeConfig} {actions : List (Action n)}
    (hkeeps : Machine.Guarded (fun s a => s.keepsOrder cfg a = true) (step cfg) new actions)
    (snd : Sender) (t : ActorAddress) (hsnd : snd ≠ .runtime) :
    received snd t (run cfg actions).trace <+: sent snd t (run cfg actions).trace := by
  have hgate : Machine.Guarded (fun (s : System n) a => ∀ w, a = .advance w →
      (s.workers w).Passes cfg (fifo cfg.workerIngressBudget)) (step cfg) new actions := by
    refine hkeeps.mono fun s a h w ha => Worker.passes_of_keepsOrder ?_
    subst ha
    exact h
  have hrun : (run cfg actions).Sound ∧ Placed (run cfg actions).abs ∧
      Routed (run cfg actions).abs ∧ Ordered cfg.workerIngressBudget (run cfg actions).abs :=
    run_invariant (P := fun t => Routed t ∧ Ordered cfg.workerIngressBudget t)
      ⟨routed_init, ordered_init _⟩
      (fun _ _ hp h hstep => ⟨hstep.routed hp h.1, hstep.ordered hp h.1 h.2⟩) hgate
  obtain ⟨-, -, -, hordered⟩ := hrun
  exact hordered.inOrder snd t hsnd

section Runs

/-- Worker `0` ticks an actor for the first time; its mailbox is empty. -/
def firstTick (a : ActorAddress) : List (Action 1) :=
  [.visit 0 a, .callbackReturned 0 false, .receive 0 true]

def laterTick (a : ActorAddress) : List (Action 1) :=
  [.visit 0 a, .receive 0 true]

def advances (k : ℕ) : List (Action 1) :=
  List.replicate k (.advance 0)

/-- With a budget of two the target, actor `4`, is installed in the second pass, before the
drain reaches the two messages that the first pass deferred. -/
def promptSpawn : List (Action 1) :=
  List.flatten
    [[0, 1, 2, 3, 4].map .spawn, [.sendTo 0 4, .sendTo 0 4],
      [.beginPass 0 false], advances 10, [0, 1].flatMap firstTick, advances 7,
      [.beginPass 0 false], advances 4]

theorem fifo_per_sender_prompt_spawn :
    received (.external 0) 4 (run ⟨2, 64⟩ promptSpawn).trace =
      [(4, ⟨.external 0, 0⟩), (4, ⟨.external 0, 1⟩)] ∧
    received (.external 0) 4 (run ⟨2, 64⟩ promptSpawn).trace <+:
      sent (.external 0) 4 (run ⟨2, 64⟩ promptSpawn).trace := by
  have hreceived : received (.external 0) 4 (run ⟨2, 64⟩ promptSpawn).trace =
      [(4, ⟨.external 0, 0⟩), (4, ⟨.external 0, 1⟩)] := by decide +kernel
  have hkeeps : Machine.Guarded (fun s a => s.keepsOrder ⟨2, 64⟩ a = true) (step ⟨2, 64⟩) new
      promptSpawn := by decide +kernel
  exact ⟨hreceived, fifo_per_sender hkeeps (.external 0) 4 (by decide)⟩

/-- With a budget of three the target, actor `9`, is still not installed when the drain of
the second pass starts. The drain takes three envelopes from a queue of two, and the first
message ends up behind the second. -/
def lateSpawn : List (Action 1) :=
  List.flatten
    [[0, 1, 2, 3, 4, 5, 6, 7, 8, 9].map .spawn, [.sendTo 0 9, .sendTo 0 9],
      [.beginPass 0 false], advances 11, [0, 1, 2].flatMap firstTick, advances 8,
      [.beginPass 0 false], advances 12, [0, 1, 2].flatMap laterTick,
      [3, 4, 5, 6, 7, 8].flatMap firstTick, advances 6,
      [.beginPass 0 false], advances 3]

theorem lateSpawn_swaps :
    sent (.external 0) 9 (run ⟨3, 64⟩ lateSpawn).trace =
      [(9, ⟨.external 0, 0⟩), (9, ⟨.external 0, 1⟩)] ∧
    received (.external 0) 9 (run ⟨3, 64⟩ lateSpawn).trace =
      [(9, ⟨.external 0, 1⟩), (9, ⟨.external 0, 0⟩)] := by
  decide +kernel

theorem fifo_lost_in_drain :
    ¬∀ (cfg : RuntimeConfig) (actions : List (Action 1)) snd t, snd ≠ .runtime →
      received snd t (run cfg actions).trace <+: sent snd t (run cfg actions).trace := by
  intro h
  have hfifo := h ⟨3, 64⟩ lateSpawn (.external 0) 9 (by decide)
  rw [lateSpawn_swaps.1, lateSpawn_swaps.2] at hfifo
  exact absurd hfifo (by decide)

end Runs

end System

end Swactor.Runtime
