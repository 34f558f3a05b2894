import Swactor.Lib.Ledger
import Swactor.Runtime.Lifecycle

/-!
# No message is lost or duplicated

A user message whose send was accepted lies in one queue or one mailbox, or it has been
handled, or discarded. The places form a ledger: every step of the runtime moves messages
between at most two of them, and a send enters a new message at one.
-/
namespace Swactor.Runtime

open Event Ledger List

variable {W : Type}

/-- Where a worker keeps user messages. -/
inductive Spot
  | pending
  | transfer
  | deferred
  | mailbox (addr : ActorAddress)
deriving DecidableEq

inductive Place (W : Type)
  | waiting (worker : W) (spot : Spot)
  | handled
  | discarded
deriving DecidableEq

open Spec

/-- The user messages in the mailbox of `addr`. -/
def mail (addr : ActorAddress) (mailbox : List Payload) : List Letter :=
  letters (mailbox.map (Envelope.mk addr))

def Event.accepted? : Event W → Option Letter
  | .accepted a m => some (a, m)
  | _ => none

/-- A message given to `handle` counts as handled, also when its type did not match. -/
def Event.handled? : Event W → Option Letter
  | .handleCalled a (.user m) => some (a, m)
  | .mismatched a (.user m) => some (a, m)
  | _ => none

def Event.discarded? : Event W → Option Letter
  | .discarded a m => some (a, m)
  | _ => none

theorem mail_append (a : ActorAddress) (ps qs : List Payload) :
    mail a (ps ++ qs) = mail a ps ++ mail a qs := by
  unfold mail
  rw [map_append, letters_append]

theorem mail_cons (a : ActorAddress) (p : Payload) (ps : List Payload) :
    mail a (p :: ps) = mail a [p] ++ mail a ps :=
  mail_append a [p] ps

theorem mail_control {a : ActorAddress} {p : Payload} (h : control p = true) : mail a [p] = [] := by
  have hnone : letterOf ⟨a, p⟩ = none := letterOf_control h
  simp [mail, letters, hnone]

section Discards

variable (a : ActorAddress) (ps : List Payload)

theorem discarded_discards : (discards a ps : List (Event W)).filterMap discarded? = mail a ps := by
  induction ps with
  | nil => rfl
  | cons p ps ih =>
    rw [mail_cons, ← ih]
    cases p <;> rfl

theorem handled_discards : (discards a ps : List (Event W)).filterMap handled? = [] :=
  filterMap_discards (fun _ _ => rfl) a ps

theorem accepted_discards : (discards a ps : List (Event W)).filterMap accepted? = [] :=
  filterMap_discards (fun _ _ => rfl) a ps

end Discards

namespace Spec

def Desk.held (d : Desk) : Spot → List Letter
  | .pending => letters d.pending
  | .transfer => letters d.transfer
  | .deferred => letters d.deferred
  | .mailbox a => ((d.pool a).map fun x => mail a x.mailbox).getD []

attribute [local simp] Desk.held

def State.holding (s : State W) : Place W → List Letter
  | .waiting w spot => (s.desk w).held spot
  | .handled => s.trace.filterMap handled?
  | .discarded => s.trace.filterMap discarded?

section Exchange

variable {a : ActorAddress} {x y : Slot} {es : List (Event W)}

/-- What a step of one actor takes out of its mailbox is handled or discarded. -/
theorem SlotStep.exchange (h : SlotStep a x es y) :
    es.filterMap accepted? = [] ∧
    (es.filterMap handled? = [] ∧
        mail a x.mailbox = es.filterMap discarded? ++ mail a y.mailbox ∨
      es.filterMap discarded? = [] ∧
        mail a x.mailbox = es.filterMap handled? ++ mail a y.mailbox) := by
  cases h with
  | start => exact ⟨rfl, Or.inl ⟨rfl, rfl⟩⟩
  | @take msg rest typed hmailbox =>
    rw [hmailbox, mail_cons]
    cases typed <;> cases msg <;> exact ⟨rfl, Or.inr ⟨rfl, rfl⟩⟩
  | halt cause | poison | clear =>
    refine ⟨accepted_discards a x.mailbox, Or.inl ⟨handled_discards a x.mailbox, ?_⟩⟩
    exact ((append_nil _).trans (discarded_discards a x.mailbox)).symm

/-- A delivered payload enters the mailbox, or it is a signal and the mailbox may be
discarded. -/
theorem Delivery.exchange {msg : Payload} (h : Delivery a msg x es y) :
    es.filterMap accepted? = [] ∧ es.filterMap handled? = [] ∧
    (es.filterMap discarded? = [] ∧ mail a y.mailbox = mail a x.mailbox ++ mail a [msg] ∨
      mail a [msg] = [] ∧
        mail a x.mailbox = es.filterMap discarded? ++ mail a y.mailbox) := by
  cases h with
  | push =>
    rw [mail_append]
    cases msg <;> exact ⟨rfl, rfl, Or.inl ⟨rfl, rfl⟩⟩
  | resume hmsg => exact ⟨rfl, rfl, Or.inr ⟨mail_control hmsg, rfl⟩⟩
  | halt hmsg =>
    refine ⟨accepted_discards a x.mailbox, handled_discards a x.mailbox,
      Or.inr ⟨mail_control hmsg, ?_⟩⟩
    exact ((append_nil _).trans (discarded_discards a x.mailbox)).symm

end Exchange

variable {a : ActorAddress} {budget : ℕ} {gate : Gate} {here : ActorAddress → Prop} {s : State W}
  {items : List Letter} {w : W} {d d' : Desk} {e : Envelope} {es : List (Event W)}

theorem filterMap_reap {f : Event W → Option Letter} {x : Slot} (hremoved : f (.removed a w) = none)
    (hstop : f (.stopCalled a) = none) :
    (removed a w :: discards a x.mailbox ++
      if isOnStopEligible x.stopping x.poisoned then [stopCalled a] else []).filterMap f =
      (discards a x.mailbox).filterMap f := by
  rw [filterMap_append, filterMap_cons_none hremoved]
  split_ifs <;> simp [hstop]

theorem Placing.accepted (h : Placing here e d es d') : es.filterMap accepted? = [] := by
  cases h with
  | deliver hx hdeliver => exact hdeliver.exchange.1
  | defer hx hhere => rfl
  | drop hx hhere => exact accepted_discards _ _

theorem DeskStep.accepted (h : DeskStep budget gate here w d es d') :
    es.filterMap accepted? = [] := by
  cases h with
  | slot hx hslot => exact hslot.exchange.1
  | install | enterDrain | leaveDeferred | leaveTransfers => rfl
  | drainDeferred hdrain hbudget hqueue hplace | drainTransfers hdrain hbudget hqueue hplace
  | drainPending hdrain hqueue hgate hplace => exact hplace.accepted
  | reap => rw [filterMap_reap (f := accepted?) rfl rfl, accepted_discards]

/-- The accepted messages are distinct and each is at one place. -/
structure Kept (s : State W) : Prop where
  nodup : (s.trace.filterMap accepted?).Nodup
  serial : ∀ x ∈ s.trace.filterMap accepted?, x.2.serial < s.serial
  balanced : Balanced s.holding (s.trace.filterMap accepted?)

theorem kept_init : Kept ({} : State W) :=
  ⟨nodup_nil, fun x hx => absurd hx not_mem_nil,
    balanced_nil fun p => by cases p with
      | waiting w spot => cases spot <;> rfl
      | handled => rfl
      | discarded => rfl⟩

theorem Kept.reroute (h : Kept s) (route : ActorAddress → Option W) :
    Kept { s with route := route } :=
  ⟨h.nodup, h.serial, h.balanced⟩

variable [DecidableEq W]

theorem holding_put_self (spot : Spot) :
    (s.put w d es).holding (.waiting w spot) = d.held spot := by
  simp [State.holding, State.put]

theorem holding_put_ne {v : W} (hv : v ≠ w) (spot : Spot) :
    (s.put w d es).holding (.waiting v spot) = s.holding (.waiting v spot) := by
  simp [State.holding, State.put, hv]

theorem holding_put_handled :
    (s.put w d es).holding .handled = s.holding .handled ++ es.filterMap handled? :=
  filterMap_append

theorem holding_put_discarded :
    (s.put w d es).holding .discarded = s.holding .discarded ++ es.filterMap discarded? :=
  filterMap_append

section

variable (hL : Balanced s.holding items)

include hL

/-- A step of one worker that exchanges messages between two places. -/
theorem put_move (p q : Place W)
    (hperm : ((s.put w d es).holding p ++ (s.put w d es).holding q).Perm
      (s.holding p ++ s.holding q))
    (hspots : ∀ r, .waiting w r ≠ p → .waiting w r ≠ q → d.held r = (s.desk w).held r)
    (hhandled : .handled ≠ q → es.filterMap handled? = [])
    (hdiscarded : .discarded ≠ q → es.filterMap discarded? = []) :
    Balanced (s.put w d es).holding items := by
  refine hL.move p q hperm fun r hp hq => ?_
  cases r with
  | waiting v spot =>
    by_cases hv : v = w
    · subst hv
      rw [holding_put_self]
      exact hspots spot hp hq
    · exact holding_put_ne hv spot
  | handled => rw [holding_put_handled, hhandled hq, append_nil]
  | discarded => rw [holding_put_discarded, hdiscarded hq, append_nil]

theorem put_spots (p q : Spot)
    (hperm : (d.held p ++ d.held q).Perm ((s.desk w).held p ++ (s.desk w).held q))
    (hother : ∀ r, r ≠ p → r ≠ q → d.held r = (s.desk w).held r)
    (hhandled : es.filterMap handled? = [])
    (hdiscarded : es.filterMap discarded? = []) :
    Balanced (s.put w d es).holding items := by
  refine put_move hL (.waiting w p) (.waiting w q) ?_ (fun r hp hq => ?_) (fun _ => hhandled)
    fun _ => hdiscarded
  · rw [holding_put_self, holding_put_self]
    exact hperm
  · exact hother r (fun h => hp (h ▸ rfl)) fun h => hq (h ▸ rfl)

/-- A step of one worker that moves no message. -/
theorem put_same (hheld : ∀ r, d.held r = (s.desk w).held r)
    (hhandled : es.filterMap handled? = [])
    (hdiscarded : es.filterMap discarded? = []) :
    Balanced (s.put w d es).holding items :=
  put_spots hL .pending .pending (by rw [hheld]) (fun r _ _ => hheld r) hhandled hdiscarded

/-- Messages leave the worker for the place `q`. -/
theorem put_out {out : List Letter} (p : Spot) (q : Place W)
    (hout : (s.put w d es).holding q = s.holding q ++ out)
    (hspot : (s.desk w).held p = out ++ d.held p)
    (hother : ∀ r, r ≠ p → d.held r = (s.desk w).held r)
    (hhandled : .handled ≠ q → es.filterMap handled? = [])
    (hdiscarded : .discarded ≠ q → es.filterMap discarded? = []) :
    Balanced (s.put w d es).holding items := by
  have hold : s.holding (.waiting w p) = out ++ d.held p := hspot
  refine put_move hL (.waiting w p) q ?_ (fun r hp _ => hother r fun h => hp (h ▸ rfl))
    hhandled hdiscarded
  rw [holding_put_self, hout, hold, perm_iff_count]
  intro x
  simp only [count_append]
  omega

theorem put_discarded (p : Spot)
    (hspot : (s.desk w).held p = es.filterMap discarded? ++ d.held p)
    (hother : ∀ r, r ≠ p → d.held r = (s.desk w).held r)
    (hhandled : es.filterMap handled? = []) :
    Balanced (s.put w d es).holding items :=
  put_out hL p .discarded holding_put_discarded hspot hother (fun _ => hhandled)
    fun h => absurd rfl h

end

theorem held_setSlot_self (a : ActorAddress) (x : Slot) :
    (d.setSlot a x).held (.mailbox a) = mail a x.mailbox := by
  simp [Desk.setSlot]

theorem held_setSlot_ne {r : Spot} (x : Slot) (hr : r ≠ .mailbox a) :
    (d.setSlot a x).held r = d.held r := by
  cases r with
  | mailbox b =>
    have hb : b ≠ a := fun h => hr (h ▸ rfl)
    simp [Desk.setSlot, hb]
  | pending => rfl
  | transfer => rfl
  | deferred => rfl

theorem held_mailbox {x : Slot} (hx : d.pool a = some x) :
    d.held (.mailbox a) = mail a x.mailbox := by
  simp [hx]

theorem held_deferred (e : Envelope) :
    Desk.held { d with deferred := d.deferred ++ [e] } .deferred =
      d.held .deferred ++ letters [e] :=
  letters_append _ _

theorem held_deferred_ne {r : Spot} (q : List Envelope) (hr : r ≠ .deferred) :
    Desk.held { d with deferred := q } r = d.held r := by
  cases r with
  | deferred => exact absurd rfl hr
  | pending => rfl
  | transfer => rfl
  | mailbox a => rfl

/-- The first envelope of the queue at `p` is placed. -/
theorem placing_balanced (hL : Balanced s.holding items) (p : Spot) (hqueue : ∀ a, p ≠ .mailbox a)
    (hspot : (s.desk w).held p = letters [e] ++ d.held p)
    (hother : ∀ r, r ≠ p → d.held r = (s.desk w).held r) (h : Placing here e d es d') :
    Balanced (s.put w d' es).holding items := by
  cases h with
  | @deliver x y _ hx hdeliver =>
    obtain ⟨-, hhandled, hwhere⟩ := hdeliver.exchange
    have hp : p ≠ .mailbox e.dest := hqueue e.dest
    have hbox : (s.desk w).held (.mailbox e.dest) = mail e.dest x.mailbox := by
      rw [← hother _ hp.symm]
      exact held_mailbox hx
    rcases hwhere with ⟨hdiscarded, hy⟩ | ⟨hmsg, hx'⟩
    · refine put_spots hL p (.mailbox e.dest) ?_ (fun r hr hr' => ?_) hhandled hdiscarded
      · rw [held_setSlot_ne y hp, held_setSlot_self, hy, hspot, hbox, perm_iff_count]
        intro z
        simp only [count_append]
        change _ + (_ + (letters [e]).count z) = _
        omega
      · rw [held_setSlot_ne y hr']
        exact hother r hr
    · refine put_discarded hL (.mailbox e.dest) ?_ (fun r hr => ?_) hhandled
      · rw [hbox, held_setSlot_self, hx']
      · rw [held_setSlot_ne y hr]
        by_cases hrp : r = p
        · have hnil : letters [e] = [] := hmsg
          rw [hrp, hspot, hnil, nil_append]
        · exact hother r hrp
  | defer hx hhere =>
    refine put_spots hL p .deferred ?_ (fun r hr hr' => ?_) rfl rfl
    · rw [held_deferred, perm_iff_count]
      intro z
      by_cases hp : p = .deferred
      · subst hp
        rw [held_deferred, hspot]
        simp only [count_append]
        omega
      · rw [held_deferred_ne _ hp, hspot, ← hother _ (Ne.symm hp)]
        simp only [count_append]
        omega
    · rw [held_deferred_ne _ hr']
      exact hother r hr
  | drop hx hhere =>
    refine put_discarded hL p ?_ hother (handled_discards _ _)
    rw [hspot, discarded_discards]
    rfl

theorem DeskStep.balanced (hp : Placed s) (hL : Balanced s.holding items)
    (h : DeskStep budget gate (fun a => s.route a = some w) w (s.desk w) es d) :
    Balanced (s.put w d es).holding items := by
  cases h with
  | @slot addr x y _ hx hslot =>
    have hbox := held_mailbox hx
    have hother : ∀ r, r ≠ .mailbox addr → ((s.desk w).setSlot addr y).held r = (s.desk w).held r :=
      fun r hr => held_setSlot_ne y hr
    rcases hslot.exchange.2 with ⟨hhandled, hx'⟩ | ⟨hdiscarded, hx'⟩
    · refine put_discarded hL (.mailbox addr) ?_ hother hhandled
      rw [hbox, held_setSlot_self, hx']
    · refine put_out hL (.mailbox addr) .handled holding_put_handled ?_ hother
        (fun h => absurd rfl h) fun _ => hdiscarded
      rw [hbox, held_setSlot_self, hx']
  | @install addr rest hdrain hspawns =>
    have hnone : (s.desk w).pool addr = none := by
      have hmem : addr ∈ (s.desk w).spawns := hspawns ▸ mem_cons_self
      exact (hp.desk w).absent addr (mem_append_left _ hmem)
    refine put_same hL (fun r => ?_) rfl rfl
    change ((s.desk w).setSlot addr {}).held r = _
    by_cases hr : r = .mailbox addr
    · subst hr
      rw [held_setSlot_self]
      simp [hnone, mail, letters]
    · exact held_setSlot_ne _ hr
  | enterDrain | leaveDeferred | leaveTransfers =>
    exact put_same hL (fun r => by cases r <;> rfl) rfl rfl
  | drainDeferred hdrain hbudget hqueue hplace =>
    exact placing_balanced hL .deferred (by simp) (letters_of_eq_cons hqueue)
      (fun r hr => by cases r <;> first | rfl | exact absurd rfl hr) hplace
  | drainTransfers hdrain hbudget hqueue hplace =>
    exact placing_balanced hL .transfer (by simp) (letters_of_eq_cons hqueue)
      (fun r hr => by cases r <;> first | rfl | exact absurd rfl hr) hplace
  | drainPending hdrain hqueue hgate hplace =>
    exact placing_balanced hL .pending (by simp) (letters_of_eq_cons hqueue)
      (fun r hr => by cases r <;> first | rfl | exact absurd rfl hr) hplace
  | @reap addr x hdrain hx hdead =>
    refine put_discarded hL (.mailbox addr) ?_ (fun r hr => ?_) ?_
    · rw [held_mailbox hx, filterMap_reap (f := discarded?) rfl rfl, discarded_discards]
      simp
    · cases r with
      | mailbox b =>
        have hb : b ≠ addr := fun h => hr (h ▸ rfl)
        simp [hb]
      | pending | transfer | deferred => rfl
    · rw [filterMap_reap (f := handled?) rfl rfl, handled_discards]

/-- A step that accepts no message. -/
theorem Kept.put (h : Kept s) (haccepted : es.filterMap accepted? = [])
    (hL : Balanced (s.put w d es).holding (s.trace.filterMap accepted?)) :
    Kept (s.put w d es) := by
  have hsame : (s.put w d es).trace.filterMap accepted? =
      s.trace.filterMap accepted? := by
    change (s.trace ++ es).filterMap accepted? = _
    rw [filterMap_append, haccepted, append_nil]
  exact ⟨hsame ▸ h.nodup, hsame ▸ h.serial, hsame ▸ hL⟩

/-- The message of a send is accepted and enters at one spot. -/
theorem Kept.accept (h : Kept s) {sender : Sender} {dest : ActorAddress} (p : Spot)
    (haccepted : es.filterMap accepted? = []) (hhandled : es.filterMap handled? = [])
    (hdiscarded : es.filterMap discarded? = [])
    (hspot : d.held p = (s.desk w).held p ++ [(dest, s.message sender)])
    (hother : ∀ r, r ≠ p → d.held r = (s.desk w).held r) :
    Kept ((s.accept sender dest).put w d es) := by
  have hsame : ((s.accept sender dest).put w d es).trace.filterMap accepted? =
      s.trace.filterMap accepted? ++ [(dest, s.message sender)] := by
    change (s.trace ++ [_] ++ es).filterMap accepted? = _
    rw [filterMap_append, haccepted, append_nil, filterMap_append]
    rfl
  have hfresh : (dest, s.message sender) ∉ s.trace.filterMap accepted? := fun hmem =>
    absurd (h.serial _ hmem) (Nat.lt_irrefl _)
  refine ⟨?_, ?_, ?_⟩
  · rw [hsame]
    exact nodup_append.mpr ⟨h.nodup, nodup_singleton _, fun x hx y hy hxy =>
      hfresh (by rwa [hxy, mem_singleton.mp hy] at hx)⟩
  · rw [hsame]
    intro x hx
    change x.2.serial < s.serial + 1
    rcases mem_append.mp hx with hx | hx
    · have := h.serial x hx
      omega
    · rw [mem_singleton.mp hx]
      exact Nat.lt_succ_self _
  · rw [hsame]
    refine h.balanced.add hfresh (.waiting w p) ?_ fun r hr => ?_
    · rw [holding_put_self, hspot]
      exact perm_append_singleton _ _
    · cases r with
      | waiting v spot =>
        by_cases hv : v = w
        · subst hv
          rw [holding_put_self]
          exact hother spot fun heq => hr (heq ▸ rfl)
        · exact holding_put_ne hv spot
      | handled =>
        rw [holding_put_handled, hhandled, append_nil]
        exact filterMap_append.trans (append_nil _)
      | discarded =>
        rw [holding_put_discarded, hdiscarded, append_nil]
        exact filterMap_append.trans (append_nil _)

theorem held_transfer (e : Envelope) :
    Desk.held { d with transfer := d.transfer ++ [e] } .transfer =
      d.held .transfer ++ letters [e] :=
  letters_append _ _

theorem held_pending (e : Envelope) :
    Desk.held { d with pending := d.pending ++ [e] } .pending =
      d.held .pending ++ letters [e] :=
  letters_append _ _

theorem Step.kept (hp : Placed s) (h : Kept s) {s' : State W} (hstep : Step budget gate s s') :
    Kept s' := by
  cases hstep with
  | desk w hd => exact h.put hd.accepted (hd.balanced hp h.balanced)
  | spawn w a hfresh | unmap w hdying =>
    exact (h.put rfl (put_same h.balanced (fun r => by cases r <;> rfl) rfl rfl)).reroute _
  | post w sender hroute hsender =>
    exact h.accept .transfer rfl rfl rfl (held_transfer _) fun r hr => by
      cases r <;> first | rfl | exact absurd rfl hr
  | stage w hroute hsender =>
    exact h.accept .pending rfl rfl rfl (held_pending _) fun r hr => by
      cases r <;> first | rfl | exact absurd rfl hr
  | @signalTransfer w e he =>
    have hnil : letters [e] = [] := mail_control he
    refine h.put rfl (put_same h.balanced (fun r => ?_) rfl rfl)
    cases r with
    | transfer => rw [held_transfer, hnil, append_nil]
    | pending | deferred | mailbox a => rfl
  | @signalPending w e he =>
    have hnil : letters [e] = [] := mail_control he
    refine h.put rfl (put_same h.balanced (fun r => ?_) rfl rfl)
    cases r with
    | pending => rw [held_pending, hnil, append_nil]
    | transfer | deferred | mailbox a => rfl
  | @inject w dest x hx =>
    refine h.accept (.mailbox dest) rfl rfl rfl ?_ fun r hr => held_setSlot_ne _ hr
    rw [held_setSlot_self, held_mailbox hx, mail_append]
    rfl

end Spec

namespace System

variable {n : ℕ}

/-- The user messages at one place of the runtime. -/
def holding (s : System n) : Place (Fin n) → List Letter
  | .waiting w .pending => letters (s.workers w).pendingLocal
  | .waiting w .transfer => letters (s.workers w).transferRx
  | .waiting w .deferred => letters (s.workers w).deferredTransfers
  | .waiting w (.mailbox addr) =>
      match (s.workers w).pool[addr]? with
      | some slot => mail addr slot.mailbox
      | none => []
  | .handled => s.trace.filterMap handled?
  | .discarded => s.trace.filterMap discarded?

def accepted (s : System n) : List Letter :=
  s.trace.filterMap accepted?

theorem holding_abs (s : System n) : s.abs.holding = s.holding := by
  ext1 p
  cases p with
  | waiting w spot =>
    cases spot with
    | mailbox addr =>
      change (((s.workers w).pool[addr]?.map _).map _).getD [] = _
      rw [holding]
      cases (s.workers w).pool[addr]? <;> rfl
    | pending | transfer | deferred => rfl
  | handled => rfl
  | discarded => rfl

/-- In every run the accepted user messages are distinct; each of them is at exactly one
place, once; no place holds anything else; and a message is only discarded after its
destination was marked as stopping, poisoned or removed. -/
theorem message_custody [NeZero n] (cfg : RuntimeConfig) (actions : List (Action n)) :
    (run cfg actions).accepted.Nodup ∧
    (∀ x ∈ (run cfg actions).accepted, ∃ p, ((run cfg actions).holding p).count x = 1 ∧
      ∀ q, q ≠ p → x ∉ (run cfg actions).holding q) ∧
    (∀ p, ∀ x ∈ (run cfg actions).holding p, x ∈ (run cfg actions).accepted) ∧
    (∀ past a m rest, (run cfg actions).trace = past ++ .discarded a m :: rest →
      Marked past a ∨ Removed past a) := by
  have hkept : Kept (run cfg actions).abs :=
    (run_invariant_open kept_init (fun _ _ hp h hstep => hstep.kept hp h) actions).2.2
  obtain ⟨-, -, -, ht⟩ := run_tracked cfg actions
  have hL := hkept.balanced
  rw [holding_abs] at hL
  exact ⟨hkept.nodup, hL.held, hL.known, fun past a m rest hsplit => ht.legal _ _ _ hsplit⟩

theorem message_custody_first_send :
    (run ⟨1024, 64⟩ [.spawn 7, .sendTo 0 7] : System 1).accepted = [(7, ⟨.external 0, 0⟩)] ∧
    ∃ p, ((run ⟨1024, 64⟩ [.spawn 7, .sendTo 0 7] : System 1).holding p).count
      (7, ⟨.external 0, 0⟩) = 1 := by
  have haccepted : (run ⟨1024, 64⟩ [.spawn 7, .sendTo 0 7] : System 1).accepted =
      [(7, ⟨.external 0, 0⟩)] := by decide
  obtain ⟨-, hheld, -, -⟩ := message_custody (n := 1) ⟨1024, 64⟩ [.spawn 7, .sendTo 0 7]
  obtain ⟨p, hp, -⟩ :=
    hheld (7, ⟨.external 0, 0⟩) (by rw [haccepted]; exact mem_singleton_self _)
  exact ⟨haccepted, p, hp⟩

end System

end Swactor.Runtime
