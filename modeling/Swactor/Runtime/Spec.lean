import Swactor.Runtime.Worker

/-!
# What the runtime does to actors and messages

The specification keeps of every worker what matters for its actors and messages: the
slots, the three message queues, the queued spawns, the actors that were removed but
are still routed, and the position inside the ingress drain. Everything else, such as
the order of the phases, the requests posted by callbacks or the admin queues, is left
open: a step of the specification may happen whenever its own condition holds.
-/
namespace Swactor.Runtime

/-- A stop that reaches an actor only through a callback or its mailbox. -/
def StopCause.needsStart : StopCause → Bool
  | .requested => true
  | .signalled => true
  | .intercepted => false
  | .admin => false

namespace Spec

structure Slot where
  mailbox : List Payload := []
  started : Bool := false
  stopping : Bool := false
  poisoned : Bool := false

/-- The position in `drain_transfers`, with the number of envelopes taken. -/
inductive Drain
  | off
  | deferred (count : ℕ)
  | transfers (count : ℕ)
deriving DecidableEq

structure Desk where
  pool : ActorAddress → Option Slot := fun _ => none
  transfer : List Envelope := []
  deferred : List Envelope := []
  pending : List Envelope := []
  spawns : List ActorAddress := []
  dying : List ActorAddress := []
  drain : Drain := .off

structure State (W : Type) where
  route : ActorAddress → Option W := fun _ => none
  desk : W → Desk := fun _ => {}
  serial : ℕ := 0
  trace : List (Event W) := []

def Desk.setSlot (d : Desk) (addr : ActorAddress) (x : Slot) : Desk :=
  { d with pool := Function.update d.pool addr (some x) }

/-- Anything but a user message. -/
def control : Payload → Bool
  | .user _ => false
  | _ => true

section Steps

variable {W : Type}

/-- One change of one installed actor. -/
inductive SlotStep (addr : ActorAddress) : Slot → List (Event W) → Slot → Prop
  | start {x : Slot} (hstarted : x.started = false) (hstopping : x.stopping = false)
      (hpoisoned : x.poisoned = false) :
      SlotStep addr x [.startCalled addr] { x with started := true }
  | take {x : Slot} {msg : Payload} {rest : List Payload} (typed : Bool)
      (hmailbox : x.mailbox = msg :: rest) (hstarted : x.started = true)
      (hstopping : x.stopping = false) (hpoisoned : x.poisoned = false) :
      SlotStep addr x [if typed then .handleCalled addr msg else .mismatched addr msg]
        { x with mailbox := rest }
  | halt {x : Slot} (cause : StopCause) (hcause : cause.needsStart = true → x.started = true) :
      SlotStep addr x (.stopping addr cause :: discards addr x.mailbox)
        { x with stopping := true, mailbox := [] }
  | poison {x : Slot} (hstarted : x.started = true) :
      SlotStep addr x (.poisoned addr :: discards addr x.mailbox)
        { x with poisoned := true, mailbox := [] }
  | clear {x : Slot} (hdead : (x.poisoned || x.stopping) = true) :
      SlotStep addr x (discards addr x.mailbox) { x with mailbox := [] }

/-- One payload reaches an installed actor. -/
inductive Delivery (addr : ActorAddress) (msg : Payload) : Slot → List (Event W) → Slot → Prop
  | push {x : Slot} :
      Delivery addr msg x (arrivals addr msg) { x with mailbox := x.mailbox ++ [msg] }
  | resume {x : Slot} (hmsg : control msg = true) : Delivery addr msg x [] x
  | halt {x : Slot} (hmsg : control msg = true) :
      Delivery addr msg x (.stopping addr .intercepted :: discards addr x.mailbox)
        { x with stopping := true, mailbox := [] }

/-- One envelope is delivered, deferred or dropped. -/
inductive Placing (here : ActorAddress → Prop) (e : Envelope) :
    Desk → List (Event W) → Desk → Prop
  | deliver {d : Desk} {x y : Slot} {es : List (Event W)} (hx : d.pool e.dest = some x)
      (h : Delivery e.dest e.payload x es y) : Placing here e d es (d.setSlot e.dest y)
  | defer {d : Desk} (hx : d.pool e.dest = none) (hhere : here e.dest) :
      Placing here e d [] { d with deferred := d.deferred ++ [e] }
  | drop {d : Desk} (hx : d.pool e.dest = none) (hhere : ¬here e.dest) :
      Placing here e d (discards e.dest [e.payload]) d

/-- Conditions on two of the steps: on starting the ingress drain and on placing the first
pending envelope. -/
structure Gate where
  enter : Desk → Prop
  direct : Desk → Envelope → Prop

/-- No condition. -/
def Gate.open : Gate where
  enter := fun _ => True
  direct := fun _ _ => True

/-- A step of one worker that does not touch the shared state. -/
inductive DeskStep (budget : ℕ) (gate : Gate) (here : ActorAddress → Prop) (self : W) :
    Desk → List (Event W) → Desk → Prop
  | slot {d : Desk} {addr : ActorAddress} {x y : Slot} {es : List (Event W)}
      (hx : d.pool addr = some x) (h : SlotStep addr x es y) :
      DeskStep budget gate here self d es (d.setSlot addr y)
  | install {d : Desk} {addr : ActorAddress} {rest : List ActorAddress}
      (hdrain : d.drain = .off) (hspawns : d.spawns = addr :: rest) :
      DeskStep budget gate here self d [] { d.setSlot addr {} with spawns := rest }
  | enterDrain {d : Desk} (hdrain : d.drain = .off) (hdying : d.dying = [])
      (hspawns : budget = 0 → d.spawns = []) (hgate : gate.enter d) :
      DeskStep budget gate here self d [] { d with drain := .deferred 0 }
  | drainDeferred {d d' : Desk} {k : ℕ} {e : Envelope} {rest : List Envelope}
      {es : List (Event W)} (hdrain : d.drain = .deferred k)
      (hbudget : withinBudget budget k = true) (hqueue : d.deferred = e :: rest)
      (h : Placing here e { d with deferred := rest, drain := .deferred (k + 1) } es d') :
      DeskStep budget gate here self d es d'
  | leaveDeferred {d : Desk} {k : ℕ} (hdrain : d.drain = .deferred k)
      (hend : withinBudget budget k = false ∨ d.deferred = []) :
      DeskStep budget gate here self d [] { d with drain := .transfers k }
  | drainTransfers {d d' : Desk} {k : ℕ} {e : Envelope} {rest : List Envelope}
      {es : List (Event W)} (hdrain : d.drain = .transfers k)
      (hbudget : withinBudget budget k = true) (hqueue : d.transfer = e :: rest)
      (h : Placing here e { d with transfer := rest, drain := .transfers (k + 1) } es d') :
      DeskStep budget gate here self d es d'
  | leaveTransfers {d : Desk} {k : ℕ} (hdrain : d.drain = .transfers k) :
      DeskStep budget gate here self d [] { d with drain := .off }
  | drainPending {d d' : Desk} {e : Envelope} {rest : List Envelope} {es : List (Event W)}
      (hdrain : d.drain = .off) (hqueue : d.pending = e :: rest) (hgate : gate.direct d e)
      (h : Placing here e { d with pending := rest } es d') :
      DeskStep budget gate here self d es d'
  | reap {d : Desk} {addr : ActorAddress} {x : Slot} (hdrain : d.drain = .off)
      (hx : d.pool addr = some x) (hdead : (x.poisoned || x.stopping) = true) :
      DeskStep budget gate here self d
        (.removed addr self :: discards addr x.mailbox ++
          if isOnStopEligible x.stopping x.poisoned then [.stopCalled addr] else [])
        { d with pool := Function.update d.pool addr none, dying := d.dying ++ [addr] }

variable [DecidableEq W]

namespace State

variable (s : State W) (sender : Sender)

def put (w : W) (d : Desk) (es : List (Event W)) : State W :=
  { s with desk := Function.update s.desk w d, trace := s.trace ++ es }

def message : UserMessage :=
  ⟨sender, s.serial⟩

def accept (dest : ActorAddress) : State W :=
  { s with serial := s.serial + 1, trace := s.trace ++ [.accepted dest (s.message sender)] }

def letter (dest : ActorAddress) : Envelope :=
  ⟨dest, .user (s.message sender)⟩

def sendTransfer (w : W) (e : Envelope) : State W :=
  s.put w { s.desk w with transfer := (s.desk w).transfer ++ [e] } []

def sendPending (w : W) (e : Envelope) : State W :=
  s.put w { s.desk w with pending := (s.desk w).pending ++ [e] } []

end State

/-- One step of the specification. A send to a transfer queue comes from outside the
worker that owns the queue, a send to `pending` from one of its own actors. -/
inductive Step (budget : ℕ) (gate : Gate) : State W → State W → Prop
  | desk {s : State W} (w : W) {es : List (Event W)} {d : Desk}
      (h : DeskStep budget gate (fun addr => s.route addr = some w) w (s.desk w) es d) :
      Step budget gate s (s.put w d es)
  | spawn {s : State W} (w : W) (addr : ActorAddress) (hfresh : ∀ v, .spawned addr v ∉ s.trace) :
      Step budget gate s { s.put w { s.desk w with spawns := (s.desk w).spawns ++ [addr] }
        [.spawned addr w] with route := Function.update s.route addr (some w) }
  | unmap {s : State W} (w : W) {addr : ActorAddress} {rest : List ActorAddress}
      (hdying : (s.desk w).dying = addr :: rest) :
      Step budget gate s { s.put w { s.desk w with dying := rest } [] with
        route := Function.update s.route addr none }
  | post {s : State W} (w : W) (sender : Sender) {dest : ActorAddress}
      (hroute : s.route dest = some w)
      (hsender : ∀ a, sender = .actor a → ∃ v, v ≠ w ∧ .spawned a v ∈ s.trace) :
      Step budget gate s ((s.accept sender dest).sendTransfer w (s.letter sender dest))
  | stage {s : State W} (w : W) {sender dest : ActorAddress} (hroute : s.route dest = some w)
      (hsender : .spawned sender w ∈ s.trace) :
      Step budget gate s
        ((s.accept (.actor sender) dest).sendPending w (s.letter (.actor sender) dest))
  | signalTransfer {s : State W} (w : W) {e : Envelope} (he : control e.payload = true) :
      Step budget gate s (s.sendTransfer w e)
  | signalPending {s : State W} (w : W) {e : Envelope} (he : control e.payload = true) :
      Step budget gate s (s.sendPending w e)
  | inject {s : State W} (w : W) {dest : ActorAddress} {x : Slot}
      (hx : (s.desk w).pool dest = some x) :
      Step budget gate s ((s.accept .runtime dest).put w
        ((s.desk w).setSlot dest { x with
          mailbox := x.mailbox ++ [.user (s.message .runtime)] })
        [.arrived dest (s.message .runtime)])

end Steps

end Spec

end Swactor.Runtime
