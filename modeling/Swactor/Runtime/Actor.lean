import Swactor.Types

/-!
# Messages, actor slots and the actor pool

A worker keeps one slot per installed actor: its mailbox and the flags that
decide which callbacks it may still get. Payloads are type-erased boxes of which
the runtime only recognises its own control signals. A user message is known here
by its sender and by the serial number under which its send was accepted, so that
it can be followed through the queues.

What the outside can observe is written as a list of events: accepted sends,
arrivals in a mailbox, callbacks, flags that were raised, discarded messages. The
events are ghosts of the model. No function below reads them.
-/
namespace Swactor.Runtime

open Std (ExtTreeMap)

/-- Who made a send: an actor through its context, an external handle, or the
runtime itself for extension output, death notifications and census replies. -/
inductive Sender
  | actor (addr : ActorAddress)
  | external (handle : ℕ)
  | runtime
deriving DecidableEq, Repr

structure UserMessage where
  sender : Sender
  serial : ℕ
deriving DecidableEq, Repr

/-- A boxed exit value, which the runtime only passes on. -/
structure ExitValue where
  token : ℕ
deriving DecidableEq, Repr

/-- `Box<dyn Any + Send>`: a user message or one of the control signals. -/
inductive Payload
  | user (message : UserMessage)
  | stop
  | stopWith (value : ExitValue)
  | resume
deriving DecidableEq, Repr

structure Envelope where
  dest : ActorAddress
  payload : Payload
deriving DecidableEq, Repr

structure SpawnRequest where
  addr : ActorAddress
  parent : Option ActorAddress
deriving DecidableEq, Repr

/-- What marked an actor as stopping: its own request, a stop signal taken from its
mailbox, a stop signal intercepted at delivery, or an admin command. -/
inductive StopCause
  | requested
  | signalled
  | intercepted
  | admin
deriving DecidableEq, Repr

inductive Event (W : Type)
  | spawned (addr : ActorAddress) (worker : W)
  | accepted (dest : ActorAddress) (message : UserMessage)
  | arrived (dest : ActorAddress) (message : UserMessage)
  | mismatched (dest : ActorAddress) (payload : Payload)
  | discarded (dest : ActorAddress) (message : UserMessage)
  | startCalled (addr : ActorAddress)
  | handleCalled (addr : ActorAddress) (payload : Payload)
  | stopCalled (addr : ActorAddress)
  | poisoned (addr : ActorAddress)
  | stopping (addr : ActorAddress) (cause : StopCause)
  | removed (addr : ActorAddress) (worker : W)
deriving DecidableEq, Repr

section Slot

variable {W : Type}

/-- The user messages among the payloads of one mailbox, dropped together. -/
def discards (addr : ActorAddress) (payloads : List Payload) : List (Event W) :=
  payloads.filterMap fun
    | .user message => some (.discarded addr message)
    | _ => none

theorem eq_discarded_of_mem {addr : ActorAddress} {payloads : List Payload} {e : Event W}
    (he : e ∈ discards addr payloads) : ∃ message, e = .discarded addr message := by
  obtain ⟨p, -, hp⟩ := List.mem_filterMap.mp he
  cases p with
  | user message => exact ⟨message, (Option.some.inj hp).symm⟩
  | stop | stopWith | resume => cases hp

theorem filterMap_discards {β : Type} {f : Event W → Option β}
    (h : ∀ addr message, f (.discarded addr message) = none) (addr : ActorAddress)
    (payloads : List Payload) : (discards addr payloads).filterMap f = [] := by
  refine List.filterMap_eq_nil_iff.mpr fun e he => ?_
  obtain ⟨message, rfl⟩ := eq_discarded_of_mem he
  exact h addr message

def arrivals (addr : ActorAddress) : Payload → List (Event W)
  | .user message => [.arrived addr message]
  | _ => []

structure ActorSlot where
  mailbox : List Payload := []
  poisoned : Bool := false
  stopping : Bool := false
  started : Bool := false
  suspended : Bool := false
  messagesProcessed : ℕ := 0
  mailboxMaxDepth : ℕ := 0
  parentAddr : Option ActorAddress := none
  exitValue : Option ExitValue := none
deriving DecidableEq, Repr

def shouldSkipActor (poisoned stopping suspended : Bool) : Bool :=
  poisoned || stopping || suspended

def isOnStopEligible (stopping poisoned : Bool) : Bool :=
  stopping && !poisoned

inductive StopReason
  | panicked
  | completed
  | normal
deriving DecidableEq, Repr

def determineStopReason (poisoned hasExitValue : Bool) : StopReason :=
  if poisoned then .panicked else if hasExitValue then .completed else .normal

namespace ActorSlot

/-- Mark the slot as stopping and clear its mailbox. An exit value given with the
stop replaces the one in the slot. -/
def halt (slot : ActorSlot) (exit : Option ExitValue) : ActorSlot :=
  { slot with stopping := true, mailbox := [], exitValue := exit.or slot.exitValue }

/-- A callback panicked. -/
def poison (slot : ActorSlot) : ActorSlot :=
  { slot with poisoned := true, mailbox := [] }

def dead (slot : ActorSlot) : Bool :=
  slot.poisoned || slot.stopping

/-- The body of `ActorPool::deliver` for an existing slot. A suspended actor is not
ticked, so its control signals take effect here. -/
def deliver (addr : ActorAddress) (slot : ActorSlot) (msg : Payload) :
    ActorSlot × List (Event W) :=
  match slot.suspended, msg with
  | true, .resume => ({ slot with suspended := false }, [])
  | true, .stop => (slot.halt none, .stopping addr .intercepted :: discards addr slot.mailbox)
  | true, .stopWith value =>
      (slot.halt (some value), .stopping addr .intercepted :: discards addr slot.mailbox)
  | _, _ =>
      ({ slot with
          mailbox := slot.mailbox ++ [msg]
          mailboxMaxDepth := max slot.mailboxMaxDepth (slot.mailbox.length + 1) },
        arrivals addr msg)

end ActorSlot

/-- `AddrMap<ActorSlot>`. -/
abbrev ActorPool := ExtTreeMap ActorAddress ActorSlot compare

namespace ActorPool

variable (pool : ActorPool) (addr : ActorAddress)

def install (req : SpawnRequest) : ActorPool :=
  pool.insert req.addr { parentAddr := req.parent }

/-- `ActorPool::deliver`. The flag says whether the actor exists. -/
def deliver (pool : ActorPool) (addr : ActorAddress) (msg : Payload) :
    ActorPool × List (Event W) × Bool :=
  match pool[addr]? with
  | some slot =>
      let (slot', events) := slot.deliver addr msg
      (pool.insert addr slot', events, true)
  | none => (pool, [], false)

def suspendActorAdmin : ActorPool :=
  pool.modify addr fun slot => { slot with suspended := true }

def resumeActorAdmin : ActorPool :=
  pool.modify addr fun slot => { slot with suspended := false }

def stopActorAdmin : ActorPool × List (Event W) :=
  match pool[addr]? with
  | some slot =>
      (pool.insert addr (slot.halt none), .stopping addr .admin :: discards addr slot.mailbox)
  | none => (pool, [])

end ActorPool

end Slot

/-- `Vec::swap_remove`: the last element takes the place of the removed one. -/
def swapRemove {α : Type} (xs : List α) (i : ℕ) : List α :=
  match xs.getLast? with
  | some x => (xs.set i x).dropLast
  | none => xs

/-- The requests that the callbacks of one pass have posted. -/
structure Requests where
  stops : List ActorAddress := []
  stopWiths : List (ActorAddress × ExitValue) := []
  suspends : List ActorAddress := []
deriving DecidableEq, Repr

inductive Verdict
  | stop (exit : Option ExitValue) (rest : Requests)
  | suspend
  | proceed
deriving DecidableEq, Repr

/-- What the requests posted so far mean for the actor whose callback has just
returned. A plain stop and a stop with a value act alike; the value is consumed. -/
def Requests.verdict (requests : Requests) (addr : ActorAddress) : Verdict :=
  match requests.stopWiths.findIdx? (·.1 = addr) with
  | some i =>
      .stop (requests.stopWiths[i]?.map Prod.snd)
        { requests with stopWiths := swapRemove requests.stopWiths i }
  | none =>
      if addr ∈ requests.stops then .stop none requests
      else if addr ∈ requests.suspends then .suspend
      else .proceed

end Swactor.Runtime
