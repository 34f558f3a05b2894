import Swactor.Runtime.Worker
import Swactor.Lib.Machine

/-!
# The runtime: workers, handles and the address map

The state of a runtime with `n` workers is the shared address map, the queues and
pools of the workers and the censuses that admin requests have opened. A step is
one action: a call on an external handle, one piece of a worker's pass, one effect
of a running callback. Any two pieces of different workers may be interleaved, and
handlers, extensions and external callers are arbitrary, so a run is an arbitrary
list of actions. An action that is not possible in a state leaves it as it is.

A queue operation together with the address-map lookup before it is one step. New
actor addresses are drawn at random from `2 ^ 256`; the model lets a spawn happen
only at an address that was not used before.
-/
namespace Swactor.Runtime

open Std (ExtTreeMap)

structure Census where
  remaining : ℕ
  replyTo : ActorAddress
deriving DecidableEq, Repr

/-- `nextSerial` and `trace` are ghosts: the number of accepted sends and all events. -/
structure System (n : ℕ) where
  addressMap : ExtTreeMap ActorAddress (Fin n) compare := {}
  rrWorker : ℕ := 0
  workers : Fin n → Worker := fun _ => {}
  censuses : List (Option Census) := []
  nextSerial : ℕ := 0
  trace : List (Event (Fin n)) := []

/-- What a callback may do through its context before it returns. A stop signal may
carry an exit value. -/
inductive Effect
  | send (dest : ActorAddress)
  | stopActor (dest : ActorAddress) (exit : Option ExitValue)
  | spawn (addr : ActorAddress)
  | requestStop (addr : ActorAddress)
  | requestStopWith (addr : ActorAddress) (value : ExitValue)
  | requestSuspend (addr : ActorAddress)
  | requestResume (addr : ActorAddress)
deriving DecidableEq, Repr

inductive Action (n : ℕ)
  | spawn (addr : ActorAddress)
  | sendTo (handle : ℕ) (dest : ActorAddress)
  | stopActor (dest : ActorAddress) (exit : Option ExitValue)
  | admin (cmd : AdminCommand)
  | listActors (replyTo : ActorAddress)
  | dropListActorsRequest (acc : ℕ)
  | beginPass (w : Fin n) (extPending : Bool)
  | advance (w : Fin n)
  | inject (w : Fin n) (dest : ActorAddress)
  | visit (w : Fin n) (addr : ActorAddress)
  | effect (w : Fin n) (eff : Effect)
  | callbackReturned (w : Fin n) (panicked : Bool)
  | receive (w : Fin n) (typed : Bool)
  | reap (w : Fin n) (addr : ActorAddress)
deriving DecidableEq, Repr

def stopPayload : Option ExitValue → Payload
  | none => .stop
  | some value => .stopWith value

namespace System

variable {n : ℕ}

section

variable (s : System n) (w : Fin n)

def workerOf (addr : ActorAddress) : Option (Fin n) :=
  s.addressMap[addr]?

def here (addr : ActorAddress) : Bool :=
  s.workerOf addr = some w

/-- No actor was ever spawned at this address. -/
def fresh (addr : ActorAddress) : Bool :=
  s.trace.all fun
    | .spawned addr' _ => addr' ≠ addr
    | _ => true

def setWorker (wk : Worker) (events : List (Event (Fin n))) : System n :=
  { s with workers := Function.update s.workers w wk, trace := s.trace ++ events }

/-- `transfer_tx(w).send(envelope)`. -/
def transfer (envelope : Envelope) : System n :=
  s.setWorker w
    { s.workers w with transferRx := (s.workers w).transferRx ++ [envelope] } []

/-- `pending_local.push(..)`. -/
def stage (envelope : Envelope) : System n :=
  s.setWorker w
    { s.workers w with pendingLocal := (s.workers w).pendingLocal ++ [envelope] } []

/-- A send of a user message to a local actor is accepted. -/
def accept (sender : Sender) (dest : ActorAddress) : System n :=
  { s with
    nextSerial := s.nextSerial + 1
    trace := s.trace ++ [.accepted dest ⟨sender, s.nextSerial⟩] }

def nextMessage (sender : Sender) : Payload :=
  .user ⟨sender, s.nextSerial⟩

/-- `spawn_any`, and `Runtime::spawn` once the worker is chosen. -/
def spawnOn (req : SpawnRequest) : System n :=
  if s.fresh req.addr then
    { s.setWorker w { s.workers w with spawnRx := (s.workers w).spawnRx ++ [req] }
        [.spawned req.addr w] with
      addressMap := s.addressMap.insert req.addr w }
  else s

/-- `Runtime::spawn`: round-robin over the workers. -/
def spawn [NeZero n] (s : System n) (addr : ActorAddress) : System n :=
  { s with rrWorker := wrappingAdd s.rrWorker 1 }.spawnOn (Fin.ofNat n s.rrWorker) ⟨addr, none⟩

/-- `Runtime::send_to`, `ExternalSender::send_to` and `deliver_raw`. An address that is
not in the address map is left to the inboxes and the transport. -/
def sendTo (handle : ℕ) (dest : ActorAddress) : System n :=
  match s.workerOf dest with
  | some w =>
      (s.accept (.external handle) dest).transfer w ⟨dest, s.nextMessage (.external handle)⟩
  | none => s

/-- `Runtime::stop_actor`, or a stop signal sent with `send_to`. -/
def stopActor (dest : ActorAddress) (exit : Option ExitValue) : System n :=
  match s.workerOf dest with
  | some w => s.transfer w ⟨dest, stopPayload exit⟩
  | none => s

/-- The targeted calls of `RuntimeAdmin`. -/
def admin (cmd : AdminCommand) : System n :=
  match (Worker.adminTarget cmd).bind s.workerOf with
  | some w => s.setWorker w { s.workers w with adminRx := (s.workers w).adminRx ++ [cmd] } []
  | none => s

/-- `start_actor_census`: every worker is asked, the last one to answer replies. -/
def listActors (s : System n) (replyTo : ActorAddress) : System n :=
  { s with
    censuses := s.censuses ++ [some ⟨n, replyTo⟩]
    workers := fun w => { s.workers w with
      adminRx := (s.workers w).adminRx ++ [.listActors s.censuses.length] } }

/-- A message from the runtime to a transfer queue. -/
def notifyWorker (dest : ActorAddress) : System n :=
  match s.workerOf dest with
  | some w => (s.accept .runtime dest).transfer w ⟨dest, s.nextMessage .runtime⟩
  | none => s

/-- The `ListActors` case of `apply_admin_command`. A request that was dropped has no
census any more. -/
def answerCensus (acc : ℕ) : System n :=
  match s.censuses[acc]? with
  | some (some census) =>
      if census.remaining - 1 = 0 then
        { s with censuses := s.censuses.set acc none }.notifyWorker census.replyTo
      else
        { s with censuses :=
            s.censuses.set acc (some { census with remaining := census.remaining - 1 }) }
  | _ => s

/-- `route_runtime_message`. -/
def routeRuntimeMessage (dest : ActorAddress) : System n :=
  if dest ∈ (s.workers w).pool then
    let (pool, events, _) := (s.workers w).pool.deliver dest (s.nextMessage .runtime)
    (s.accept .runtime dest).setWorker w { s.workers w with pool := pool } events
  else s.notifyWorker dest

/-- `WorkerContext::send_any` for a callback of `sender` that runs on worker `w`. -/
def sendAny (sender dest : ActorAddress) : System n :=
  match s.workerOf dest with
  | some v =>
      let envelope := ⟨dest, s.nextMessage (.actor sender)⟩
      let accepted := s.accept (.actor sender) dest
      if v = w then accepted.stage w envelope else accepted.transfer v envelope
  | none => s

def sendStop (dest : ActorAddress) (exit : Option ExitValue) : System n :=
  match s.workerOf dest with
  | some v =>
      if v = w then s.stage w ⟨dest, stopPayload exit⟩ else s.transfer v ⟨dest, stopPayload exit⟩
  | none => s

def post (f : Requests → Requests) : System n :=
  s.setWorker w { s.workers w with requests := f (s.workers w).requests } []

/-- One effect of the callback of `addr` that is running on worker `w`. -/
def perform (addr : ActorAddress) : Effect → System n
  | .send dest => s.sendAny w addr dest
  | .stopActor dest exit => s.sendStop w dest exit
  | .spawn child => s.spawnOn w ⟨child, some addr⟩
  | .requestStop target => s.post w fun r => { r with stops := r.stops ++ [target] }
  | .requestStopWith target value =>
      s.post w fun r => { r with stopWiths := r.stopWiths ++ [(target, value)] }
  | .requestSuspend target => s.post w fun r => { r with suspends := r.suspends ++ [target] }
  | .requestResume target => s.stage w ⟨target, .resume⟩

def applyOutcome (out : Outcome (Fin n)) : System n :=
  let s' := s.setWorker w out.worker out.events
  match out.census with
  | some acc => s'.answerCensus acc
  | none => s'

end

/-- The next piece of the pass of worker `w`, where it leaves nothing to the environment. -/
def advance (cfg : RuntimeConfig) (s : System n) (w : Fin n) : System n :=
  match (s.workers w).phase with
  | .unmap (addr :: todo) dead =>
      { s.setWorker w { s.workers w with phase := .unmap todo dead } [] with
        addressMap := s.addressMap.erase addr }
  | _ => s.applyOutcome w ((s.workers w).advance cfg (s.here w))

def step [NeZero n] (cfg : RuntimeConfig) (s : System n) : Action n → System n
  | .spawn addr => s.spawn addr
  | .sendTo handle dest => s.sendTo handle dest
  | .stopActor dest exit => s.stopActor dest exit
  | .admin cmd => s.admin cmd
  | .listActors replyTo => s.listActors replyTo
  | .dropListActorsRequest acc => { s with censuses := s.censuses.set acc none }
  | .beginPass w extPending => s.setWorker w ((s.workers w).beginPass extPending) []
  | .advance w => s.advance cfg w
  | .inject w dest =>
      match (s.workers w).phase with
      | .extensionTick =>
          s.setWorker w { s.workers w with didWork := true } [] |>.routeRuntimeMessage w dest
      | .notify _ => s.routeRuntimeMessage w dest
      | _ => s
  | .visit w addr =>
      match (s.workers w).phase with
      | .tickAll visited =>
          let (wk, events) := (s.workers w).visit visited addr
          s.setWorker w wk events
      | _ => s
  | .effect w eff =>
      match (s.workers w).phase.running with
      | some addr => s.perform w addr eff
      | none => s
  | .callbackReturned w panicked =>
      match (s.workers w).phase with
      | .onStart visited addr =>
          let (wk, events) := (s.workers w).startReturned visited addr panicked
          s.setWorker w wk events
      | .handle visited addr count =>
          let (wk, events) := (s.workers w).handleReturned visited addr count panicked
          s.setWorker w wk events
      | .onStop dead _ => s.setWorker w { s.workers w with phase := .cleanup dead } []
      | _ => s
  | .receive w typed =>
      match (s.workers w).phase with
      | .mailbox visited addr count =>
          let (wk, events) := (s.workers w).receive visited addr count typed
          s.setWorker w wk events
      | _ => s
  | .reap w addr =>
      match (s.workers w).phase with
      | .cleanup dead =>
          let (wk, events) := (s.workers w).reap w dead addr
          s.setWorker w wk events
      | _ => s

/-- `RuntimeParts::new`. -/
def new : System n := {}

/-- The state after a run of a new runtime. -/
def run [NeZero n] (cfg : RuntimeConfig) (actions : List (Action n)) : System n :=
  actions.foldl (step cfg) new

end System

end Swactor.Runtime
