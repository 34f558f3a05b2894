import Swactor.Runtime.Actor

/-!
# One worker and its pass

`Worker::try_tick` is cut at every loop iteration and around every callback, so
that other workers and external handles may act in between. The phase of a worker
is its position in the pass, with the loop counters and the local variables of
that position. Each definition below is one such piece of the pass. It returns the
worker, the events it produced and what it does to the state shared by all workers.

The pool is a hash map. The order in which `tick_all` and `cleanup_dead` walk it is
left to the environment, which picks the next actor. `pending_local` and
`cleanup_pending` live one after the other, and the field `pendingLocal` stands for
both.
-/
namespace Swactor.Runtime

structure RuntimeConfig where
  workerIngressBudget : ℕ
  actorMessageBudget : ℕ
deriving DecidableEq, Repr

/-- `budget == 0 || count < budget`: a budget of zero is unlimited. -/
def withinBudget (budget count : ℕ) : Bool :=
  budget = 0 || count < budget

inductive AdminCommand
  | listActors (acc : ℕ)
  | inspectActor (actor : ActorAddress)
  | getActorState (actor : ActorAddress)
  | replaceActorState (actor : ActorAddress)
  | stopActor (actor : ActorAddress)
  | suspendActor (actor : ActorAddress)
  | resumeActor (actor : ActorAddress)
deriving DecidableEq, Repr

structure DeadActor where
  addr : ActorAddress
  reason : StopReason
  exitValue : Option ExitValue
deriving DecidableEq, Repr

/-- The entry of `cleanup_dead`'s result for a removed slot. -/
def DeadActor.of (addr : ActorAddress) (slot : ActorSlot) : DeadActor :=
  ⟨addr, determineStopReason slot.poisoned slot.exitValue.isSome, slot.exitValue⟩

/-- Where a worker stands in its pass. -/
inductive Phase
  | idle
  | drainSpawns (again : Bool) (count : ℕ)
  | drainDeferred (count : ℕ)
  | drainTransfers (count : ℕ)
  | drainDeferredAdmin (count : ℕ)
  | drainAdmin (count : ℕ)
  | extensionTick
  | tickAll (visited : List ActorAddress)
  | onStart (visited : List ActorAddress) (addr : ActorAddress)
  | mailbox (visited : List ActorAddress) (addr : ActorAddress) (count : ℕ)
  | handle (visited : List ActorAddress) (addr : ActorAddress) (count : ℕ)
  | afterHandle (visited : List ActorAddress) (addr : ActorAddress) (count : ℕ)
  | deliverPending
  | cleanup (dead : List DeadActor)
  | onStop (dead : List DeadActor) (addr : ActorAddress)
  | unmap (todo : List ActorAddress) (dead : List DeadActor)
  | notify (dead : List DeadActor)
  | cleanupPending
deriving DecidableEq, Repr

/-- The actor whose callback is running. -/
def Phase.running : Phase → Option ActorAddress
  | .onStart _ addr => some addr
  | .handle _ addr _ => some addr
  | .onStop _ addr => some addr
  | _ => none

structure Worker where
  pool : ActorPool := {}
  transferRx : List Envelope := []
  spawnRx : List SpawnRequest := []
  adminRx : List AdminCommand := []
  hasBacklog : Bool := false
  deferredTransfers : List Envelope := []
  deferredAdmin : List AdminCommand := []
  pendingLocal : List Envelope := []
  requests : Requests := {}
  didWork : Bool := false
  phase : Phase := .idle

/-- What a piece of a pass did: the worker after it, its events and a census that it
answered. -/
structure Outcome (W : Type) where
  worker : Worker
  events : List (Event W) := []
  census : Option ℕ := none

namespace Worker

variable {W : Type}

section

variable (wk : Worker) (visited : List ActorAddress)

/-- `extPending` is `WorkerExtension::has_pending_work`. -/
def hasWork (extPending : Bool) : Bool :=
  wk.hasBacklog || !wk.spawnRx.isEmpty || !wk.transferRx.isEmpty ||
    !wk.deferredTransfers.isEmpty || !wk.adminRx.isEmpty || !wk.deferredAdmin.isEmpty ||
    extPending

/-- The start of `try_tick`. -/
def beginPass (extPending : Bool) : Worker :=
  if wk.phase = .idle ∧ wk.hasWork extPending then
    { wk with phase := .drainSpawns false 0, didWork := false }
  else wk

/-- One iteration of `drain_spawns`, which runs before and after `tick_all`. -/
def drainSpawns (cfg : RuntimeConfig) (wk : Worker) (again : Bool) (count : ℕ) : Worker :=
  let next : Phase := if again then .deliverPending else .drainDeferred 0
  if withinBudget cfg.workerIngressBudget count then
    match wk.spawnRx with
    | [] => { wk with phase := next }
    | req :: rest =>
        { wk with
          pool := wk.pool.install req
          spawnRx := rest
          didWork := true
          phase := .drainSpawns again (count + 1) }
  else { wk with phase := next }

/-- `here` says whether the address map assigns an address to this worker. -/
def deliverOrDeferTransfer (here : ActorAddress → Bool) (wk : Worker) (envelope : Envelope) :
    Worker × List (Event W) × Bool :=
  if envelope.dest ∈ wk.pool then
    let (pool, events, _) := wk.pool.deliver envelope.dest envelope.payload
    ({ wk with pool := pool }, events, true)
  else if here envelope.dest then
    ({ wk with deferredTransfers := wk.deferredTransfers ++ [envelope] }, [], false)
  else (wk, discards envelope.dest [envelope.payload], true)

/-- One iteration of the first loop of `drain_transfers`, over the retained
envelopes. -/
def drainDeferred (cfg : RuntimeConfig) (here : ActorAddress → Bool) (wk : Worker)
    (count : ℕ) : Outcome W :=
  if withinBudget cfg.workerIngressBudget count then
    match wk.deferredTransfers with
    | [] => { worker := { wk with phase := .drainTransfers count } }
    | envelope :: rest =>
        let (wk', events, delivered) :=
          deliverOrDeferTransfer here { wk with deferredTransfers := rest } envelope
        { worker := { wk' with
            didWork := wk.didWork || delivered
            phase := .drainDeferred (count + 1) }
          events := events }
  else { worker := { wk with phase := .drainTransfers count } }

/-- One iteration of the second loop of `drain_transfers`, over the transfer queue. -/
def drainTransfers (cfg : RuntimeConfig) (here : ActorAddress → Bool) (wk : Worker)
    (count : ℕ) : Outcome W :=
  if withinBudget cfg.workerIngressBudget count then
    match wk.transferRx with
    | [] => { worker := { wk with phase := .drainDeferredAdmin 0 } }
    | envelope :: rest =>
        let (wk', events, _) := deliverOrDeferTransfer here { wk with transferRx := rest } envelope
        { worker := { wk' with didWork := true, phase := .drainTransfers (count + 1) }
          events := events }
  else { worker := { wk with phase := .drainDeferredAdmin 0 } }

def adminTarget : AdminCommand → Option ActorAddress
  | .listActors _ => none
  | .inspectActor actor => some actor
  | .getActorState actor => some actor
  | .replaceActorState actor => some actor
  | .stopActor actor => some actor
  | .suspendActor actor => some actor
  | .resumeActor actor => some actor

def shouldDeferAdminCommand (here : ActorAddress → Bool) (wk : Worker) (cmd : AdminCommand) :
    Bool :=
  (adminTarget cmd).any fun actor => actor ∉ wk.pool && here actor

/-- `apply_admin_command` on the pool. Inspection and state access leave every slot's
mailbox and flags alone; the actor's own state is not modelled. -/
def applyAdminCommand (pool : ActorPool) : AdminCommand → ActorPool × List (Event W)
  | .stopActor actor => pool.stopActorAdmin actor
  | .suspendActor actor => (pool.suspendActorAdmin actor, [])
  | .resumeActor actor => (pool.resumeActorAdmin actor, [])
  | .listActors _ => (pool, [])
  | .inspectActor _ => (pool, [])
  | .getActorState _ => (pool, [])
  | .replaceActorState _ => (pool, [])

def censusOf : AdminCommand → Option ℕ
  | .listActors acc => some acc
  | _ => none

def applyOrDeferAdminCommand (here : ActorAddress → Bool) (wk : Worker) (cmd : AdminCommand) :
    Outcome W × Bool :=
  if shouldDeferAdminCommand here wk cmd then
    ({ worker := { wk with deferredAdmin := wk.deferredAdmin ++ [cmd] } }, false)
  else
    let (pool, events) := applyAdminCommand wk.pool cmd
    ({ worker := { wk with pool := pool }, events := events, census := censusOf cmd }, true)

/-- One iteration of the first loop of `drain_admin`. -/
def drainDeferredAdmin (cfg : RuntimeConfig) (here : ActorAddress → Bool) (wk : Worker)
    (count : ℕ) : Outcome W :=
  if withinBudget cfg.workerIngressBudget count then
    match wk.deferredAdmin with
    | [] => { worker := { wk with phase := .drainAdmin count } }
    | cmd :: rest =>
        let (out, applied) := applyOrDeferAdminCommand here { wk with deferredAdmin := rest } cmd
        { out with worker := { out.worker with
            didWork := wk.didWork || applied
            phase := .drainDeferredAdmin (count + 1) } }
  else { worker := { wk with phase := .drainAdmin count } }

/-- One iteration of the second loop of `drain_admin`. -/
def drainAdmin (cfg : RuntimeConfig) (here : ActorAddress → Bool) (wk : Worker)
    (count : ℕ) : Outcome W :=
  if withinBudget cfg.workerIngressBudget count then
    match wk.adminRx with
    | [] => { worker := { wk with phase := .extensionTick } }
    | cmd :: rest =>
        let (out, _) := applyOrDeferAdminCommand here { wk with adminRx := rest } cmd
        { out with worker := { out.worker with
            didWork := true
            phase := .drainAdmin (count + 1) } }
  else { worker := { wk with phase := .extensionTick } }

/-- `tick_all` reaches the next actor of its iteration. -/
def visit (addr : ActorAddress) : Worker × List (Event W) :=
  match wk.pool[addr]? with
  | none => (wk, [])
  | some slot =>
      if addr ∈ visited then (wk, [])
      else if shouldSkipActor slot.poisoned slot.stopping slot.suspended then
        if slot.dead then
          ({ wk with
              pool := wk.pool.insert addr { slot with mailbox := [] }
              phase := .tickAll (addr :: visited) },
            discards addr slot.mailbox)
        else ({ wk with phase := .tickAll (addr :: visited) }, [])
      else if slot.started then ({ wk with phase := .mailbox visited addr 0 }, [])
      else ({ wk with phase := .onStart visited addr }, [.startCalled addr])

/-- `tick_all` checks what the callback that has just returned asked for. -/
def settleRequests (addr : ActorAddress) (slot : ActorSlot) (next : Phase) :
    Worker × List (Event W) :=
  match wk.requests.verdict addr with
  | .stop exit rest =>
      ({ wk with
          pool := wk.pool.insert addr (slot.halt exit)
          requests := rest
          phase := .tickAll (addr :: visited) },
        .stopping addr .requested :: discards addr slot.mailbox)
  | .suspend =>
      ({ wk with
          pool := wk.pool.insert addr { slot with suspended := true }
          phase := .tickAll (addr :: visited) }, [])
  | .proceed => ({ wk with pool := wk.pool.insert addr slot, phase := next }, [])

/-- The callback running in `tick_all` panicked. -/
def poisonActor (addr : ActorAddress) (slot : ActorSlot) : Worker × List (Event W) :=
  ({ wk with
      pool := wk.pool.insert addr slot.poison
      phase := .tickAll (addr :: visited) },
    .poisoned addr :: discards addr slot.mailbox)

/-- `on_start` returned or panicked. -/
def startReturned (addr : ActorAddress) (panicked : Bool) : Worker × List (Event W) :=
  match wk.pool[addr]? with
  | none => (wk, [])
  | some slot =>
      let slot' := { slot with started := true }
      if panicked then wk.poisonActor visited addr slot'
      else wk.settleRequests visited addr slot' (.mailbox visited addr 0)

/-- The head of the mailbox loop. `typed` says whether `handle_any` can downcast the
message it is given. -/
def receive (addr : ActorAddress) (count : ℕ) (typed : Bool) : Worker × List (Event W) :=
  match wk.pool[addr]? with
  | none => (wk, [])
  | some slot =>
      match slot.mailbox with
      | [] => ({ wk with phase := .tickAll (addr :: visited) }, [])
      | .stop :: rest =>
          ({ wk with
              pool := wk.pool.insert addr (slot.halt none)
              phase := .tickAll (addr :: visited) },
            .stopping addr .signalled :: discards addr rest)
      | .stopWith value :: rest =>
          ({ wk with
              pool := wk.pool.insert addr (slot.halt (some value))
              phase := .tickAll (addr :: visited) },
            .stopping addr .signalled :: discards addr rest)
      | msg :: rest =>
          let pool := wk.pool.insert addr { slot with mailbox := rest }
          if typed then
            ({ wk with pool := pool, phase := .handle visited addr count },
              [.handleCalled addr msg])
          else
            ({ wk with pool := pool, phase := .afterHandle visited addr count },
              [.mismatched addr msg])

/-- `handle` returned or panicked. -/
def handleReturned (addr : ActorAddress) (count : ℕ) (panicked : Bool) : Worker × List (Event W) :=
  match wk.pool[addr]? with
  | none => (wk, [])
  | some slot =>
      if panicked then wk.poisonActor visited addr slot
      else
        ({ wk with
            pool := wk.pool.insert addr
              { slot with messagesProcessed := slot.messagesProcessed + 1 }
            phase := .afterHandle visited addr count }, [])

end

/-- The tail of the mailbox loop. -/
def afterHandle (cfg : RuntimeConfig) (wk : Worker) (visited : List ActorAddress)
    (addr : ActorAddress) (count : ℕ) : Worker × List (Event W) :=
  match wk.pool[addr]? with
  | none => (wk, [])
  | some slot =>
      { wk with didWork := true }.settleRequests visited addr slot
        (if withinBudget cfg.actorMessageBudget (count + 1) then .mailbox visited addr (count + 1)
        else .tickAll (addr :: visited))

/-- One iteration over `pending_local`, which is work, or over the messages that `on_stop`
sent, which is not counted. -/
def drainPending (here : ActorAddress → Bool) (wk : Worker) (counted : Bool) (next : Worker) :
    Outcome W :=
  match wk.pendingLocal with
  | [] => { worker := next }
  | envelope :: rest =>
      let (wk', events, _) := deliverOrDeferTransfer here { wk with pendingLocal := rest } envelope
      { worker := { wk' with didWork := wk.didWork || counted }, events := events }

/-- `cleanup_dead` removes the next dead actor and starts its `on_stop`. -/
def reap (self : W) (wk : Worker) (dead : List DeadActor) (addr : ActorAddress) :
    Worker × List (Event W) :=
  match wk.pool[addr]? with
  | none => (wk, [])
  | some slot =>
      if slot.dead then
        let dead' := dead ++ [.of addr slot]
        let eligible := isOnStopEligible slot.stopping slot.poisoned
        ({ wk with
            pool := wk.pool.erase addr
            phase := if eligible then .onStop dead' addr else .cleanup dead' },
          .removed addr self :: discards addr slot.mailbox ++
            if eligible then [.stopCalled addr] else [])
      else (wk, [])

/-- The pieces of a pass that leave nothing to the environment. Removing an address from
the shared address map is left to the runtime. -/
def advance (cfg : RuntimeConfig) (here : ActorAddress → Bool) (wk : Worker) : Outcome W :=
  match wk.phase with
  | .drainSpawns again count => { worker := wk.drainSpawns cfg again count }
  | .drainDeferred count => wk.drainDeferred cfg here count
  | .drainTransfers count => wk.drainTransfers cfg here count
  | .drainDeferredAdmin count => wk.drainDeferredAdmin cfg here count
  | .drainAdmin count => wk.drainAdmin cfg here count
  | .extensionTick => { worker := { wk with phase := .tickAll [], requests := {} } }
  | .tickAll visited =>
      if wk.pool.keys.all (· ∈ visited) then
        { worker := { wk with phase := .drainSpawns true 0 } }
      else { worker := wk }
  | .afterHandle visited addr count =>
      let (wk', events) := wk.afterHandle cfg visited addr count
      { worker := wk', events := events }
  | .deliverPending => wk.drainPending here true { wk with phase := .cleanup [], requests := {} }
  | .cleanup dead =>
      if wk.pool.toList.all (fun entry => !entry.2.dead) then
        if dead.isEmpty then { worker := { wk with phase := .cleanupPending } }
        else
          { worker := { wk with phase := .unmap (dead.map DeadActor.addr) dead, didWork := true } }
      else { worker := wk }
  | .unmap [] dead => { worker := { wk with phase := .notify dead } }
  | .notify _ => { worker := { wk with phase := .cleanupPending } }
  | .cleanupPending =>
      wk.drainPending here false { wk with phase := .idle, hasBacklog := wk.didWork }
  | _ => { worker := wk }

end Worker

end Swactor.Runtime
