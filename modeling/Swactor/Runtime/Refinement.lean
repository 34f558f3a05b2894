import Swactor.Runtime.System
import Swactor.Runtime.Placement

/-!
# The runtime refines its specification

`abs` forgets what the specification leaves open. Every step of the runtime is then
either invisible or a step of the specification. The proof follows the source: one
lemma for each piece of the pass, each under the facts about the current actor that
hold in the phase in which the piece runs.
-/
namespace Swactor.Runtime

open Spec Phase Worker Function

/-- The actor whose `on_start` is running: it counts as started from the call on. -/
def Phase.starting : Phase → Option ActorAddress
  | .onStart _ addr => some addr
  | _ => none

/-- The removed actors that are still in the address map. -/
def Phase.dying : Phase → List ActorAddress
  | .cleanup dead => dead.map DeadActor.addr
  | .onStop dead _ => dead.map DeadActor.addr
  | .unmap todo _ => todo
  | _ => []

def Phase.drain : Phase → Drain
  | .drainDeferred count => .deferred count
  | .drainTransfers count => .transfers count
  | _ => .off

def absSlot (starting : Bool) (slot : ActorSlot) : Slot where
  mailbox := slot.mailbox
  started := slot.started || starting
  stopping := slot.stopping
  poisoned := slot.poisoned

def absPool (pool : ActorPool) (starting : Option ActorAddress) : ActorAddress → Option Slot :=
  fun addr => pool[addr]?.map (absSlot (starting = some addr))

def absWorker (wk : Worker) : Desk where
  pool := absPool wk.pool wk.phase.starting
  transfer := wk.transferRx
  deferred := wk.deferredTransfers
  pending := wk.pendingLocal
  spawns := wk.spawnRx.map SpawnRequest.addr
  dying := wk.phase.dying
  drain := wk.phase.drain

attribute [local simp] Phase.starting Phase.dying Phase.drain absWorker

def System.abs {n : ℕ} (s : System n) : State (Fin n) where
  route := s.workerOf
  desk := fun w => absWorker (s.workers w)
  serial := s.nextSerial
  trace := s.trace

/-- What is known of the current actor in the phases that have one. -/
def Worker.Sound (wk : Worker) : Prop :=
  match wk.phase with
  | .onStart _ addr => ∃ slot, wk.pool[addr]? = some slot ∧ slot.started = false ∧
      slot.stopping = false ∧ slot.poisoned = false
  | .mailbox _ addr _ | .handle _ addr _ | .afterHandle _ addr _ =>
      ∃ slot, wk.pool[addr]? = some slot ∧ slot.started = true ∧
        slot.stopping = false ∧ slot.poisoned = false
  | .onStop dead addr => addr ∈ dead.map DeadActor.addr
  | _ => True

/-- The next piece of the pass starts the ingress drain. -/
def Worker.entersDrain (cfg : RuntimeConfig) (wk : Worker) : Bool :=
  match wk.phase with
  | .drainSpawns false count =>
      !withinBudget cfg.workerIngressBudget count || wk.spawnRx.isEmpty
  | _ => false

/-- The envelope of `pending_local` that the next piece of the pass delivers or defers. -/
def Worker.nextPending (wk : Worker) : Option Envelope :=
  match wk.phase with
  | .deliverPending => wk.pendingLocal.head?
  | .cleanupPending => wk.pendingLocal.head?
  | _ => none

/-- The next piece of the pass meets the conditions of a gate. -/
structure Worker.Passes (cfg : RuntimeConfig) (gate : Gate) (wk : Worker) : Prop where
  enter : wk.entersDrain cfg = true → gate.enter (absWorker wk)
  direct : ∀ e, wk.nextPending = some e → gate.direct (absWorker wk) e

theorem Worker.passes_open (cfg : RuntimeConfig) (wk : Worker) : wk.Passes cfg .open :=
  ⟨fun _ => trivial, fun _ _ => trivial⟩

section Pool

theorem absPool_insert (pool : ActorPool) (addr : ActorAddress) (slot : ActorSlot)
    {st st' : Option ActorAddress} (h : ∀ b, b ≠ addr → (st' = some b ↔ st = some b)) :
    absPool (pool.insert addr slot) st' =
      update (absPool pool st) addr (some (absSlot (st' = some addr) slot)) := by
  ext1 b
  by_cases hb : b = addr
  · subst hb
    simp [absPool]
  · have hne : addr ≠ b := fun hab => hb hab.symm
    simp only [absPool, Maps.getElem?_insert_ite, hne, if_false,
      update_of_ne hb, h b hb]

theorem absPool_erase (pool : ActorPool) (addr : ActorAddress) (st : Option ActorAddress) :
    absPool (pool.erase addr) st = update (absPool pool st) addr none := by
  ext1 b
  by_cases hb : b = addr
  · subst hb
    simp [absPool]
  · have hne : addr ≠ b := fun hab => hb hab.symm
    simp only [absPool, Maps.getElem?_erase_ite, hne, if_false,
      update_of_ne hb]

theorem absPool_modify (pool : ActorPool) (addr : ActorAddress) (f : ActorSlot → ActorSlot)
    (st : Option ActorAddress) (hf : ∀ b slot, absSlot b (f slot) = absSlot b slot) :
    absPool (pool.modify addr f) st = absPool pool st := by
  ext1 b
  simp only [absPool, Std.ExtTreeMap.getElem?_modify, Std.compare_eq_iff_eq]
  split_ifs with hb
  · subst hb
    cases pool[addr]? <;> simp [hf]
  · rfl

variable {pool : ActorPool} {addr : ActorAddress}

/-- `on_start` is called. -/
theorem absPool_start {slot : ActorSlot} (h : pool[addr]? = some slot) :
    absPool pool (some addr) =
      update (absPool pool none) addr
        (some { absSlot false slot with started := true }) := by
  ext1 b
  by_cases hb : b = addr
  · subst hb
    simp [absPool, absSlot, h]
  · have hne : addr ≠ b := fun hab => hb hab.symm
    simp [absPool, update_of_ne hb, hne]

theorem absPool_eq_some {slot : ActorSlot} (h : pool[addr]? = some slot)
    (st : Option ActorAddress) : absPool pool st addr = some (absSlot (st = some addr) slot) := by
  simp [absPool, h]

theorem absPool_eq_none (h : addr ∉ pool) (st : Option ActorAddress) :
    absPool pool st addr = none := by
  simp [absPool, Std.ExtTreeMap.getElem?_eq_none h]

end Pool

section Local

variable {W : Type} {budget : ℕ} {gate : Gate} {here : ActorAddress → Prop} {self : W}
  {wk wk' : Worker}

/-- Only the pool, the flags and the position outside the drains differ. -/
structure SameQueues (wk wk' : Worker) : Prop where
  transfer : wk'.transferRx = wk.transferRx
  deferred : wk'.deferredTransfers = wk.deferredTransfers
  pending : wk'.pendingLocal = wk.pendingLocal
  spawns : wk'.spawnRx = wk.spawnRx
  dying : wk'.phase.dying = wk.phase.dying
  drain : wk'.phase.drain = wk.phase.drain

theorem absWorker_of_sameQueues (h : SameQueues wk wk') :
    absWorker wk' = { absWorker wk with pool := absPool wk'.pool wk'.phase.starting } := by
  simp only [absWorker, h.transfer, h.deferred, h.pending, h.spawns, h.dying, h.drain]

theorem absWorker_eq (h : SameQueues wk wk') (hpool : wk'.pool = wk.pool)
    (hstarting : wk'.phase.starting = wk.phase.starting) : absWorker wk' = absWorker wk := by
  rw [absWorker_of_sameQueues h, hpool, hstarting]
  rfl

/-- A piece of a pass is invisible or a step of the specification, and the worker
after it is sound. -/
def Refines (budget : ℕ) (gate : Gate) (here : ActorAddress → Prop) (self : W) (wk : Worker)
    (r : Worker × List (Event W)) : Prop :=
  (absWorker r.1 = absWorker wk ∧ r.2 = [] ∨
    DeskStep budget gate here self (absWorker wk) r.2 (absWorker r.1)) ∧ r.1.Sound

def Outcome.result (out : Outcome W) : Worker × List (Event W) :=
  (out.worker, out.events)

theorem refines_self (hsound : wk.Sound) : Refines budget gate here self wk (wk, []) :=
  ⟨Or.inl ⟨rfl, rfl⟩, hsound⟩

theorem refines_quiet {r : Worker × List (Event W)} (h : SameQueues wk r.1)
    (hpool : r.1.pool = wk.pool) (hstarting : r.1.phase.starting = wk.phase.starting)
    (hevents : r.2 = []) (hsound : r.1.Sound) : Refines budget gate here self wk r :=
  ⟨Or.inl ⟨absWorker_eq h hpool hstarting, hevents⟩, hsound⟩

variable {addr : ActorAddress} {slot slot' old : ActorSlot} {es : List (Event W)} {phase : Phase}
  {e : Envelope}
  {count : ℕ} {visited : List ActorAddress}

/-- What a callback may lead to leaves the queues and the drains alone. -/
structure Plain (phase : Phase) : Prop where
  starting : phase.starting = none
  dying : phase.dying = []
  drain : phase.drain = .off

/-- The pass goes on from one such phase to another. -/
theorem refines_turn {requests : Requests} {hasBacklog : Bool} {prev : Phase}
    (hphase : wk.phase = prev) (hold : Plain prev) (hnew : Plain phase)
    (hsound : ({ wk with requests, hasBacklog, phase } : Worker).Sound) :
    Refines budget gate here self wk ({ wk with requests, hasBacklog, phase }, []) := by
  subst hphase
  exact refines_quiet ⟨rfl, rfl, rfl, rfl, hnew.dying.trans hold.dying.symm,
    hnew.drain.trans hold.drain.symm⟩ rfl (hnew.starting.trans hold.starting.symm) rfl hsound

section

variable (hslot : wk.pool[addr]? = some slot) (hqueues : SameQueues wk wk')
  (hpool : wk'.pool = wk.pool.insert addr slot')
  (hstarting : ∀ b, b ≠ addr → (wk'.phase.starting = some b ↔ wk.phase.starting = some b))

include hslot hqueues hpool hstarting

/-- A slot is written back without a change that the specification sees. -/
theorem absWorker_rewrite (h : absSlot (wk'.phase.starting = some addr) slot' =
      absSlot (wk.phase.starting = some addr) slot) : absWorker wk' = absWorker wk := by
  rw [absWorker_of_sameQueues hqueues, hpool, absPool_insert wk.pool addr slot' hstarting, h,
    ← absPool_eq_some hslot, update_eq_self]
  rfl

/-- The step changes one slot of the pool. -/
theorem deskStep_slot (h : SlotStep addr (absSlot (wk.phase.starting = some addr) slot) es
      (absSlot (wk'.phase.starting = some addr) slot')) :
    DeskStep budget gate here self (absWorker wk) es (absWorker wk') := by
  have habs : absWorker wk' =
      (absWorker wk).setSlot addr (absSlot (wk'.phase.starting = some addr) slot') := by
    rw [absWorker_of_sameQueues hqueues, hpool, absPool_insert wk.pool addr slot' hstarting]
    rfl
  rw [habs]
  exact .slot (absPool_eq_some hslot _) h

end

theorem ActorSlot.deliver_delivery {msg : Payload} (starting : Bool)
    (h : slot.deliver addr msg = (slot', es)) :
    Delivery addr msg (absSlot starting slot) es (absSlot starting slot') := by
  unfold ActorSlot.deliver at h
  split at h
  all_goals obtain ⟨rfl, rfl⟩ := Prod.mk.inj h
  · exact .resume rfl
  · exact .halt rfl
  · exact .halt rfl
  · exact .push

/-- User messages are never intercepted. -/
theorem ActorSlot.deliver_user (addr : ActorAddress) (slot : ActorSlot) (m : UserMessage) :
    (slot.deliver addr (.user m) : ActorSlot × List (Event W)) =
      ({ slot with
          mailbox := slot.mailbox ++ [.user m]
          mailboxMaxDepth := max slot.mailboxMaxDepth (slot.mailbox.length + 1) },
        [.arrived addr m]) := by
  cases hsuspended : slot.suspended <;> simp [ActorSlot.deliver, hsuspended, arrivals]

theorem absWorker_setPool (wk : Worker) (addr : ActorAddress) (slot : ActorSlot) :
    absWorker { wk with pool := wk.pool.insert addr slot } =
      (absWorker wk).setSlot addr (absSlot (wk.phase.starting = some addr) slot) := by
  have h := absPool_insert wk.pool addr slot (fun _ _ => Iff.rfl : ∀ b, b ≠ addr →
    (wk.phase.starting = some b ↔ wk.phase.starting = some b))
  simp only [absWorker, h, Desk.setSlot]

theorem deliverOrDefer_placing {hereB : ActorAddress → Bool} {delivered : Bool} (wk : Worker)
    (h : wk.deliverOrDeferTransfer hereB e = (wk', es, delivered)) :
    Placing (fun addr => hereB addr = true) e (absWorker wk) es (absWorker wk') ∧
      wk'.phase = wk.phase := by
  unfold deliverOrDeferTransfer at h
  split_ifs at h with hpool hhere
  · have hslot := hpool
    rw [Std.ExtTreeMap.mem_iff_isSome_getElem?, Option.isSome_iff_exists] at hslot
    obtain ⟨slot, hslot⟩ := hslot
    simp only [ActorPool.deliver, hslot] at h
    obtain ⟨rfl, rfl, -⟩ := h
    refine ⟨?_, rfl⟩
    rw [absWorker_setPool]
    exact .deliver (absPool_eq_some hslot _) (ActorSlot.deliver_delivery _ rfl)
  · obtain ⟨rfl, rfl, -⟩ := h
    exact ⟨.defer (absPool_eq_none hpool _) hhere, rfl⟩
  · obtain ⟨rfl, rfl, -⟩ := h
    exact ⟨.drop (absPool_eq_none hpool _) hhere, rfl⟩

theorem Spec.Placing.setDrain {d d' : Desk} (h : Placing here e d es d') (x : Drain) :
    Placing here e { d with drain := x } es { d' with drain := x } := by
  cases h with
  | deliver hx h => exact .deliver hx h
  | defer hx hhere => exact .defer hx hhere
  | drop hx hhere => exact .drop hx hhere

theorem absWorker_setPhase (wk : Worker) (didWork : Bool)
    (hstarting : phase.starting = wk.phase.starting) (hdying : phase.dying = wk.phase.dying) :
    absWorker { wk with didWork := didWork, phase := phase } =
      { absWorker wk with drain := phase.drain } := by
  simp only [absWorker, hstarting, hdying]

/-- The worker goes on to another drain. -/
theorem refines_drain (hstarting : phase.starting = wk.phase.starting)
    (hdying : phase.dying = wk.phase.dying) (hsound : Worker.Sound { wk with phase := phase })
    (hstep : DeskStep budget gate here self (absWorker wk) []
      { absWorker wk with drain := phase.drain }) :
    Refines budget gate here self wk ({ wk with phase := phase }, []) := by
  have habs := absWorker_setPhase wk wk.didWork hstarting hdying
  rw [← habs] at hstep
  exact ⟨Or.inr hstep, hsound⟩

variable {cfg : RuntimeConfig} {hereB : ActorAddress → Bool}

theorem drainSpawns_refines {again : Bool} (hphase : wk.phase = .drainSpawns again count)
    (hgate : wk.Passes cfg gate) :
    Refines cfg.workerIngressBudget gate here self wk (wk.drainSpawns cfg again count, []) := by
  have hleave : withinBudget cfg.workerIngressBudget count = false ∨ wk.spawnRx = [] →
      Refines cfg.workerIngressBudget gate here self wk
        ({ wk with phase := if again then .deliverPending else .drainDeferred 0 }, []) := by
    intro hend
    cases again with
    | true => exact ⟨Or.inl ⟨by simp [hphase], rfl⟩, trivial⟩
    | false =>
      have hspawns : cfg.workerIngressBudget = 0 → wk.spawnRx = [] := fun hzero =>
        hend.resolve_left (by simp [withinBudget, hzero])
      refine refines_drain (by rw [hphase]; rfl) (by rw [hphase]; rfl) trivial
        (.enterDrain (by simp [hphase]) (by simp [hphase]) (fun h => by simp [hspawns h])
          (hgate.enter ?_))
      rcases hend with hend | hend <;> simp [entersDrain, hphase, hend]
  unfold Worker.drainSpawns
  by_cases hbudget : withinBudget cfg.workerIngressBudget count = true
  · rw [if_pos hbudget]
    split
    · rename_i hqueue
      exact hleave (Or.inr hqueue)
    · rename_i req rest hqueue
      refine ⟨Or.inr ?_, trivial⟩
      have habs : absWorker { wk with
          pool := wk.pool.install req
          spawnRx := rest
          didWork := true
          phase := .drainSpawns again (count + 1) } =
          { (absWorker wk).setSlot req.addr {} with spawns := rest.map SpawnRequest.addr } := by
        have hpool := absPool_insert wk.pool req.addr { parentAddr := req.parent }
          (fun _ _ => Iff.rfl : ∀ b, b ≠ req.addr →
            ((none : Option ActorAddress) = some b ↔ (none : Option ActorAddress) = some b))
        simp [hphase, Desk.setSlot, ActorPool.install, hpool, absSlot]
      rw [habs]
      exact .install (by simp [hphase]) (by simp [hqueue])
  · rw [if_neg hbudget]
    exact hleave (Or.inl (by simpa using hbudget))

/-- The common part of the two transfer loops. `base` is the worker with the envelope taken off
its queue. -/
theorem deskStep_place {base : Worker} {delivered didWork : Bool}
    (h : base.deliverOrDeferTransfer hereB e = (wk', es, delivered))
    (hstarting : phase.starting = base.phase.starting) (hdying : phase.dying = base.phase.dying)
    (hstep : ∀ d, Placing (fun addr => hereB addr = true) e
      { absWorker base with drain := phase.drain } es d →
        DeskStep budget gate (fun addr => hereB addr = true) self (absWorker wk) es d) :
    DeskStep budget gate (fun addr => hereB addr = true) self (absWorker wk) es
      (absWorker { wk' with didWork := didWork, phase := phase }) := by
  obtain ⟨hp, hphase⟩ := deliverOrDefer_placing _ h
  rw [absWorker_setPhase wk' _ (by rw [hphase, hstarting]) (by rw [hphase, hdying])]
  exact hstep _ (hp.setDrain _)

theorem drainDeferred_refines (hphase : wk.phase = .drainDeferred count) :
    Refines cfg.workerIngressBudget gate (fun addr => hereB addr = true) self wk
      (wk.drainDeferred cfg hereB count).result := by
  have hdrain : (absWorker wk).drain = .deferred count := by simp [hphase]
  have hleave (hend : withinBudget cfg.workerIngressBudget count = false ∨
      wk.deferredTransfers = []) : Refines cfg.workerIngressBudget gate
      (fun addr => hereB addr = true) self wk ({ wk with phase := .drainTransfers count }, []) :=
    refines_drain (by rw [hphase]; rfl) (by rw [hphase]; rfl) trivial (.leaveDeferred hdrain hend)
  unfold Worker.drainDeferred
  split
  · rename_i hbudget
    split
    · rename_i hqueue
      exact hleave (Or.inr hqueue)
    · rename_i e rest hqueue
      split
      rename_i hplace
      exact ⟨Or.inr (deskStep_place hplace (by rw [hphase]; rfl) (by rw [hphase]; rfl)
        fun _ => .drainDeferred hdrain hbudget hqueue), trivial⟩
  · rename_i hbudget
    exact hleave (Or.inl (by simpa using hbudget))

theorem drainTransfers_refines (hphase : wk.phase = .drainTransfers count) :
    Refines cfg.workerIngressBudget gate (fun addr => hereB addr = true) self wk
      (wk.drainTransfers cfg hereB count).result := by
  have hdrain : (absWorker wk).drain = .transfers count := by simp [hphase]
  have hleave : Refines cfg.workerIngressBudget gate (fun addr => hereB addr = true) self wk
      ({ wk with phase := .drainDeferredAdmin 0 }, []) :=
    refines_drain (by rw [hphase]; rfl) (by rw [hphase]; rfl) trivial (.leaveTransfers hdrain)
  unfold Worker.drainTransfers
  split
  · rename_i hbudget
    split
    · exact hleave
    · rename_i e rest hqueue
      split
      rename_i hplace
      exact ⟨Or.inr (deskStep_place hplace (by rw [hphase]; rfl) (by rw [hphase]; rfl)
        fun _ => .drainTransfers hdrain hbudget hqueue), trivial⟩
  · exact hleave

/-- An admin command stops one actor or changes nothing the specification sees. -/
theorem applyAdminCommand_refines {cmd : AdminCommand} {pool : ActorPool}
    (h : applyAdminCommand wk.pool cmd = (pool, es)) (hqueues : SameQueues wk wk')
    (hpool : wk'.pool = pool) (hold : wk.phase.starting = none) (hnew : wk'.phase.starting = none) :
    absWorker wk' = absWorker wk ∧ es = [] ∨
      DeskStep budget gate here self (absWorker wk) es (absWorker wk') := by
  have hsame : absPool pool none = absPool wk.pool none → absWorker wk' = absWorker wk := by
    intro hp
    rw [absWorker_of_sameQueues hqueues, hpool, hnew, hp, ← hold]
    rfl
  cases cmd with
  | stopActor actor =>
    simp only [applyAdminCommand, ActorPool.stopActorAdmin] at h
    split at h
    · rename_i slot hslot
      obtain ⟨rfl, rfl⟩ := Prod.mk.inj h
      refine Or.inr (deskStep_slot hslot hqueues hpool (by simp only [hold, hnew, implies_true]) ?_)
      rw [hold, hnew]
      exact .halt .admin fun hneeds => by simp [StopCause.needsStart] at hneeds
    · obtain ⟨rfl, rfl⟩ := Prod.mk.inj h
      exact Or.inl ⟨hsame rfl, rfl⟩
  | suspendActor actor | resumeActor actor =>
    obtain ⟨rfl, rfl⟩ := Prod.mk.inj h
    exact Or.inl ⟨hsame (absPool_modify _ _ _ _ fun _ _ => rfl), rfl⟩
  | listActors acc | inspectActor actor | getActorState actor | replaceActorState actor =>
    obtain ⟨rfl, rfl⟩ := Prod.mk.inj h
    exact Or.inl ⟨hsame rfl, rfl⟩

/-- The common part of the two admin loops. `base` is the worker with the command
taken off its queue. -/
theorem applyOrDefer_refines {base : Worker} {cmd : AdminCommand} {out : Outcome W}
    {applied didWork : Bool} (h : base.applyOrDeferAdminCommand hereB cmd = (out, applied))
    (hqueues : SameQueues wk { base with phase := phase }) (hpool : base.pool = wk.pool)
    (hold : wk.phase.starting = none) (hnew : phase.starting = none) :
    absWorker { out.worker with didWork := didWork, phase := phase } = absWorker wk ∧
        out.events = [] ∨
      DeskStep budget gate here self (absWorker wk) out.events
        (absWorker { out.worker with didWork := didWork, phase := phase }) := by
  unfold applyOrDeferAdminCommand at h
  split_ifs at h
  · obtain ⟨rfl, -⟩ := Prod.mk.inj h
    have hq : SameQueues wk { base with
        deferredAdmin := base.deferredAdmin ++ [cmd], didWork := didWork, phase := phase } :=
      { hqueues with }
    exact Or.inl ⟨absWorker_eq hq hpool (hnew.trans hold.symm), rfl⟩
  · cases hcmd : applyAdminCommand (W := W) base.pool cmd with
    | mk pool es =>
      simp only [hcmd] at h
      obtain ⟨rfl, -⟩ := Prod.mk.inj h
      have hq : SameQueues wk { base with pool := pool, didWork := didWork, phase := phase } :=
        { hqueues with }
      exact applyAdminCommand_refines (hpool ▸ hcmd) hq rfl hold hnew

theorem drainDeferredAdmin_refines (hphase : wk.phase = .drainDeferredAdmin count) :
    Refines budget gate here self wk (wk.drainDeferredAdmin cfg hereB count).result := by
  have hplain : Plain wk.phase := by rw [hphase]; exact ⟨rfl, rfl, rfl⟩
  have hleave : Refines budget gate here self wk ({ wk with phase := .drainAdmin count }, []) :=
    refines_turn rfl hplain ⟨rfl, rfl, rfl⟩ trivial
  unfold Worker.drainDeferredAdmin
  split
  · split
    · exact hleave
    · split
      rename_i happly
      exact ⟨applyOrDefer_refines happly
        ⟨rfl, rfl, rfl, rfl, hplain.dying.symm, hplain.drain.symm⟩ rfl hplain.starting rfl, trivial⟩
  · exact hleave

theorem drainAdmin_refines (hphase : wk.phase = .drainAdmin count) :
    Refines budget gate here self wk (wk.drainAdmin cfg hereB count).result := by
  have hplain : Plain wk.phase := by rw [hphase]; exact ⟨rfl, rfl, rfl⟩
  have hleave : Refines budget gate here self wk ({ wk with phase := .extensionTick }, []) :=
    refines_turn rfl hplain ⟨rfl, rfl, rfl⟩ trivial
  unfold Worker.drainAdmin
  split
  · split
    · exact hleave
    · split
      rename_i happly
      exact ⟨applyOrDefer_refines happly
        ⟨rfl, rfl, rfl, rfl, hplain.dying.symm, hplain.drain.symm⟩ rfl hplain.starting rfl, trivial⟩
  · exact hleave

theorem visit_refines (hphase : wk.phase = .tickAll visited) :
    Refines budget gate here self wk (wk.visit visited addr) := by
  have hsound : wk.Sound := by simp [Sound, hphase]
  have hplain : Plain wk.phase := by rw [hphase]; exact ⟨rfl, rfl, rfl⟩
  unfold visit
  split
  · exact refines_self hsound
  · rename_i slot hslot
    split_ifs with hvisited hskip hdead hstarted
    · exact refines_self hsound
    · refine ⟨Or.inr (deskStep_slot hslot ⟨rfl, rfl, rfl, rfl, hplain.dying.symm,
        hplain.drain.symm⟩ rfl (by simp [hphase]) ?_), trivial⟩
      rw [hphase]
      exact .clear hdead
    · exact refines_turn rfl hplain ⟨rfl, rfl, rfl⟩ trivial
    · simp only [shouldSkipActor, Bool.or_eq_true, not_or, Bool.not_eq_true] at hskip
      exact refines_turn rfl hplain ⟨rfl, rfl, rfl⟩ ⟨slot, hslot, hstarted, hskip.1.2, hskip.1.1⟩
    · simp only [shouldSkipActor, Bool.or_eq_true, not_or, Bool.not_eq_true] at hskip
      have hfresh : slot.started = false := by simpa using hstarted
      have habs : absWorker { wk with phase := .onStart visited addr } =
          (absWorker wk).setSlot addr { absSlot false slot with started := true } := by
        simp [hphase, Desk.setSlot, absPool_start hslot]
      have hpool : (absWorker wk).pool addr = some (absSlot false slot) := by
        simp [hphase, absPool_eq_some hslot]
      refine ⟨Or.inr ?_, ⟨slot, hslot, hfresh, hskip.1.2, hskip.1.1⟩⟩
      dsimp only
      rw [habs]
      exact .slot hpool (.start (by simp [absSlot, hfresh]) hskip.1.2 hskip.1.1)

/-- The callback of `addr` has returned: `slot` is its slot with what the return wrote
to it, `old` the slot still in the pool. -/
structure Returned (wk : Worker) (addr : ActorAddress) (old slot : ActorSlot) : Prop where
  mem : wk.pool[addr]? = some old
  same : absSlot false slot = absSlot (wk.phase.starting = some addr) old
  started : slot.started = true
  starting : ∀ b, b ≠ addr → wk.phase.starting ≠ some b
  dying : wk.phase.dying = []
  drain : wk.phase.drain = .off

theorem plain_tickAll (visited : List ActorAddress) : Plain (.tickAll visited) :=
  ⟨rfl, rfl, rfl⟩

theorem plain_mailbox (visited : List ActorAddress) (addr : ActorAddress) (count : ℕ) :
    Plain (.mailbox visited addr count) :=
  ⟨rfl, rfl, rfl⟩

section

variable (h : Returned wk addr old slot)
include h

theorem Returned.starting_iff (hphase : Plain phase) :
    ∀ b, b ≠ addr → (phase.starting = some b ↔ wk.phase.starting = some b) := by
  intro b hb
  simp only [hphase.starting, h.starting b hb, reduceCtorEq]

theorem Returned.mailbox :
    slot.mailbox = (absSlot (wk.phase.starting = some addr) old).mailbox := by
  rw [← h.same]
  rfl

theorem Returned.wasStarted : (absSlot (wk.phase.starting = some addr) old).started = true := by
  rw [← h.same]
  simp [absSlot, h.started]

theorem settleRequests_refines {next : Phase} (hnext : Plain next)
    (hsound : ({ wk with pool := wk.pool.insert addr slot, phase := next } : Worker).Sound) :
    Refines budget gate here self wk (wk.settleRequests visited addr slot next) := by
  unfold settleRequests
  split
  · rename_i exit rest hverdict
    refine ⟨Or.inr (deskStep_slot h.mem ⟨rfl, rfl, rfl, rfl, h.dying.symm, h.drain.symm⟩ rfl
      (h.starting_iff (plain_tickAll _)) ?_), trivial⟩
    have hslot : absSlot false (slot.halt exit) =
        { absSlot (wk.phase.starting = some addr) old with stopping := true, mailbox := [] } := by
      rw [← h.same]
      rfl
    rw [h.mailbox]
    simp only [starting, reduceCtorEq, decide_false, hslot]
    exact .halt .requested fun _ => h.wasStarted
  · refine ⟨Or.inl ⟨absWorker_rewrite h.mem ⟨rfl, rfl, rfl, rfl, h.dying.symm, h.drain.symm⟩ rfl
      (h.starting_iff (plain_tickAll _)) ?_, rfl⟩, trivial⟩
    rw [← h.same]
    rfl
  · refine ⟨Or.inl ⟨absWorker_rewrite h.mem ⟨rfl, rfl, rfl, rfl, hnext.dying.trans h.dying.symm,
      hnext.drain.trans h.drain.symm⟩ rfl (h.starting_iff hnext) ?_, rfl⟩, hsound⟩
    rw [← h.same]
    simp only [hnext.starting, reduceCtorEq, decide_false]

theorem poisonActor_refines :
    Refines budget gate here self wk (wk.poisonActor visited addr slot) := by
  have hslot : absSlot false slot.poison =
      { absSlot (wk.phase.starting = some addr) old with poisoned := true, mailbox := [] } := by
    rw [← h.same]
    rfl
  refine ⟨Or.inr (deskStep_slot h.mem ⟨rfl, rfl, rfl, rfl, h.dying.symm, h.drain.symm⟩ rfl
    (h.starting_iff (plain_tickAll _)) ?_), trivial⟩
  unfold poisonActor
  rw [h.mailbox]
  simp only [starting, reduceCtorEq, decide_false, hslot]
  exact .poison h.wasStarted

end

theorem startReturned_refines {panicked : Bool} (hphase : wk.phase = .onStart visited addr)
    (hsound : wk.Sound) :
    Refines budget gate here self wk (wk.startReturned visited addr panicked) := by
  simp only [Sound, hphase] at hsound
  obtain ⟨old, hold, hfresh, hstopping, hpoisoned⟩ := hsound
  have hret : Returned wk addr old { old with started := true } := by
    refine ⟨hold, ?_, rfl, fun b hb => ?_, ?_, ?_⟩
    · simp [absSlot, hphase]
    · simpa [hphase] using Ne.symm hb
    · rw [hphase]; rfl
    · rw [hphase]; rfl
  unfold startReturned
  simp only [hold]
  split_ifs
  · exact poisonActor_refines hret
  · exact settleRequests_refines hret (plain_mailbox _ _ _)
      ⟨_, Std.ExtTreeMap.getElem?_insert_self, rfl, hstopping, hpoisoned⟩

theorem discards_cons_control {msg : Payload} (h : control msg = true) (rest : List Payload) :
    (discards addr (msg :: rest) : List (Event W)) = discards addr rest := by
  cases msg with
  | user m => exact absurd h Bool.false_ne_true
  | stop => rfl
  | stopWith value => rfl
  | resume => rfl

theorem receive_refines {typed : Bool} (hphase : wk.phase = .mailbox visited addr count)
    (hsound : wk.Sound) :
    Refines budget gate here self wk (wk.receive visited addr count typed) := by
  have hsound' := hsound
  simp only [Sound, hphase] at hsound'
  obtain ⟨slot, hslot, hstarted, hstopping, hpoisoned⟩ := hsound'
  have hstarting : wk.phase.starting = none := by rw [hphase]; rfl
  have hdying : wk.phase.dying = [] := by rw [hphase]; rfl
  have hdrain : wk.phase.drain = .off := by rw [hphase]; rfl
  have hhalt : ∀ exit msg rest, slot.mailbox = msg :: rest → control msg = true →
      Refines budget gate here self wk
        ({ wk with
            pool := wk.pool.insert addr (slot.halt exit)
            phase := .tickAll (addr :: visited) },
          .stopping addr .signalled :: discards addr rest) := by
    intro exit msg rest hmailbox hmsg
    refine ⟨Or.inr (deskStep_slot hslot ⟨rfl, rfl, rfl, rfl, hdying.symm, hdrain.symm⟩ rfl
      (fun b _ => by rw [hstarting]; rfl) ?_), trivial⟩
    rw [← discards_cons_control hmsg, ← hmailbox]
    simp only [hstarting]
    exact .halt .signalled fun _ => by simp [absSlot, hstarted]
  have htake : ∀ (next : Phase) msg rest, slot.mailbox = msg :: rest → Plain next →
      DeskStep budget gate here self (absWorker wk)
        [if typed then .handleCalled addr msg else .mismatched addr msg]
        (absWorker { wk with
          pool := wk.pool.insert addr { slot with mailbox := rest }, phase := next }) := by
    intro next msg rest hmailbox hnext
    refine deskStep_slot hslot ⟨rfl, rfl, rfl, rfl, hnext.dying.trans hdying.symm,
      hnext.drain.trans hdrain.symm⟩ rfl (by simp only [hstarting, hnext.starting, implies_true]) ?_
    simp only [hstarting, hnext.starting]
    exact .take typed hmailbox (by simp [absSlot, hstarted]) hstopping hpoisoned
  unfold receive
  simp only [hslot]
  split
  · exact refines_quiet ⟨rfl, rfl, rfl, rfl, hdying.symm, hdrain.symm⟩ rfl hstarting.symm rfl
      trivial
  · rename_i rest hmailbox
    exact hhalt none _ rest hmailbox rfl
  · rename_i value rest hmailbox
    exact hhalt (some value) _ rest hmailbox rfl
  · rename_i msg rest _ _ hmailbox
    have hnow : ∃ slot', (wk.pool.insert addr { slot with mailbox := rest })[addr]? = some slot' ∧
        slot'.started = true ∧ slot'.stopping = false ∧ slot'.poisoned = false :=
      ⟨_, Std.ExtTreeMap.getElem?_insert_self, hstarted, hstopping, hpoisoned⟩
    split_ifs with htyped
    · have h := htake (.handle visited addr count) msg rest hmailbox ⟨rfl, rfl, rfl⟩
      rw [if_pos htyped] at h
      exact ⟨Or.inr h, hnow⟩
    · have h := htake (.afterHandle visited addr count) msg rest hmailbox ⟨rfl, rfl, rfl⟩
      rw [if_neg htyped] at h
      exact ⟨Or.inr h, hnow⟩

theorem handleReturned_refines {panicked : Bool} (hphase : wk.phase = .handle visited addr count)
    (hsound : wk.Sound) :
    Refines budget gate here self wk (wk.handleReturned visited addr count panicked) := by
  simp only [Sound, hphase] at hsound
  obtain ⟨slot, hslot, hstarted, hstopping, hpoisoned⟩ := hsound
  have hret : Returned wk addr slot slot :=
    ⟨hslot, by rw [hphase]; rfl, hstarted, by simp [hphase], by rw [hphase]; rfl,
      by rw [hphase]; rfl⟩
  unfold handleReturned
  simp only [hslot]
  split_ifs
  · exact poisonActor_refines hret
  · refine ⟨Or.inl ⟨absWorker_rewrite hslot ⟨rfl, rfl, rfl, rfl, hret.dying.symm, hret.drain.symm⟩
      rfl (hret.starting_iff ⟨rfl, rfl, rfl⟩) ?_, rfl⟩,
      ⟨_, Std.ExtTreeMap.getElem?_insert_self, hstarted, hstopping, hpoisoned⟩⟩
    rw [hphase]
    rfl

theorem afterHandle_refines (hphase : wk.phase = .afterHandle visited addr count)
    (hsound : wk.Sound) :
    Refines budget gate here self wk (wk.afterHandle cfg visited addr count) := by
  simp only [Sound, hphase] at hsound
  obtain ⟨slot, hslot, hstarted, hstopping, hpoisoned⟩ := hsound
  have hret : Returned { wk with didWork := true } addr slot slot :=
    ⟨hslot, by simp only [hphase]; rfl, hstarted, by simp [hphase],
      by simp only [hphase]; rfl, by simp only [hphase]; rfl⟩
  unfold Worker.afterHandle
  simp only [hslot]
  split_ifs
  · exact settleRequests_refines hret (plain_mailbox _ _ _)
      ⟨_, Std.ExtTreeMap.getElem?_insert_self, hstarted, hstopping, hpoisoned⟩
  · exact settleRequests_refines hret (plain_tickAll _) trivial

theorem drainPending_refines {next : Worker} {counted : Bool}
    (hphase : wk.phase = .deliverPending ∨ wk.phase = .cleanupPending) (hgate : wk.Passes cfg gate)
    (hnext : Refines budget gate (fun addr => hereB addr = true) self wk (next, [])) :
    Refines budget gate (fun addr => hereB addr = true) self wk
      (wk.drainPending hereB counted next).result := by
  unfold drainPending
  split
  · exact hnext
  · rename_i e rest hqueue
    split
    rename_i hplace
    obtain ⟨hp, hph⟩ := deliverOrDefer_placing _ hplace
    rcases hphase with hphase | hphase <;>
      exact ⟨Or.inr (.drainPending (by simp [hphase]) hqueue
        (hgate.direct e (by simp [nextPending, hphase, hqueue])) hp),
        by simp [Sound, Outcome.result, hph, hphase]⟩

theorem reap_refines {dead : List DeadActor} (hphase : wk.phase = .cleanup dead) :
    Refines budget gate here self wk (wk.reap self dead addr) := by
  have hsound : wk.Sound := by simp [Sound, hphase]
  unfold reap
  split
  · exact refines_self hsound
  · rename_i slot hslot
    split_ifs with hdead
    · have hnext : ∀ (eligible : Bool) (dead' : List DeadActor),
          dead'.map DeadActor.addr = dead.map DeadActor.addr ++ [addr] →
          absWorker { wk with
              pool := wk.pool.erase addr
              phase := if eligible then .onStop dead' addr else .cleanup dead' } =
            { absWorker wk with
              pool := update (absWorker wk).pool addr none
              dying := (absWorker wk).dying ++ [addr] } := by
        intro eligible dead' hmap
        cases eligible <;>
          simp [hphase, absPool_erase, hmap]
      have hpool : (absWorker wk).pool addr = some (absSlot false slot) := by
        simp [hphase, absPool_eq_some hslot]
      have hdrain : (absWorker wk).drain = .off := by simp [hphase]
      refine ⟨Or.inr ?_, ?_⟩
      · rw [hnext (isOnStopEligible slot.stopping slot.poisoned) (dead ++ [DeadActor.of addr slot])
          (by simp [DeadActor.of])]
        exact .reap hdrain hpool hdead
      · dsimp only
        split_ifs
        · simp [Sound, DeadActor.of]
        · simp [Sound]
    · exact refines_self hsound

theorem advance_refines (hsound : wk.Sound)
    (hgate : wk.Passes cfg gate) :
    Refines cfg.workerIngressBudget gate (fun addr => hereB addr = true) self wk
      (wk.advance cfg hereB).result := by
  unfold advance
  split
  · rename_i again count hphase
    exact drainSpawns_refines hphase hgate
  · rename_i count hphase
    exact drainDeferred_refines hphase
  · rename_i count hphase
    exact drainTransfers_refines hphase
  · rename_i count hphase
    exact drainDeferredAdmin_refines hphase
  · rename_i count hphase
    exact drainAdmin_refines hphase
  · rename_i hphase
    exact refines_turn hphase ⟨rfl, rfl, rfl⟩ ⟨rfl, rfl, rfl⟩ trivial
  · rename_i visited hphase
    split_ifs
    · exact refines_turn hphase ⟨rfl, rfl, rfl⟩ ⟨rfl, rfl, rfl⟩ trivial
    · exact refines_self hsound
  · rename_i visited addr count hphase
    exact afterHandle_refines hphase hsound
  · rename_i hphase
    exact drainPending_refines (Or.inl hphase) hgate
      (refines_turn hphase ⟨rfl, rfl, rfl⟩ ⟨rfl, rfl, rfl⟩ trivial)
  · rename_i dead hphase
    split_ifs with hall hempty
    · obtain rfl : dead = [] := List.isEmpty_iff.mp hempty
      exact refines_turn hphase ⟨rfl, rfl, rfl⟩ ⟨rfl, rfl, rfl⟩ trivial
    · exact refines_quiet ⟨rfl, rfl, rfl, rfl, by rw [hphase]; rfl, by rw [hphase]; rfl⟩ rfl
        (by rw [hphase]; rfl) rfl trivial
    · exact refines_self hsound
  · rename_i dead hphase
    exact refines_turn hphase ⟨rfl, rfl, rfl⟩ ⟨rfl, rfl, rfl⟩ trivial
  · rename_i dead hphase
    exact refines_turn hphase ⟨rfl, rfl, rfl⟩ ⟨rfl, rfl, rfl⟩ trivial
  · rename_i hphase
    exact drainPending_refines (Or.inr hphase) hgate
      (refines_turn hphase ⟨rfl, rfl, rfl⟩ ⟨rfl, rfl, rfl⟩ trivial)
  · exact refines_self hsound

end Local

namespace System

variable {n : ℕ} {s : System n} {cfg : RuntimeConfig}

/-- Every worker is sound. -/
def Sound (s : System n) : Prop :=
  ∀ w, (s.workers w).Sound

/-- Any number of steps of the specification. -/
abbrev Steps (budget : ℕ) (gate : Gate) : State (Fin n) → State (Fin n) → Prop :=
  Relation.ReflTransGen (Step budget gate)

section

variable (s : System n)

@[simp] theorem abs_setWorker (w : Fin n) (wk : Worker) (es : List (Event (Fin n))) :
    (s.setWorker w wk es).abs = s.abs.put w (absWorker wk) es := by
  have hdesk : (fun v => absWorker (update s.workers w wk v)) =
      update (fun v => absWorker (s.workers v)) w (absWorker wk) := by
    ext1 v
    by_cases hv : v = w
    · subst hv
      simp
    · simp [update_of_ne hv]
  simp only [abs, setWorker, State.put, hdesk]
  rfl

theorem abs_setAddressMap (m : Std.ExtTreeMap ActorAddress (Fin n) compare) :
    ({ s with addressMap := m } : System n).abs = { s.abs with route := fun addr => m[addr]? } :=
  rfl

@[simp] theorem abs_transfer (w : Fin n) (e : Envelope) :
    (s.transfer w e).abs = s.abs.sendTransfer w e := by
  rw [transfer, abs_setWorker]
  rfl

@[simp] theorem abs_stage (w : Fin n) (e : Envelope) :
    (s.stage w e).abs = s.abs.sendPending w e := by
  rw [stage, abs_setWorker]
  rfl

@[simp] theorem abs_accept (sender : Sender) (dest : ActorAddress) :
    (s.accept sender dest).abs = s.abs.accept sender dest :=
  rfl

end

theorem put_self (t : State (Fin n)) (w : Fin n) : t.put w (t.desk w) [] = t := by
  simp [State.put]

variable {w : Fin n} {wk : Worker} {P : State (Fin n) → Prop}

/-- A worker changes without a change that the specification sees. -/
theorem abs_setWorker_self (h : absWorker wk = absWorker (s.workers w)) :
    (s.setWorker w wk []).abs = s.abs := by
  rw [abs_setWorker, h]
  exact put_self s.abs w

theorem Sound.setWorker (hs : s.Sound) (es : List (Event (Fin n))) (hwk : wk.Sound) :
    (s.setWorker w wk es).Sound := by
  intro v
  by_cases hv : v = w
  · subst hv
    simpa [System.setWorker] using hwk
  · simpa [System.setWorker, update_of_ne hv] using hs v

theorem sound_congr {wk' : Worker} (h : wk.Sound) (hpool : wk'.pool = wk.pool)
    (hphase : wk'.phase = wk.phase) : wk'.Sound := by
  unfold Worker.Sound at h ⊢
  rw [hpool, hphase]
  exact h

theorem here_iff (s : System n) (w : Fin n) :
    (fun addr => s.here w addr = true) = fun addr => s.abs.route addr = some w := by
  simp [here, abs]

/-- A piece of a pass is at most one step. -/
theorem refines_local (hs : s.Sound) {budget : ℕ} {gate : Gate} {r : Worker × List (Event (Fin n))}
    (h : Refines budget gate (fun addr => s.abs.route addr = some w) w (s.workers w) r) :
    Steps budget gate s.abs (s.setWorker w r.1 r.2).abs ∧ (s.setWorker w r.1 r.2).Sound := by
  refine ⟨?_, hs.setWorker r.2 h.2⟩
  rcases h.1 with ⟨hsame, hevents⟩ | hstep
  · rw [hevents, abs_setWorker_self hsame]
  · rw [abs_setWorker]
    exact .single (.desk w hstep)

/-- The actor whose callback is running lives on the worker that runs it. -/
theorem running_home (hs : s.Sound) (hp : Placed s.abs) {addr : ActorAddress}
    (h : (s.workers w).phase.running = some addr) : .spawned addr w ∈ s.trace := by
  have hheld := (hp.desk w).held addr
  have hsound := hs w
  have hpool : ∀ slot, (s.workers w).pool[addr]? = some slot →
      ((s.abs.desk w).pool addr).isSome = true := by
    intro slot hslot
    simp [abs, absPool_eq_some hslot]
  unfold Worker.Sound at hsound
  cases hphase : (s.workers w).phase with
  | onStart visited a | handle visited a count =>
    simp only [hphase, running, Option.some.injEq] at h hsound
    subst h
    obtain ⟨slot, hslot, -⟩ := hsound
    exact hp.routed (hheld.mpr (Or.inl (hpool slot hslot)))
  | onStop dead a =>
    simp only [hphase, running, Option.some.injEq] at h hsound
    subst h
    refine hp.routed (hheld.mpr (Or.inr (Or.inr ?_)))
    simpa [abs, hphase] using hsound
  | _ => simp [hphase, running] at h

theorem control_stopPayload (exit : Option ExitValue) : Spec.control (stopPayload exit) = true := by
  cases exit <;> rfl

theorem Sound.transfer (hs : s.Sound) (w : Fin n) (e : Envelope) : (s.transfer w e).Sound :=
  hs.setWorker [] (sound_congr (hs w) rfl rfl)

theorem Sound.stage (hs : s.Sound) (w : Fin n) (e : Envelope) : (s.stage w e).Sound :=
  hs.setWorker [] (sound_congr (hs w) rfl rfl)

theorem Sound.accept (hs : s.Sound) (sender : Sender) (dest : ActorAddress) :
    (s.accept sender dest).Sound :=
  hs

variable {budget : ℕ} {gate : Gate}

/-- What a step of the runtime amounts to. -/
def Simulated (budget : ℕ) (gate : Gate) (s s' : System n) : Prop :=
  Steps budget gate s.abs s'.abs ∧ s'.Sound

theorem Simulated.refl (hs : s.Sound) : Simulated budget gate s s :=
  ⟨.refl, hs⟩

theorem Simulated.trans {t u : System n} (h : Simulated budget gate s t)
    (h' : Simulated budget gate t u) : Simulated budget gate s u :=
  ⟨h.1.trans h'.1, h'.2⟩

theorem simulated_of_abs_eq {t : System n} (h : t.abs = s.abs) (ht : t.Sound) :
    Simulated budget gate s t :=
  ⟨h ▸ .refl, ht⟩

section

variable (hs : s.Sound)

include hs

theorem simulated_quiet (habs : absWorker wk = absWorker (s.workers w)) (hwk : wk.Sound) :
    Simulated budget gate s (s.setWorker w wk []) :=
  simulated_of_abs_eq (abs_setWorker_self habs) (hs.setWorker [] hwk)

theorem spawnOn_simulated (w : Fin n) (req : SpawnRequest) :
    Simulated budget gate s (s.spawnOn w req) := by
  unfold spawnOn
  split_ifs with hfresh
  · have hnew : ∀ v, .spawned req.addr v ∉ s.trace := by
      intro v hmem
      have h := List.all_eq_true.mp hfresh _ hmem
      simp at h
    refine ⟨?_, hs.setWorker [.spawned req.addr w] (sound_congr (hs w) rfl rfl)⟩
    have habs : ({ s.setWorker w { s.workers w with spawnRx := (s.workers w).spawnRx ++ [req] }
          [.spawned req.addr w] with addressMap := s.addressMap.insert req.addr w } :
          System n).abs =
        { s.abs.put w { s.abs.desk w with spawns := (s.abs.desk w).spawns ++ [req.addr] }
          [.spawned req.addr w] with route := update s.abs.route req.addr (some w) } := by
      have hdesk : absWorker { s.workers w with spawnRx := (s.workers w).spawnRx ++ [req] } =
          { s.abs.desk w with spawns := (s.abs.desk w).spawns ++ [req.addr] } := by
        simp [abs]
      rw [abs_setAddressMap, abs_setWorker, hdesk, Maps.getElem?_insert_fun]
      rfl
    rw [habs]
    exact .single (.spawn w req.addr hnew)
  · exact .refl hs

theorem post_simulated {dest : ActorAddress} (sender : Sender) (hroute : s.workerOf dest = some w)
    (hsender : ∀ a, sender = .actor a → ∃ v, v ≠ w ∧ .spawned a v ∈ s.trace) :
    Simulated budget gate s ((s.accept sender dest).transfer w ⟨dest, s.nextMessage sender⟩) := by
  refine ⟨?_, (hs.accept sender dest).transfer w _⟩
  rw [abs_transfer, abs_accept]
  exact .single (.post w sender hroute hsender)

theorem signal_simulated (w : Fin n) {e : Envelope} (he : Spec.control e.payload = true) :
    Simulated budget gate s (s.transfer w e) := by
  refine ⟨?_, hs.transfer w e⟩
  rw [abs_transfer]
  exact .single (.signalTransfer w he)

theorem stageSignal_simulated (w : Fin n) {e : Envelope} (he : Spec.control e.payload = true) :
    Simulated budget gate s (s.stage w e) := by
  refine ⟨?_, hs.stage w e⟩
  rw [abs_stage]
  exact .single (.signalPending w he)

theorem sendTo_simulated (handle : ℕ) (dest : ActorAddress) :
    Simulated budget gate s (s.sendTo handle dest) := by
  unfold sendTo
  split
  · rename_i w hroute
    exact post_simulated hs _ hroute (by simp)
  · exact .refl hs

theorem stopActor_simulated (dest : ActorAddress) (exit : Option ExitValue) :
    Simulated budget gate s (s.stopActor dest exit) := by
  unfold stopActor
  split
  · exact signal_simulated hs _ (control_stopPayload exit)
  · exact .refl hs

theorem admin_simulated (cmd : AdminCommand) : Simulated budget gate s (s.admin cmd) := by
  unfold admin
  split
  · exact simulated_quiet hs rfl (sound_congr (hs _) rfl rfl)
  · exact .refl hs

theorem listActors_simulated (replyTo : ActorAddress) :
    Simulated budget gate s (s.listActors replyTo) :=
  simulated_of_abs_eq rfl fun w => sound_congr (hs w) rfl rfl

theorem notifyWorker_simulated (dest : ActorAddress) :
    Simulated budget gate s (s.notifyWorker dest) := by
  unfold notifyWorker
  split
  · rename_i w hroute
    exact post_simulated hs _ hroute (by simp)
  · exact .refl hs

theorem answerCensus_simulated (acc : ℕ) : Simulated budget gate s (s.answerCensus acc) := by
  unfold answerCensus
  split
  · split_ifs
    · have hs' : ({ s with censuses := s.censuses.set acc none } : System n).Sound := hs
      exact notifyWorker_simulated hs' _
    · exact simulated_of_abs_eq rfl hs
  · exact .refl hs

theorem routeRuntimeMessage_simulated (w : Fin n) (dest : ActorAddress)
    (hsafe : ∀ wk : Worker, wk.phase = (s.workers w).phase → wk.Sound) :
    Simulated budget gate s (s.routeRuntimeMessage w dest) := by
  unfold routeRuntimeMessage
  split_ifs with hpool
  · have hslot := hpool
    rw [Std.ExtTreeMap.mem_iff_isSome_getElem?, Option.isSome_iff_exists] at hslot
    obtain ⟨slot, hslot⟩ := hslot
    simp only [ActorPool.deliver, hslot, nextMessage, ActorSlot.deliver_user]
    refine ⟨?_, (hs.accept .runtime dest).setWorker _ (hsafe _ rfl)⟩
    rw [abs_setWorker, abs_accept, absWorker_setPool]
    have hstep : Step budget gate s.abs _ := .inject w (absPool_eq_some hslot _)
    exact .single hstep
  · exact notifyWorker_simulated hs dest

theorem sendAny_simulated {sender : ActorAddress} (hhome : .spawned sender w ∈ s.trace)
    (dest : ActorAddress) : Simulated budget gate s (s.sendAny w sender dest) := by
  unfold sendAny
  split
  · rename_i v hroute
    split_ifs with hv
    · subst hv
      refine ⟨?_, (hs.accept _ dest).stage v _⟩
      rw [abs_stage, abs_accept]
      exact .single (.stage v hroute hhome)
    · refine post_simulated hs _ hroute fun a ha => ⟨w, fun h => hv h.symm, ?_⟩
      obtain rfl : sender = a := by simpa using ha
      exact hhome
  · exact .refl hs

theorem sendStop_simulated (w : Fin n) (dest : ActorAddress) (exit : Option ExitValue) :
    Simulated budget gate s (s.sendStop w dest exit) := by
  unfold sendStop
  split
  · split_ifs
    · exact stageSignal_simulated hs _ (control_stopPayload exit)
    · exact signal_simulated hs _ (control_stopPayload exit)
  · exact .refl hs

theorem perform_simulated {addr : ActorAddress} (hhome : .spawned addr w ∈ s.trace) (eff : Effect) :
    Simulated budget gate s (s.perform w addr eff) := by
  have hpost : ∀ f, Simulated budget gate s (s.post w f) := fun f =>
    simulated_quiet hs rfl (sound_congr (hs w) rfl rfl)
  cases eff with
  | send dest => exact sendAny_simulated hs hhome dest
  | stopActor dest exit => exact sendStop_simulated hs w dest exit
  | spawn child => exact spawnOn_simulated hs w _
  | requestStop target | requestStopWith target value | requestSuspend target => exact hpost _
  | requestResume target => exact stageSignal_simulated hs w rfl

theorem advance_simulated (w : Fin n) (hgate : (s.workers w).Passes cfg gate) :
    Simulated cfg.workerIngressBudget gate s (s.advance cfg w) := by
  unfold advance
  split
  · rename_i addr todo dead hphase
    refine ⟨?_, hs.setWorker [] trivial⟩
    have hdying : (s.abs.desk w).dying = addr :: todo := by
      simp [abs, hphase]
    have habs : ({ s.setWorker w { s.workers w with phase := .unmap todo dead } [] with
          addressMap := s.addressMap.erase addr } : System n).abs =
        { s.abs.put w { s.abs.desk w with dying := todo } [] with
          route := update s.abs.route addr none } := by
      have hdesk : absWorker { s.workers w with phase := .unmap todo dead } =
          { s.abs.desk w with dying := todo } := by
        simp [abs, hphase]
      rw [abs_setAddressMap, abs_setWorker, hdesk, Maps.getElem?_erase_fun]
      rfl
    rw [habs]
    exact .single (.unmap w hdying)
  · have hadvance : Refines cfg.workerIngressBudget gate (fun addr => s.here w addr = true) w
        (s.workers w) ((s.workers w).advance cfg (s.here w)).result :=
      advance_refines (hs w) hgate
    rw [here_iff] at hadvance
    have hlocal := refines_local hs hadvance
    unfold applyOutcome
    split
    · exact Simulated.trans hlocal (answerCensus_simulated hlocal.2 _)
    · exact hlocal

/-- Every step of the runtime is matched by steps of the specification. -/
theorem step_simulated [NeZero n] (hp : Placed s.abs) (a : Action n)
    (hgate : ∀ w, a = .advance w → (s.workers w).Passes cfg gate) :
    Simulated cfg.workerIngressBudget gate s (s.step cfg a) := by
  cases a with
  | spawn addr =>
    have hs' : ({ s with rrWorker := wrappingAdd s.rrWorker 1 } : System n).Sound := hs
    exact spawnOn_simulated hs' _ _
  | sendTo handle dest => exact sendTo_simulated hs handle dest
  | stopActor dest exit => exact stopActor_simulated hs dest exit
  | admin cmd => exact admin_simulated hs cmd
  | listActors replyTo => exact listActors_simulated hs replyTo
  | dropListActorsRequest acc => exact simulated_of_abs_eq rfl hs
  | beginPass w extPending =>
    simp only [step, beginPass]
    split_ifs with hidle
    · refine simulated_quiet hs ?_ trivial
      simp [hidle.1]
    · exact simulated_quiet hs rfl (hs w)
  | advance w => exact advance_simulated hs w (hgate w rfl)
  | inject w dest =>
    simp only [step]
    split
    · rename_i hphase
      have h : Simulated cfg.workerIngressBudget gate s
          (s.setWorker w { s.workers w with didWork := true } []) :=
        simulated_quiet hs rfl (sound_congr (hs w) rfl rfl)
      refine h.trans (routeRuntimeMessage_simulated h.2 w dest fun wk hwk => ?_)
      simp [System.setWorker, hphase] at hwk
      simp [Worker.Sound, hwk]
    · rename_i dead hphase
      refine routeRuntimeMessage_simulated hs w dest fun wk hwk => ?_
      simp [Worker.Sound, hwk, hphase]
    · exact .refl hs
  | visit w addr =>
    simp only [step]
    split
    · rename_i visited hphase
      exact refines_local hs (visit_refines hphase)
    · exact .refl hs
  | effect w eff =>
    simp only [step]
    split
    · rename_i addr hrun
      exact perform_simulated hs (running_home hs hp hrun) eff
    · exact .refl hs
  | callbackReturned w panicked =>
    simp only [step]
    split
    · rename_i visited addr hphase
      exact refines_local hs (startReturned_refines hphase (hs w))
    · rename_i visited addr count hphase
      exact refines_local hs (handleReturned_refines hphase (hs w))
    · rename_i dead addr hphase
      refine simulated_quiet hs ?_ trivial
      simp [hphase]
    · exact .refl hs
  | receive w typed =>
    simp only [step]
    split
    · rename_i visited addr count hphase
      exact refines_local hs (receive_refines hphase (hs w))
    · exact .refl hs
  | reap w addr =>
    simp only [step]
    split
    · rename_i dead hphase
      exact refines_local hs (reap_refines hphase)
    · exact .refl hs

end

theorem abs_new : (new : System n).abs = {} := by
  have hpool : absPool {} none = fun _ => none := by
    ext1 addr
    simp [absPool]
  have hroute : (new : System n).workerOf = fun _ => none := by
    ext1 addr
    simp [workerOf, new]
  simp only [abs, hroute]
  simp [new, hpool]

theorem sound_new : (new : System n).Sound :=
  fun _ => trivial

theorem steps_invariant (hP : ∀ t t', Placed t → P t → Step budget gate t t' → P t')
    {t t' : State (Fin n)} (h : Steps budget gate t t') (hp : Placed t) (ht : P t) :
    Placed t' ∧ P t' := by
  induction h with
  | refl => exact ⟨hp, ht⟩
  | tail _ hstep ih => exact ⟨hstep.placed ih.1, hP _ _ ih.1 ih.2 hstep⟩

/-- An invariant of the specification holds in every state of every run of the runtime.
The gate may restrict the steps of the specification where the run meets its
conditions. -/
theorem run_invariant [NeZero n] (hinit : P {})
    (hP : ∀ t t', Placed t → P t → Step cfg.workerIngressBudget gate t t' → P t')
    {actions : List (Action n)}
    (hgate : Machine.Guarded (fun (s : System n) a => ∀ w, a = .advance w →
      (s.workers w).Passes cfg gate) (step cfg) new actions) :
    (run cfg actions).Sound ∧ Placed (run cfg actions).abs ∧ P (run cfg actions).abs := by
  have hstep : ∀ (s : System n) (a : Action n), (s.Sound ∧ Placed s.abs ∧ P s.abs) →
      (∀ w, a = .advance w → (s.workers w).Passes cfg gate) →
      (s.step cfg a).Sound ∧ Placed (s.step cfg a).abs ∧ P (s.step cfg a).abs := by
    rintro s a ⟨hs, hp, ht⟩ hpass
    have hsim := step_simulated hs hp a hpass
    exact ⟨hsim.2, steps_invariant hP hsim.1 hp ht⟩
  refine hgate.invariant hstep ⟨sound_new, ?_⟩
  rw [abs_new]
  exact ⟨placed_init, hinit⟩

/-- The rule for invariants that need no condition. -/
theorem run_invariant_open [NeZero n] (hinit : P {})
    (hP : ∀ t t', Placed t → P t → Step cfg.workerIngressBudget .open t t' → P t')
    (actions : List (Action n)) :
    (run cfg actions).Sound ∧ Placed (run cfg actions).abs ∧ P (run cfg actions).abs :=
  run_invariant hinit hP (Machine.guarded_iff_forall_past.mpr
    fun _ _ _ _ _ => Worker.passes_open cfg _)

/-- Every run of the runtime, whatever its actors do, is a run of the specification. -/
theorem run_refines_spec [NeZero n] (cfg : RuntimeConfig) (actions : List (Action n)) :
    Steps cfg.workerIngressBudget .open {} (run cfg actions).abs :=
  (run_invariant_open (P := Steps cfg.workerIngressBudget .open {}) .refl
    (fun _ _ _ hrun hstep => hrun.tail hstep) actions).2.2

theorem run_refines_spec_spawn :
    Steps 9 .open {} (run ⟨9, 9⟩ [.spawn 7, .advance (0 : Fin 1)]).abs :=
  run_refines_spec ⟨9, 9⟩ _

/-- In every run an address is routed to the one worker that has its actor, has still to install
it, or is removing it, and the worker does only one of these. -/
theorem actors_in_one_place [NeZero n] (cfg : RuntimeConfig) (actions : List (Action n))
    (w : Fin n) :
    let wk := (run cfg actions).workers w
    let moving := wk.spawnRx.map SpawnRequest.addr ++ wk.phase.dying
    (∀ addr, (run cfg actions).workerOf addr = some w ↔ addr ∈ wk.pool ∨ addr ∈ moving) ∧
      moving.Nodup ∧ ∀ addr ∈ moving, addr ∉ wk.pool := by
  have hplaced : Placed (run cfg actions).abs :=
    (run_invariant_open (P := fun _ => True) trivial (fun _ _ _ _ _ => trivial) actions).2.1
  obtain ⟨hheld, hnodup, habsent⟩ := hplaced.desk w
  refine ⟨fun addr => ?_, hnodup, fun addr haddr => ?_⟩
  · simpa [abs, absWorker, absPool, or_assoc] using hheld addr
  · simpa [abs, absWorker, absPool] using habsent addr haddr

theorem actors_in_one_place_spawn :
    let s : System 1 := run ⟨9, 9⟩ [.spawn 7]
    s.workerOf 7 = some 0 ↔ 7 ∈ (s.workers 0).pool ∨
      7 ∈ (s.workers 0).spawnRx.map SpawnRequest.addr ++ (s.workers 0).phase.dying :=
  (actors_in_one_place ⟨9, 9⟩ [.spawn 7] 0).1 7

end System

end Swactor.Runtime
