import Swactor.Runtime.Moves

/-!
# Stop signals and suspension

A stop signal takes effect when it is delivered to a suspended actor, or when a running actor
takes it from its mailbox. Between the two an actor can be suspended with the signal queued: it
is then neither ticked nor stopped, and the signal stays in the mailbox.
-/
namespace Swactor.Runtime

def Payload.isStop : Payload → Bool
  | .stop | .stopWith _ => true
  | .user _ | .resume => false

def ActorSlot.stopQueued (slot : ActorSlot) : Bool := slot.mailbox.any Payload.isStop

namespace ActorPool

/-- No actor is suspended with a stop signal in its mailbox. -/
def Attentive (pool : ActorPool) : Prop :=
  ∀ (addr : ActorAddress) (slot : ActorSlot), pool[addr]? = some slot →
    slot.suspended = true → slot.stopQueued = false

/-- Of a suspended actor the stop signals are those from before, when it was suspended or one of
those that `P` names, or they have been cleared since it was suspended. -/
def Leads (P : ActorAddress → Prop) (pool pool' : ActorPool) : Prop :=
  ∀ (addr : ActorAddress) (slot' : ActorSlot), pool'[addr]? = some slot' →
    slot'.suspended = true → ∃ slot, pool[addr]? = some slot ∧
      (slot'.stopQueued = slot.stopQueued ∧ (slot.suspended = true ∨ P addr) ∨
        slot.suspended = true ∧ slot'.stopQueued = false)

variable {pool pool' : ActorPool} {addr : ActorAddress} {slot slot' : ActorSlot} {W : Type}
  {P Q : ActorAddress → Prop}

theorem Leads.mono (h : Leads P pool pool') (hPQ : ∀ addr, P addr → Q addr) :
    Leads Q pool pool' := by
  intro addr slot' hslot' hsuspended
  obtain ⟨slot, hslot, hsignals⟩ := h addr slot' hslot' hsuspended
  exact ⟨slot, hslot, hsignals.imp_left (.imp_right (.imp_right (hPQ addr)))⟩

theorem leads_refl (pool : ActorPool) : Leads P pool pool :=
  fun _ slot hslot hsuspended => ⟨slot, hslot, .inl ⟨rfl, .inl hsuspended⟩⟩

theorem leads_insert (hslot : pool[addr]? = some slot) (h : slot'.suspended = true →
      slot'.stopQueued = slot.stopQueued ∧ (slot.suspended = true ∨ P addr) ∨
        slot.suspended = true ∧ slot'.stopQueued = false) :
    Leads P pool (pool.insert addr slot') := by
  intro other known hknown hsuspended
  rcases Maps.getElem?_insert_eq_some.mp hknown with ⟨rfl, rfl⟩ | ⟨-, hknown⟩
  · exact ⟨slot, hslot, h hsuspended⟩
  · exact leads_refl pool other known hknown hsuspended

theorem leads_keep (hslot : pool[addr]? = some slot) (hmailbox : slot'.mailbox = slot.mailbox)
    (h : slot'.suspended = true → slot.suspended = true ∨ P addr) :
    Leads P pool (pool.insert addr slot') :=
  leads_insert hslot fun hs => .inl ⟨by rw [ActorSlot.stopQueued, hmailbox]; rfl, h hs⟩

theorem leads_clear (hslot : pool[addr]? = some slot) (hmailbox : slot'.mailbox = [])
    (hsuspended : slot'.suspended = slot.suspended) : Leads P pool (pool.insert addr slot') :=
  leads_insert hslot fun h => .inr ⟨hsuspended ▸ h, by rw [ActorSlot.stopQueued, hmailbox]; rfl⟩

theorem leads_deliver (pool : ActorPool) (addr : ActorAddress) (msg : Payload) :
    Leads P pool (pool.deliver (W := W) addr msg).1 := by
  unfold deliver
  cases hslot : pool[addr]? with
  | none => exact leads_refl pool
  | some slot =>
    refine leads_insert hslot ?_
    cases hsuspended : slot.suspended <;> cases msg <;>
      simp [ActorSlot.deliver, hsuspended, ActorSlot.halt, ActorSlot.stopQueued, Payload.isStop]

theorem leads_modify {f : ActorSlot → ActorSlot}
    (hmailbox : ∀ slot, (f slot).mailbox = slot.mailbox)
    (h : ∀ slot, (f slot).suspended = true → P addr) : Leads P pool (pool.modify addr f) := by
  intro other known hknown hsuspended
  rw [Std.ExtTreeMap.getElem?_modify] at hknown
  split at hknown
  · next heq =>
    obtain rfl := Std.compare_eq_iff_eq.mp heq
    obtain ⟨slot, hslot, rfl⟩ := Option.map_eq_some_iff.mp hknown
    refine ⟨slot, hslot, .inl ⟨?_, .inr (h slot hsuspended)⟩⟩
    rw [ActorSlot.stopQueued, hmailbox]
    rfl
  · exact leads_refl pool other known hknown hsuspended

theorem leads_install (req : SpawnRequest) : Leads P pool (pool.install req) := by
  intro other known hknown hsuspended
  rcases Maps.getElem?_insert_eq_some.mp hknown with ⟨rfl, rfl⟩ | ⟨-, hknown⟩
  · cases hsuspended
  · exact leads_refl pool other known hknown hsuspended

theorem leads_erase (addr : ActorAddress) : Leads P pool (pool.erase addr) :=
  fun other known hknown => leads_refl pool other known (Maps.getElem?_erase_eq_some.mp hknown).2

end ActorPool

open ActorPool List

namespace Worker

variable {W : Type} {wk : Worker} {cfg : RuntimeConfig} {addr : ActorAddress}
  {visited : List ActorAddress} {slot : ActorSlot} {P : ActorAddress → Prop}

/-- The admin command that the worker takes next. -/
def nextAdmin (cfg : RuntimeConfig) (wk : Worker) : Option AdminCommand :=
  match wk.phase with
  | .drainDeferredAdmin count =>
      if withinBudget cfg.workerIngressBudget count then wk.deferredAdmin.head? else none
  | .drainAdmin count =>
      if withinBudget cfg.workerIngressBudget count then wk.adminRx.head? else none
  | _ => none

/-- The moves that suspend an actor: the command at the head of the queue says so, or the actor has
asked for it in the callback that returns. -/
inductive Suspends (W : Type) (cfg : RuntimeConfig) (wk : Worker) (addr : ActorAddress) :
    Worker → Prop
  | admin (here : ActorAddress → Bool) (hnext : wk.nextAdmin cfg = some (.suspendActor addr)) :
      Suspends W cfg wk addr (wk.advance (W := W) cfg here).worker
  | started {visited : List ActorAddress} (hphase : wk.phase = .onStart visited addr)
      (hverdict : wk.requests.verdict addr = .suspend) :
      Suspends W cfg wk addr (wk.startReturned (W := W) visited addr false).1
  | handled {visited : List ActorAddress} {count : ℕ} (here : ActorAddress → Bool)
      (hphase : wk.phase = .afterHandle visited addr count)
      (hverdict : wk.requests.verdict addr = .suspend) :
      Suspends W cfg wk addr (wk.advance (W := W) cfg here).worker

/-- A move that suspends no actor with a stop signal in its mailbox. -/
def Heeds (W : Type) (cfg : RuntimeConfig) (wk wk' : Worker) : Prop :=
  ∀ (addr : ActorAddress) (slot : ActorSlot), wk.pool[addr]? = some slot →
    Suspends W cfg wk addr wk' → slot.stopQueued = false

variable (here : ActorAddress → Bool)

theorem leads_deliverOrDefer (wk : Worker) (e : Envelope) :
    Leads P wk.pool (wk.deliverOrDeferTransfer (W := W) here e).1.pool := by
  unfold deliverOrDeferTransfer
  split
  · exact leads_deliver wk.pool e.dest e.payload
  · split <;> exact leads_refl wk.pool

theorem leads_applyOrDefer (wk : Worker) (cmd : AdminCommand) :
    Leads (cmd = .suspendActor ·) wk.pool
      (wk.applyOrDeferAdminCommand (W := W) here cmd).1.worker.pool := by
  unfold applyOrDeferAdminCommand
  split
  · exact leads_refl wk.pool
  · cases cmd with
    | stopActor actor =>
      simp only [applyAdminCommand, stopActorAdmin]
      cases hslot : wk.pool[actor]? with
      | none => exact leads_refl wk.pool
      | some slot => exact leads_clear hslot rfl rfl
    | suspendActor actor => exact leads_modify (fun _ => rfl) fun _ _ => rfl
    | resumeActor actor => exact leads_modify (fun _ => rfl) (by simp)
    | listActors | inspectActor | getActorState | replaceActorState => exact leads_refl wk.pool

theorem leads_settleRequests (wk : Worker) (slot' : ActorSlot)
    (hslot : wk.pool[addr]? = some slot) (hmailbox : slot'.mailbox = slot.mailbox)
    (hsuspended : slot'.suspended = slot.suspended) (next : Phase)
    (h : wk.requests.verdict addr = .suspend → P addr) :
    Leads P wk.pool (wk.settleRequests (W := W) visited addr slot' next).1.pool := by
  unfold settleRequests
  split
  · exact leads_clear hslot rfl hsuspended
  · exact leads_keep hslot hmailbox fun _ => .inr (h ‹_›)
  · exact leads_keep hslot hmailbox fun hs => .inl (hsuspended ▸ hs)

theorem leads_drainPending (counted : Bool) {next : Worker} (hnext : next.pool = wk.pool) :
    Leads P wk.pool (wk.drainPending (W := W) here counted next).worker.pool := by
  unfold drainPending
  split
  · exact hnext ▸ leads_refl next.pool
  · exact leads_deliverOrDefer here { wk with pendingLocal := _ } _

theorem leads_advance (cfg : RuntimeConfig) (here : ActorAddress → Bool) (wk : Worker)
    (hadmin : ∀ addr, wk.nextAdmin cfg = some (.suspendActor addr) → P addr)
    (hhandled : ∀ visited addr count, wk.phase = .afterHandle visited addr count →
      wk.requests.verdict addr = .suspend → P addr) :
    Leads P wk.pool (wk.advance (W := W) cfg here).worker.pool := by
  have hsame : Leads P wk.pool wk.pool := leads_refl wk.pool
  unfold advance
  split
  · unfold drainSpawns
    dsimp only
    split
    · split
      · exact hsame
      · exact leads_install _
    · exact hsame
  · unfold drainDeferred
    split
    · split
      · exact hsame
      · exact leads_deliverOrDefer here { wk with deferredTransfers := _ } _
    · exact hsame
  · unfold drainTransfers
    split
    · split
      · exact hsame
      · exact leads_deliverOrDefer here { wk with transferRx := _ } _
    · exact hsame
  · unfold drainDeferredAdmin
    split
    · split
      · exact hsame
      · refine (leads_applyOrDefer here { wk with deferredAdmin := _ } _).mono fun addr hcmd => ?_
        exact hadmin addr (by simp [nextAdmin, *])
    · exact hsame
  · unfold drainAdmin
    split
    · split
      · exact hsame
      · refine (leads_applyOrDefer here { wk with adminRx := _ } _).mono fun addr hcmd => ?_
        exact hadmin addr (by simp [nextAdmin, *])
    · exact hsame
  · exact hsame
  · split <;> exact hsame
  · next addr _ hphase =>
    unfold afterHandle
    cases hslot : wk.pool[addr]? with
    | none => exact hsame
    | some slot =>
      exact leads_settleRequests { wk with didWork := true } slot hslot rfl rfl _
        (hhandled _ _ _ ‹_›)
  · exact leads_drainPending here true rfl
  · split
    · split <;> exact hsame
    · exact hsame
  · exact hsame
  · exact hsame
  · exact leads_drainPending here false rfl
  · exact hsame

theorem Move.leads {wk' : Worker} (h : Move W cfg wk wk') :
    Leads (Suspends W cfg wk · wk') wk.pool wk'.pool := by
  have hsame {P : ActorAddress → Prop} : Leads P wk.pool wk.pool := leads_refl wk.pool
  cases h with
  | enqueue | post | stage | unmap | extensionWork | stopReturned => exact hsame
  | beginPass extPending =>
    unfold Worker.beginPass
    split <;> exact hsame
  | advance here =>
    exact leads_advance cfg here wk (fun _ => .admin here) fun _ _ _ => .handled here
  | inject _ dest msg => exact leads_deliver wk.pool dest msg
  | visit _ addr =>
    unfold Worker.visit
    cases hslot : wk.pool[addr]? with
    | none => exact hsame
    | some slot =>
      dsimp only
      split_ifs
      · exact hsame
      · exact leads_clear hslot rfl rfl
      all_goals exact hsame
  | @startReturned visited addr hphase panicked =>
    unfold Worker.startReturned
    cases hslot : wk.pool[addr]? with
    | none => exact hsame
    | some slot =>
      cases panicked with
      | true => exact leads_clear hslot rfl rfl
      | false =>
        refine leads_settleRequests wk { slot with started := true } hslot rfl rfl _ fun hv => ?_
        have hsuspends : Suspends W cfg wk addr _ := .started hphase hv
        simpa [Worker.startReturned, hslot] using hsuspends
  | @handleReturned visited addr _ _ panicked =>
    unfold Worker.handleReturned
    cases hslot : wk.pool[addr]? with
    | none => exact hsame
    | some slot =>
      cases panicked with
      | true => exact leads_clear hslot rfl rfl
      | false => exact leads_keep hslot rfl .inl
  | @receive visited addr _ _ typed =>
    unfold Worker.receive
    cases hslot : wk.pool[addr]? with
    | none => exact hsame
    | some slot =>
      dsimp only
      split
      · exact hsame
      · exact leads_clear hslot rfl rfl
      · exact leads_clear hslot rfl rfl
      · next msg rest hstop hstopWith hmailbox =>
        have hrest {P : ActorAddress → Prop} :
            Leads P wk.pool (wk.pool.insert addr { slot with mailbox := rest }) := by
          refine leads_insert hslot fun hs => .inl ⟨?_, .inl hs⟩
          cases msg <;> simp_all [ActorSlot.stopQueued, Payload.isStop]
        split <;> exact hrest
  | reap _ self addr =>
    unfold Worker.reap
    cases hslot : wk.pool[addr]? with
    | none => exact hsame
    | some slot =>
      dsimp only
      split
      · exact leads_erase addr
      · exact hsame

variable {wk' : Worker}

theorem settleRequests_of_suspend (hverdict : wk.requests.verdict addr = .suspend) (next : Phase) :
    (wk.settleRequests (W := W) visited addr slot next).1.pool[addr]? =
      some { slot with suspended := true } := by
  simp [settleRequests, hverdict]

theorem applyOrDefer_suspend (hslot : wk.pool[addr]? = some slot) :
    (wk.applyOrDeferAdminCommand (W := W) here (.suspendActor addr)).1.worker.pool[addr]? =
      some { slot with suspended := true } := by
  have hmem : addr ∈ wk.pool := Std.ExtTreeMap.mem_iff_isSome_getElem?.mpr (by rw [hslot]; rfl)
  have hdefer : shouldDeferAdminCommand here wk (.suspendActor addr) = false := by
    simp [shouldDeferAdminCommand, adminTarget, hmem]
  simp only [applyOrDeferAdminCommand, hdefer, applyAdminCommand, suspendActorAdmin]
  simp [Std.ExtTreeMap.getElem?_modify_self, hslot]

theorem Suspends.suspended (h : Suspends W cfg wk addr wk') (hslot : wk.pool[addr]? = some slot) :
    ∃ slot', wk'.pool[addr]? = some slot' ∧ slot'.suspended = true ∧
      slot'.mailbox = slot.mailbox := by
  cases h with
  | admin here hnext =>
    refine ⟨{ slot with suspended := true }, ?_, rfl, rfl⟩
    unfold nextAdmin at hnext
    split at hnext
    · obtain ⟨hbudget, hhead⟩ := Option.ite_none_right_eq_some.mp hnext
      obtain ⟨rest, hqueue⟩ := head?_eq_some_iff.mp hhead
      simp only [advance, drainDeferredAdmin, *, if_true]
      refine applyOrDefer_suspend here ?_
      exact hslot
    · obtain ⟨hbudget, hhead⟩ := Option.ite_none_right_eq_some.mp hnext
      obtain ⟨rest, hqueue⟩ := head?_eq_some_iff.mp hhead
      simp only [advance, drainAdmin, *, if_true]
      refine applyOrDefer_suspend here ?_
      exact hslot
    · cases hnext
  | started hphase hverdict =>
    simp only [startReturned, hslot]
    exact ⟨_, settleRequests_of_suspend hverdict _, rfl, rfl⟩
  | handled here hphase hverdict =>
    simp only [advance, hphase, afterHandle, hslot]
    refine ⟨_, settleRequests_of_suspend ?_ _, rfl, rfl⟩
    exact hverdict

theorem Suspends.asked (h : Suspends W cfg wk addr wk') :
    wk.nextAdmin cfg = some (.suspendActor addr) ∨ (∃ visited, wk.phase = .onStart visited addr) ∨
      ∃ visited count, wk.phase = .afterHandle visited addr count := by
  cases h with
  | admin here hnext => exact .inl hnext
  | started hphase => exact .inr (.inl ⟨_, hphase⟩)
  | handled here hphase => exact .inr (.inr ⟨_, _, hphase⟩)

theorem Move.attentive_iff (h : Move W cfg wk wk') (hpool : wk.pool.Attentive) :
    wk'.pool.Attentive ↔ Heeds W cfg wk wk' := by
  constructor
  · intro hpool' addr slot hslot hsuspends
    obtain ⟨slot', hslot', hsuspended, hmailbox⟩ := hsuspends.suspended hslot
    have hclear := hpool' addr slot' hslot' hsuspended
    rwa [ActorSlot.stopQueued, hmailbox] at hclear
  · intro hheeds addr slot' hslot' hsuspended
    obtain ⟨slot, hslot, ⟨hsame, hbefore | hsuspends⟩ | ⟨-, hclear⟩⟩ :=
      h.leads addr slot' hslot' hsuspended
    · exact hsame.trans (hpool addr slot hslot hbefore)
    · exact hsame.trans (hheeds addr slot hslot hsuspends)
    · exact hclear

/-- Whatever happens to a worker, no stop signal ever sits in the mailbox of a suspended actor
exactly if no move suspends an actor with a stop signal in its mailbox; then none does when a pass
ends. -/
theorem stops_heeded_iff (h : wk.pool.Attentive) {wks : List Worker}
    (hmoves : (wk :: wks).IsChain (Move W cfg)) :
    ((∀ wk' ∈ wks, wk'.pool.Attentive) ↔ (wk :: wks).IsChain (Heeds W cfg)) ∧
      ((wk :: wks).IsChain (Heeds W cfg) → ∀ wk' ∈ wks, wk'.phase = .idle →
        ∀ (addr : ActorAddress) (slot : ActorSlot), wk'.pool[addr]? = some slot →
          slot.suspended = true →
            .stop ∉ slot.mailbox ∧ ∀ value, .stopWith value ∉ slot.mailbox) := by
  have hiff : (∀ wk' ∈ wks, wk'.pool.Attentive) ↔ (wk :: wks).IsChain (Heeds W cfg) := by
    induction wks generalizing wk with
    | nil => simp
    | cons next wks ih =>
      obtain ⟨hmove, hrest⟩ := isChain_cons_cons.mp hmoves
      rw [isChain_cons_cons, forall_mem_cons, ← hmove.attentive_iff h]
      exact and_congr_right fun hnext => ih hnext hrest
  refine ⟨hiff, fun hheeds wk' hmem _ addr slot hslot hsuspended => ?_⟩
  have hclear := hiff.mpr hheeds wk' hmem addr slot hslot hsuspended
  simp only [ActorSlot.stopQueued, any_eq_false] at hclear
  exact ⟨fun hstop => hclear _ hstop rfl, fun value hstop => hclear _ hstop rfl⟩

/-- Actor 7 is suspended while a stop signal waits in the mailbox of actor 8, and is then stopped
by a signal itself. -/
theorem stops_heeded_when_suspended :
    let pool : ActorPool := (install {} ⟨7, none⟩).insert 8 { mailbox := [.stop] }
    let wk : Worker := { pool := pool, adminRx := [.suspendActor 7], phase := .drainAdmin 0 }
    let next (wk : Worker) := (wk.advance (W := Unit) ⟨4, 4⟩ fun _ => true).worker
    let last :=
      { next (next wk) with pool := ((next (next wk)).pool.deliver (W := Unit) 7 .stop).1 }
    (next wk).pool[(7 : ActorAddress)]?.map ActorSlot.suspended = some true ∧
      last.pool[(7 : ActorAddress)]?.map ActorSlot.stopping = some true ∧
      last.pool[(8 : ActorAddress)]?.map ActorSlot.mailbox = some [.stop] ∧
      ∀ wk' ∈ [next wk, next (next wk), last], wk'.pool.Attentive := by
  intro pool wk next last
  have hpool : wk.pool.Attentive := by
    intro addr slot hslot hsuspended
    rcases Maps.getElem?_insert_eq_some.mp hslot with ⟨-, rfl⟩ | ⟨-, hslot⟩
    · cases hsuspended
    rcases Maps.getElem?_insert_eq_some.mp hslot with ⟨-, rfl⟩ | ⟨-, hslot⟩
    · cases hsuspended
    · simp at hslot
  have hmoves : [wk, next wk, next (next wk), last].IsChain (Move Unit ⟨4, 4⟩) :=
    .cons_cons (.advance _) (.cons_cons (.advance _)
      (.cons_cons (.inject (.inl rfl) 7 .stop) (.singleton _)))
  refine ⟨by decide +kernel, by decide +kernel, by decide +kernel,
    (stops_heeded_iff hpool hmoves).1.mpr ?_⟩
  refine .cons_cons ?_ (.cons_cons ?_ (.cons_cons ?_ (.singleton _)))
  · rintro addr slot hslot hsuspends
    obtain ⟨⟨⟩⟩ | ⟨_, ⟨⟩⟩ | ⟨_, _, ⟨⟩⟩ := hsuspends.asked
    cases hslot
    rfl
  · intro addr slot _ hsuspends
    obtain ⟨⟨⟩⟩ | ⟨_, ⟨⟩⟩ | ⟨_, _, ⟨⟩⟩ := hsuspends.asked
  · intro addr slot _ hsuspends
    obtain ⟨⟨⟩⟩ | ⟨_, ⟨⟩⟩ | ⟨_, _, ⟨⟩⟩ := hsuspends.asked

end Worker

/-- The actor handles a message while a stop signal is queued behind it, and suspends itself. -/
def sampleSwallow : List (Action 1) :=
  [Action.spawn 7, .sendTo 0 7, .stopActor 7 none, .beginPass 0 false] ++
    replicate 9 (Action.advance 0) ++
    [Action.visit 0 7, .callbackReturned 0 false, .receive 0 true, .effect 0 (.requestSuspend 7),
      .callbackReturned 0 false] ++ replicate 6 (Action.advance 0)

/-- At the end of the pass the actor is suspended and the stop signal is in its mailbox. -/
theorem stop_swallowed :
    let wk := (System.run ⟨4, 4⟩ sampleSwallow).workers 0
    wk.phase = .idle ∧ wk.pool[(7 : ActorAddress)]?.map
      (fun slot => (slot.suspended, slot.stopping, slot.mailbox)) =
        some (true, false, [.stop]) := by
  decide +kernel

end Swactor.Runtime
