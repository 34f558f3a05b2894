import Swactor.Lib.Requeue
import Swactor.Runtime.Worker

/-!
# The ingress drains of a pass

An envelope or admin command whose actor is mapped to the worker but not yet installed goes back
to the queue it was taken from. The drains are run here on their own: the address map stays as it
is and nothing arrives. Installing actors is not part of them, so such an item stays stuck.
-/
namespace Swactor.Runtime

open Requeue

variable {W : Type}

theorem ActorPool.mem_deliver {pool : ActorPool} {addr a : ActorAddress} {msg : Payload} :
    a ∈ (pool.deliver (W := W) addr msg).1 ↔ a ∈ pool := by
  unfold deliver
  cases hslot : pool[addr]? with
  | none => rfl
  | some slot => exact Maps.mem_insert_of_getElem? hslot

namespace Worker

theorem mem_applyAdminCommand {pool : ActorPool} {a : ActorAddress} {cmd : AdminCommand} :
    a ∈ (applyAdminCommand (W := W) pool cmd).1 ↔ a ∈ pool := by
  cases cmd with
  | stopActor actor =>
    simp only [applyAdminCommand, ActorPool.stopActorAdmin]
    cases hslot : pool[actor]? with
    | none => rfl
    | some slot => exact Maps.mem_insert_of_getElem? hslot
  | suspendActor actor | resumeActor actor => exact Std.ExtTreeMap.mem_modify
  | listActors | inspectActor | getActorState | replaceActorState => rfl

variable (cfg : RuntimeConfig) (here : ActorAddress → Bool)

/-- The next piece of the pass. -/
def next (wk : Worker) : Worker := (wk.advance (W := Unit) cfg here).worker

/-- The retained envelope that the next piece takes. -/
def deferredFront (wk : Worker) : Option Envelope :=
  match wk.phase with
  | .drainDeferred count =>
      if withinBudget cfg.workerIngressBudget count then wk.deferredTransfers.head? else none
  | _ => none

/-- The retained command that the next piece takes. -/
def deferredAdminFront (wk : Worker) : Option AdminCommand :=
  match wk.phase with
  | .drainDeferredAdmin count =>
      if withinBudget cfg.workerIngressBudget count then wk.deferredAdmin.head? else none
  | _ => none

attribute [local simp] deferredAdminFront

/-- The envelope is for an actor that is mapped here and not installed. -/
def stuck (pool : ActorPool) (e : Envelope) : Bool := e.dest ∉ pool && here e.dest

def stuckAdmin (pool : ActorPool) (cmd : AdminCommand) : Bool :=
  (adminTarget cmd).any fun actor => actor ∉ pool && here actor

variable {cfg here} {wk : Worker} {pool : ActorPool} {count : ℕ}

theorem deliverOrDefer_spec (here : ActorAddress → Bool) (wk : Worker) (e : Envelope) :
    let out := (wk.deliverOrDeferTransfer (W := W) here e).1
    out.deferredTransfers =
        (if stuck here wk.pool e then wk.deferredTransfers ++ [e] else wk.deferredTransfers) ∧
      out.transferRx = wk.transferRx ∧ ∀ a, a ∈ out.pool ↔ a ∈ wk.pool := by
  unfold deliverOrDeferTransfer stuck
  by_cases hmem : e.dest ∈ wk.pool
  · simp [hmem, ActorPool.mem_deliver]
  · by_cases hhere : here e.dest = true <;> simp [hmem, hhere]

theorem applyOrDefer_spec (here : ActorAddress → Bool) (wk : Worker) (cmd : AdminCommand) :
    let out := (wk.applyOrDeferAdminCommand (W := W) here cmd).1.worker
    out.deferredAdmin =
        (if stuckAdmin here wk.pool cmd then wk.deferredAdmin ++ [cmd] else wk.deferredAdmin) ∧
      out.adminRx = wk.adminRx ∧ ∀ a, a ∈ out.pool ↔ a ∈ wk.pool := by
  have hstuck : shouldDeferAdminCommand here wk cmd = stuckAdmin here wk.pool cmd := rfl
  unfold applyOrDeferAdminCommand
  rw [hstuck]
  cases stuckAdmin here wk.pool cmd
  · exact ⟨rfl, rfl, fun _ => mem_applyAdminCommand⟩
  · exact ⟨rfl, rfl, fun _ => .rfl⟩

theorem stuck_congr (hpool : ∀ a, a ∈ wk.pool ↔ a ∈ pool) :
    stuck here wk.pool = stuck here pool ∧ stuckAdmin here wk.pool = stuckAdmin here pool := by
  constructor <;> funext x <;> simp only [stuck, stuckAdmin, hpool]

theorem drains_deferred : Drains (next cfg here) (deferredFront cfg) (stuck here pool)
    cfg.workerIngressBudget fun count queue wk => wk.phase = .drainDeferred count ∧
      wk.deferredTransfers = queue ∧ ∀ a, a ∈ wk.pool ↔ a ∈ pool where
  front_eq := by
    rintro count _ wk ⟨hphase, rfl, -⟩
    simp [deferredFront, hphase, withinBudget]
  pos_next := by
    rintro count e queue wk ⟨hphase, hqueue, hpool⟩ hfront
    have hbudget : withinBudget cfg.workerIngressBudget count = true := by
      by_contra hover
      simp [deferredFront, hphase, hover] at hfront
    obtain ⟨hdeferred, -, hmem⟩ :=
      deliverOrDefer_spec (W := Unit) here
        { wk with deferredTransfers := queue, phase := .drainDeferred count } e
    simp only [next, advance, hphase, drainDeferred, hbudget, if_true, hqueue]
    rw [← (stuck_congr hpool).1]
    exact ⟨trivial, hdeferred, fun a => (hmem a).trans (hpool a)⟩

theorem drains_deferredAdmin : Drains (next cfg here) (deferredAdminFront cfg)
    (stuckAdmin here pool) cfg.workerIngressBudget fun count queue wk =>
      wk.phase = .drainDeferredAdmin count ∧ wk.deferredAdmin = queue ∧
        ∀ a, a ∈ wk.pool ↔ a ∈ pool where
  front_eq := by
    rintro count _ wk ⟨hphase, rfl, -⟩
    simp [hphase, withinBudget]
  pos_next := by
    rintro count cmd queue wk ⟨hphase, hqueue, hpool⟩ hfront
    have hbudget : withinBudget cfg.workerIngressBudget count = true := by
      by_contra hover
      simp [hphase, hover] at hfront
    obtain ⟨hdeferred, -, hmem⟩ :=
      applyOrDefer_spec (W := Unit) here
        { wk with deferredAdmin := queue, phase := .drainDeferredAdmin count } cmd
    simp only [next, advance, hphase, drainDeferredAdmin, hbudget, if_true, hqueue]
    rw [← (stuck_congr hpool).2]
    exact ⟨trivial, hdeferred, fun a => (hmem a).trans (hpool a)⟩

theorem transfers_return (hphase : wk.phase = .drainTransfers count) :
    ∃ k, ((next cfg here)^[k] wk).phase = .drainDeferredAdmin 0 := by
  refine reaches_of_lt (fun wk : Worker => wk.phase = .drainDeferredAdmin 0)
    (fun n wk => wk.transferRx.length = n ∧ ∃ count, wk.phase = .drainTransfers count) ?_
    ⟨rfl, count, hphase⟩
  rintro _ wk ⟨rfl, count, hphase⟩
  simp only [next, advance, hphase, drainTransfers]
  split
  · cases hqueue : wk.transferRx with
    | nil => exact .inl rfl
    | cons e queue =>
      obtain ⟨-, hrest, -⟩ :=
        deliverOrDefer_spec (W := Unit) here
          { wk with transferRx := queue, phase := .drainTransfers count } e
      exact .inr ⟨queue.length, by simp, congrArg List.length hrest, _, rfl⟩
  · exact .inl rfl

theorem admin_returns (hphase : wk.phase = .drainAdmin count) :
    ∃ k, ((next cfg here)^[k] wk).phase = .extensionTick := by
  refine reaches_of_lt (fun wk : Worker => wk.phase = .extensionTick)
    (fun n wk => wk.adminRx.length = n ∧ ∃ count, wk.phase = .drainAdmin count) ?_
    ⟨rfl, count, hphase⟩
  rintro _ wk ⟨rfl, count, hphase⟩
  simp only [next, advance, hphase, drainAdmin]
  split
  · cases hqueue : wk.adminRx with
    | nil => exact .inl rfl
    | cons cmd queue =>
      obtain ⟨-, hrest, -⟩ :=
        applyOrDefer_spec (W := Unit) here
          { wk with adminRx := queue, phase := .drainAdmin count } cmd
      exact .inr ⟨queue.length, by simp, congrArg List.length hrest, _, rfl⟩
  · exact .inl rfl

theorem leave_deferred (hphase : wk.phase = .drainDeferred count)
    (hnone : deferredFront cfg wk = none) : (next cfg here wk).phase = .drainTransfers count := by
  by_cases hbudget : withinBudget cfg.workerIngressBudget count = true
  · have hempty : wk.deferredTransfers = [] := by
      simpa [deferredFront, hphase, hbudget] using hnone
    simp [next, advance, hphase, drainDeferred, hbudget, hempty]
  · simp [next, advance, hphase, drainDeferred, hbudget]

theorem leave_deferredAdmin (hphase : wk.phase = .drainDeferredAdmin count)
    (hnone : deferredAdminFront cfg wk = none) :
    (next cfg here wk).phase = .drainAdmin count := by
  by_cases hbudget : withinBudget cfg.workerIngressBudget count = true
  · have hempty : wk.deferredAdmin = [] := by
      simpa [hphase, hbudget] using hnone
    simp [next, advance, hphase, drainDeferredAdmin, hbudget, hempty]
  · simp [next, advance, hphase, drainDeferredAdmin, hbudget]

variable (cfg here) in
theorem transfers_return_iff (wk : Worker) :
    (∃ k, ((next cfg here)^[k] { wk with phase := .drainDeferred 0 }).phase =
        .drainDeferredAdmin 0) ↔
      cfg.workerIngressBudget ≠ 0 ∨ ∀ e ∈ wk.deferredTransfers, stuck here wk.pool e = false := by
  refine drains_deferred.reaches_iff (fun wk => wk.phase = .drainDeferredAdmin 0)
    ⟨rfl, rfl, fun _ => .rfl⟩ ?_ ?_
  · intro s hs
    simp [deferredFront, hs]
  · rintro count queue s ⟨hphase, -⟩ hnone
    obtain ⟨k, hk⟩ := transfers_return (leave_deferred hphase hnone)
    exact ⟨k + 1, hk⟩

/-- Without an ingress budget the drains return exactly if nothing is stuck. Each item that was
deferred is taken at most once, so that what is taken is an initial part of them, exactly if
nothing is stuck or the budget does not reach past them. -/
theorem ingress_drains_iff (cfg : RuntimeConfig) (here : ActorAddress → Bool) (wk : Worker) :
    let budget := cfg.workerIngressBudget
    let transfers := { wk with phase := .drainDeferred 0 }
    let admin := { wk with phase := .drainDeferredAdmin 0 }
    (((∃ k, ((next cfg here)^[k] transfers).phase = .drainDeferredAdmin 0) ↔
        budget ≠ 0 ∨ ∀ e ∈ wk.deferredTransfers, stuck here wk.pool e = false) ∧
      ((∀ k, taken (next cfg here) (deferredFront cfg) k transfers <+: wk.deferredTransfers) ↔
        (∀ e ∈ wk.deferredTransfers, stuck here wk.pool e = false) ∨
          budget ≠ 0 ∧ budget ≤ wk.deferredTransfers.length)) ∧
    (((∃ k, ((next cfg here)^[k] admin).phase = .extensionTick) ↔
        budget ≠ 0 ∨ ∀ cmd ∈ wk.deferredAdmin, stuckAdmin here wk.pool cmd = false) ∧
      ((∀ k, taken (next cfg here) (deferredAdminFront cfg) k admin <+: wk.deferredAdmin) ↔
        (∀ cmd ∈ wk.deferredAdmin, stuckAdmin here wk.pool cmd = false) ∨
          budget ≠ 0 ∧ budget ≤ wk.deferredAdmin.length)) := by
  refine ⟨⟨transfers_return_iff cfg here wk, drains_deferred.once_iff ⟨rfl, rfl, fun _ => .rfl⟩⟩,
    drains_deferredAdmin.reaches_iff (fun wk => wk.phase = .extensionTick)
      ⟨rfl, rfl, fun _ => .rfl⟩ ?_ ?_, drains_deferredAdmin.once_iff ⟨rfl, rfl, fun _ => .rfl⟩⟩
  · intro s hs
    simp [hs]
  · rintro count queue s ⟨hphase, -⟩ hnone
    obtain ⟨k, hk⟩ := admin_returns (leave_deferredAdmin hphase hnone)
    exact ⟨k + 1, hk⟩

/-- A message for an actor that is not installed yet, under the unlimited budget. -/
theorem ingress_drain_loops :
    let cfg : RuntimeConfig := ⟨0, 16⟩
    let wk : Worker := { deferredTransfers := [⟨7, .stop⟩], phase := .drainDeferred 0 }
    taken (next cfg fun _ => true) (deferredFront cfg) 2 wk = [⟨7, .stop⟩, ⟨7, .stop⟩] ∧
      ¬∃ k, ((next cfg fun _ => true)^[k] wk).phase = .drainDeferredAdmin 0 := by
  intro cfg wk
  have hnever := (transfers_return_iff cfg (fun _ => true) wk).not.mpr
  exact ⟨by decide, hnever (by decide)⟩

end Worker

end Swactor.Runtime
