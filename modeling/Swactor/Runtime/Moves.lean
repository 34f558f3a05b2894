import Swactor.Runtime.System

/-!
# What can happen to one worker

An action of the runtime touches a worker in one of few ways: something is put into its
queues from outside, a callback that runs on it acts through its context, or a piece of
its own pass is carried out. `Worker.Move` lists them. A property of a worker that each
move preserves holds of every worker in every run.
-/
namespace Swactor.Runtime

open Worker
open Relation (ReflTransGen)

namespace Worker

/-- One change of a worker. -/
inductive Move (W : Type) (cfg : RuntimeConfig) (wk : Worker) : Worker → Prop
  | enqueue (spawns : List SpawnRequest) (envelopes : List Envelope) (cmds : List AdminCommand) :
      Move W cfg wk { wk with
        spawnRx := wk.spawnRx ++ spawns
        transferRx := wk.transferRx ++ envelopes
        adminRx := wk.adminRx ++ cmds }
  | post (requests : Requests) : Move W cfg wk { wk with requests := requests }
  | stage {addr : ActorAddress} (hrunning : wk.phase.running = some addr) (envelope : Envelope) :
      Move W cfg wk { wk with pendingLocal := wk.pendingLocal ++ [envelope] }
  | beginPass (extPending : Bool) : Move W cfg wk (wk.beginPass extPending)
  | advance (here : ActorAddress → Bool) : Move W cfg wk (wk.advance (W := W) cfg here).worker
  | unmap {addr : ActorAddress} {todo : List ActorAddress} {dead : List DeadActor}
      (hphase : wk.phase = .unmap (addr :: todo) dead) :
      Move W cfg wk { wk with phase := .unmap todo dead }
  | extensionWork (hphase : wk.phase = .extensionTick) : Move W cfg wk { wk with didWork := true }
  | inject (hphase : wk.phase = .extensionTick ∨ ∃ dead, wk.phase = .notify dead)
      (dest : ActorAddress) (msg : Payload) :
      Move W cfg wk { wk with pool := (wk.pool.deliver (W := W) dest msg).1 }
  | visit {visited : List ActorAddress} (hphase : wk.phase = .tickAll visited)
      (addr : ActorAddress) : Move W cfg wk (wk.visit (W := W) visited addr).1
  | startReturned {visited : List ActorAddress} {addr : ActorAddress}
      (hphase : wk.phase = .onStart visited addr) (panicked : Bool) :
      Move W cfg wk (wk.startReturned (W := W) visited addr panicked).1
  | handleReturned {visited : List ActorAddress} {addr : ActorAddress} {count : ℕ}
      (hphase : wk.phase = .handle visited addr count) (panicked : Bool) :
      Move W cfg wk (wk.handleReturned (W := W) visited addr count panicked).1
  | stopReturned {dead : List DeadActor} {addr : ActorAddress}
      (hphase : wk.phase = .onStop dead addr) : Move W cfg wk { wk with phase := .cleanup dead }
  | receive {visited : List ActorAddress} {addr : ActorAddress} {count : ℕ}
      (hphase : wk.phase = .mailbox visited addr count) (typed : Bool) :
      Move W cfg wk (wk.receive (W := W) visited addr count typed).1
  | reap {dead : List DeadActor} (hphase : wk.phase = .cleanup dead) (self : W)
      (addr : ActorAddress) : Move W cfg wk (wk.reap self dead addr).1

end Worker

namespace System

variable {n : ℕ} {cfg : RuntimeConfig} {s t u : System n}

/-- Every worker of `t` has come from the same worker of `s` by moves. -/
def Moves (cfg : RuntimeConfig) (s t : System n) : Prop :=
  ∀ v, ReflTransGen (Move (Fin n) cfg) (s.workers v) (t.workers v)

theorem Moves.refl (s : System n) : Moves cfg s s := fun _ => .refl

theorem Moves.trans (h : Moves cfg s t) (h' : Moves cfg t u) : Moves cfg s u :=
  fun v => (h v).trans (h' v)

theorem moves_of_workers_eq (h : t.workers = s.workers) : Moves cfg s t :=
  fun _ => h ▸ .refl

variable {w : Fin n} {addr : ActorAddress}

theorem moves_setWorker {wk : Worker} (h : Move (Fin n) cfg (s.workers w) wk)
    (es : List (Event (Fin n))) : Moves cfg s (s.setWorker w wk es) := by
  intro v
  by_cases hv : v = w
  · subst hv
    simpa [setWorker] using ReflTransGen.single h
  · simp [setWorker, hv, ReflTransGen.refl]

theorem moves_transfer (s : System n) (w : Fin n) (e : Envelope) :
    Moves cfg s (s.transfer w e) := by
  have h : Move (Fin n) cfg (s.workers w) _ := .enqueue [] [e] []
  exact moves_setWorker (by simpa using h) []

theorem moves_stage (hrunning : (s.workers w).phase.running = some addr) (e : Envelope) :
    Moves cfg s (s.stage w e) :=
  moves_setWorker (.stage hrunning e) []

section

variable (s : System n)

theorem moves_spawnOn (w : Fin n) (req : SpawnRequest) : Moves cfg s (s.spawnOn w req) := by
  unfold spawnOn
  split_ifs
  · have h : Move (Fin n) cfg (s.workers w) _ := .enqueue [req] [] []
    exact moves_setWorker (by simpa using h) [.spawned req.addr w]
  · exact .refl s

theorem moves_notifyWorker (dest : ActorAddress) : Moves cfg s (s.notifyWorker dest) := by
  unfold notifyWorker
  split
  · exact moves_transfer (s.accept .runtime dest) _ _
  · exact .refl s

theorem moves_answerCensus (acc : ℕ) : Moves cfg s (s.answerCensus acc) := by
  unfold answerCensus
  split
  · split_ifs
    · exact moves_notifyWorker { s with censuses := s.censuses.set acc none } _
    · exact moves_of_workers_eq rfl
  · exact .refl s

theorem moves_admin (cmd : AdminCommand) : Moves cfg s (s.admin cmd) := by
  unfold admin
  split
  · rename_i w _
    have h : Move (Fin n) cfg (s.workers w) _ := .enqueue [] [] [cmd]
    exact moves_setWorker (by simpa using h) []
  · exact .refl s

theorem moves_listActors (replyTo : ActorAddress) : Moves cfg s (s.listActors replyTo) := by
  intro v
  have h : Move (Fin n) cfg (s.workers v) _ :=
    .enqueue [] [] [.listActors s.censuses.length]
  exact .single (by simpa [listActors] using h)

end

theorem moves_routeRuntimeMessage
    (hphase : (s.workers w).phase = .extensionTick ∨ ∃ dead, (s.workers w).phase = .notify dead)
    (dest : ActorAddress) : Moves cfg s (s.routeRuntimeMessage w dest) := by
  unfold routeRuntimeMessage
  split_ifs
  · exact moves_setWorker (s := s.accept .runtime dest) (.inject hphase dest _) _
  · exact moves_notifyWorker s dest

section

variable (hrunning : (s.workers w).phase.running = some addr)
include hrunning

theorem moves_sendAny (dest : ActorAddress) : Moves cfg s (s.sendAny w addr dest) := by
  unfold sendAny
  split
  · split_ifs
    · exact moves_stage (s := s.accept (.actor addr) dest) hrunning _
    · exact moves_transfer (s.accept (.actor addr) dest) _ _
  · exact .refl s

theorem moves_sendStop (dest : ActorAddress) (exit : Option ExitValue) :
    Moves cfg s (s.sendStop w dest exit) := by
  unfold sendStop
  split
  · split_ifs
    · exact moves_stage hrunning _
    · exact moves_transfer s _ _
  · exact .refl s

theorem moves_perform (eff : Effect) : Moves cfg s (s.perform w addr eff) := by
  cases eff with
  | send dest => exact moves_sendAny hrunning dest
  | stopActor dest exit => exact moves_sendStop hrunning dest exit
  | spawn child => exact moves_spawnOn s w _
  | requestStop | requestStopWith | requestSuspend => exact moves_setWorker (.post _) []
  | requestResume target => exact moves_stage hrunning _

end

theorem moves_advance (s : System n) (w : Fin n) : Moves cfg s (s.advance cfg w) := by
  unfold advance
  split
  · rename_i hphase
    exact moves_setWorker (.unmap hphase) []
  · let out : Outcome (Fin n) := (s.workers w).advance cfg (s.here w)
    have h : Moves cfg s (s.setWorker w out.worker out.events) :=
      moves_setWorker (.advance (s.here w)) out.events
    unfold applyOutcome
    split
    · exact h.trans (moves_answerCensus _ _)
    · exact h

/-- Every action is made of moves of the workers. -/
theorem moves_step [NeZero n] (s : System n) (a : Action n) : Moves cfg s (s.step cfg a) := by
  cases a with
  | spawn addr => exact moves_spawnOn { s with rrWorker := wrappingAdd s.rrWorker 1 } _ _
  | sendTo handle dest =>
    unfold step sendTo
    dsimp only
    split
    · exact moves_transfer (s.accept (.external handle) dest) _ _
    · exact .refl s
  | stopActor dest exit =>
    unfold step stopActor
    dsimp only
    split
    · exact moves_transfer s _ _
    · exact .refl s
  | admin cmd => exact moves_admin s cmd
  | listActors replyTo => exact moves_listActors s replyTo
  | dropListActorsRequest acc => exact moves_of_workers_eq rfl
  | beginPass w extPending => exact moves_setWorker (.beginPass extPending) []
  | advance w => exact moves_advance s w
  | inject w dest =>
    unfold step
    dsimp only
    split
    · rename_i hphase
      refine (moves_setWorker (.extensionWork hphase) []).trans (moves_routeRuntimeMessage ?_ dest)
      exact Or.inl (by simpa [setWorker] using hphase)
    · rename_i hphase
      exact moves_routeRuntimeMessage (Or.inr ⟨_, hphase⟩) dest
    · exact .refl s
  | visit w addr =>
    unfold step
    dsimp only
    split
    · rename_i hphase
      exact moves_setWorker (.visit hphase addr) _
    · exact .refl s
  | effect w eff =>
    unfold step
    dsimp only
    split
    · rename_i hrunning
      exact moves_perform hrunning eff
    · exact .refl s
  | callbackReturned w panicked =>
    unfold step
    dsimp only
    split
    · rename_i hphase
      exact moves_setWorker (.startReturned hphase panicked) _
    · rename_i hphase
      exact moves_setWorker (.handleReturned hphase panicked) _
    · rename_i hphase
      exact moves_setWorker (.stopReturned hphase) []
    · exact .refl s
  | receive w typed =>
    unfold step
    dsimp only
    split
    · rename_i hphase
      exact moves_setWorker (.receive hphase typed) _
    · exact .refl s
  | reap w addr =>
    unfold step
    dsimp only
    split
    · rename_i hphase
      exact moves_setWorker (.reap hphase w addr) _
    · exact .refl s

/-- A property of new workers that the moves preserve holds of every worker in every run. -/
theorem run_worker_invariant [NeZero n] {P : Worker → Prop} (hnew : P {})
    (hmove : ∀ wk wk', P wk → Move (Fin n) cfg wk wk' → P wk')
    (actions : List (Action n)) (v : Fin n) : P ((run cfg actions).workers v) := by
  have hmoves (wk wk' : Worker) (hwk : P wk)
      (h : ReflTransGen (Move (Fin n) cfg) wk wk') : P wk' := by
    induction h with
    | refl => exact hwk
    | tail _ hlast ih => exact hmove _ _ ih hlast
  have hrun : ∀ v, P ((run cfg actions).workers v) := by
    refine List.foldlRecOn (motive := fun r : System n => ∀ v, P (r.workers v)) actions
      (step cfg) (fun _ => hnew) fun s hs a _ v => ?_
    exact hmoves _ _ (hs v) (moves_step s a v)
  exact hrun v

end System

end Swactor.Runtime
