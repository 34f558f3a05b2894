import Swactor.Runtime.Moves

/-!
# An idle worker is quiescent

A worker that has no work skips its pass without looking at a mailbox. That is right
because every piece of a pass that leaves something to do behind also counts as work: a
pass that counted none has visited every actor, and each of them is suspended or was left
started with an empty mailbox.
-/
namespace Swactor.Runtime

open ActorSlot List

/-- Nothing is left to do for the actor until someone acts on it. -/
def ActorSlot.Settled (slot : ActorSlot) : Prop :=
  slot.suspended = true ∨ (slot.started = true ∧ slot.mailbox = [])

/-- Settled, or about to be removed, which counts as work. -/
def ActorSlot.Done (slot : ActorSlot) : Prop :=
  slot.Settled ∨ slot.dead = true

namespace Worker

/-- Every pooled actor at an address in `S` is done, unless the pass has counted work. -/
def DoneAt (wk : Worker) (S : ActorAddress → Prop) : Prop :=
  wk.didWork = false → ∀ (addr : ActorAddress) (slot : ActorSlot), S addr →
    wk.pool[addr]? = some slot → slot.Done

/-- Every pooled actor is settled. -/
def AllSettled (wk : Worker) : Prop :=
  ∀ (addr : ActorAddress) (slot : ActorSlot), wk.pool[addr]? = some slot → slot.Settled

/-- The turn of `addr` has come: it is started, and the actors before it are done. -/
def InTurn (wk : Worker) (visited : List ActorAddress) (addr : ActorAddress) : Prop :=
  (wk.DoneAt fun a => a ∈ visited ∧ a ≠ addr) ∧
    ∀ slot : ActorSlot, wk.pool[addr]? = some slot → slot.started = true

/-- What a pass has accounted for at each of its positions. -/
def Accounts (wk : Worker) : Prop :=
  match wk.phase with
  | .idle => wk.hasBacklog = false → wk.AllSettled
  | .drainSpawns false _ | .drainDeferred _ | .drainTransfers _ | .drainDeferredAdmin _
  | .drainAdmin _ | .extensionTick => True
  | .tickAll visited => wk.DoneAt (· ∈ visited)
  | .onStart visited addr => wk.DoneAt fun a => a ∈ visited ∧ a ≠ addr
  | .mailbox visited addr _ | .handle visited addr _ | .afterHandle visited addr _ =>
      wk.InTurn visited addr
  | .drainSpawns true _ | .deliverPending => wk.DoneAt fun _ => True
  | .cleanup dead => dead = [] → wk.pendingLocal = [] ∧ wk.DoneAt fun _ => True
  | .onStop dead _ => dead ≠ []
  | .unmap _ _ | .notify _ => wk.didWork = true
  | .cleanupPending => wk.didWork = false → wk.pendingLocal = [] ∧ wk.AllSettled

attribute [local simp] Accounts

variable {wk wk' : Worker} {addr : ActorAddress} {slot : ActorSlot} {visited : List ActorAddress}

theorem doneAt_of_didWork (h : wk.didWork = true) (S : ActorAddress → Prop) : wk.DoneAt S :=
  fun h' => absurd (h.symm.trans h') (by simp)

/-- The actor whose turn ends is done, the others were. -/
theorem DoneAt.insert (h : wk.DoneAt fun a => a ∈ visited ∧ a ≠ addr) (slot : ActorSlot)
    (hwork : wk'.didWork = false → wk.didWork = false)
    (hpool : wk'.pool = wk.pool.insert addr slot) (hslot : wk'.didWork = false → slot.Done) :
    wk'.DoneAt (· ∈ addr :: visited) := by
  intro hnone a x ha hx
  rw [hpool, Std.ExtTreeMap.getElem?_insert] at hx
  split_ifs at hx with heq
  · obtain rfl : slot = x := by simpa using hx
    exact hslot hnone
  · have hne : a ≠ addr := fun h => heq (Std.compare_eq_iff_eq.mpr h.symm)
    exact h (hwork hnone) a x ⟨(mem_cons.mp ha).resolve_left hne, hne⟩ hx

/-- During the turn of an actor its own slot may change. -/
theorem DoneAt.others (h : wk.DoneAt fun a => a ∈ visited ∧ a ≠ addr)
    (hwork : wk'.didWork = false → wk.didWork = false)
    (hpool : wk'.pool = wk.pool.insert addr slot) :
    wk'.DoneAt fun a => a ∈ visited ∧ a ≠ addr := by
  intro hnone a x ha hx
  rw [hpool, Std.ExtTreeMap.getElem?_insert,
    if_neg fun h => ha.2 (Std.compare_eq_iff_eq.mp h).symm] at hx
  exact h (hwork hnone) a x ha hx

theorem InTurn.insert (h : wk.InTurn visited addr)
    (hwork : wk'.didWork = false → wk.didWork = false)
    (hpool : wk'.pool = wk.pool.insert addr slot) (hstarted : slot.started = true) :
    wk'.InTurn visited addr := by
  refine ⟨h.1.others hwork hpool, fun x hx => ?_⟩
  rw [hpool, Std.ExtTreeMap.getElem?_insert_self] at hx
  obtain rfl := Option.some.inj hx
  exact hstarted

theorem done_of_dead (h : slot.dead = true) : slot.Done := Or.inr h

theorem done_halt (slot : ActorSlot) (exit : Option ExitValue) : (slot.halt exit).Done :=
  Or.inr (by simp [dead, halt])

theorem done_poison (slot : ActorSlot) : slot.poison.Done :=
  Or.inr (by simp [dead, poison])

variable {W : Type} {count : ℕ} {cfg : RuntimeConfig}

theorem visit_accounts (hphase : wk.phase = .tickAll visited) (h : wk.Accounts)
    (addr : ActorAddress) : (wk.visit (W := W) visited addr).1.Accounts := by
  have hdone : wk.DoneAt (· ∈ visited) := by simpa [hphase] using h
  have hothers : wk.DoneAt fun a => a ∈ visited ∧ a ≠ addr :=
    fun hnone a x ha hx => hdone hnone a x ha.1 hx
  unfold visit
  split
  · exact h
  · rename_i slot hslot
    split_ifs with hmem hskip hdead hstarted
    · exact h
    · exact hothers.insert { slot with mailbox := [] } id rfl fun _ => done_of_dead hdead
    · have hsusp : slot.suspended = true := by
        simp only [shouldSkipActor, dead] at hskip hdead
        simp_all
      intro hnone a x ha hx
      rcases mem_cons.mp ha with rfl | ha
      · obtain rfl : slot = x := by simpa using hslot.symm.trans hx
        exact Or.inl (Or.inl hsusp)
      · exact hdone hnone a x ha hx
    · refine ⟨hothers, fun x hx => ?_⟩
      obtain rfl : slot = x := by simpa using hslot.symm.trans hx
      exact hstarted
    · exact hothers

theorem settleRequests_accounts {next : Phase} (h : wk.DoneAt fun a => a ∈ visited ∧ a ≠ addr)
    (hnext : { wk with pool := wk.pool.insert addr slot, phase := next }.Accounts) :
    (wk.settleRequests (W := W) visited addr slot next).1.Accounts := by
  unfold settleRequests
  split
  · exact h.insert (slot.halt _) id rfl fun _ => done_halt slot _
  · exact h.insert { slot with suspended := true } id rfl fun _ => Or.inl (Or.inl rfl)
  · exact hnext

theorem startReturned_accounts (hphase : wk.phase = .onStart visited addr) (h : wk.Accounts)
    (panicked : Bool) : (wk.startReturned (W := W) visited addr panicked).1.Accounts := by
  have hothers : wk.DoneAt fun a => a ∈ visited ∧ a ≠ addr := by simpa [hphase] using h
  unfold startReturned
  split
  · exact h
  · split_ifs
    · exact hothers.insert (poison _) id rfl fun _ => done_poison _
    · refine settleRequests_accounts hothers ⟨hothers.others id rfl, fun x hx => ?_⟩
      rw [Std.ExtTreeMap.getElem?_insert_self] at hx
      obtain rfl := Option.some.inj hx
      rfl

theorem receive_accounts (hphase : wk.phase = .mailbox visited addr count) (h : wk.Accounts)
    (typed : Bool) : (wk.receive (W := W) visited addr count typed).1.Accounts := by
  have hturn : wk.InTurn visited addr := by simpa [hphase] using h
  obtain ⟨hothers, hstarted⟩ := hturn
  unfold receive
  split
  · exact h
  · rename_i slot hslot
    split
    · rename_i hempty
      intro hnone a x ha hx
      by_cases heq : a = addr
      · subst heq
        obtain rfl : slot = x := by simpa using hslot.symm.trans hx
        exact Or.inl (Or.inr ⟨hstarted slot hslot, hempty⟩)
      · exact hothers hnone a x ⟨(mem_cons.mp ha).resolve_left heq, heq⟩ hx
    · exact hothers.insert (slot.halt _) id rfl fun _ => done_halt slot _
    · exact hothers.insert (slot.halt _) id rfl fun _ => done_halt slot _
    · split_ifs <;> exact InTurn.insert ⟨hothers, hstarted⟩ id rfl (hstarted slot hslot)

theorem handleReturned_accounts (hphase : wk.phase = .handle visited addr count) (h : wk.Accounts)
    (panicked : Bool) : (wk.handleReturned (W := W) visited addr count panicked).1.Accounts := by
  have hturn : wk.InTurn visited addr := by simpa [hphase] using h
  unfold handleReturned
  split
  · exact h
  · rename_i slot hslot
    split_ifs
    · exact hturn.1.insert (poison _) id rfl fun _ => done_poison _
    · exact hturn.insert id rfl (hturn.2 slot hslot)

/-- A message that was handled counts as work, whatever the budget leaves in the mailbox. -/
theorem afterHandle_accounts (hphase : wk.phase = .afterHandle visited addr count)
    (h : wk.Accounts) : (wk.afterHandle (W := W) cfg visited addr count).1.Accounts := by
  have hturn : wk.InTurn visited addr := by simpa [hphase] using h
  unfold afterHandle
  split
  · exact h
  · rename_i slot hslot
    refine settleRequests_accounts (doneAt_of_didWork rfl _) ?_
    split_ifs
    · exact hturn.insert (by simp) rfl (hturn.2 slot hslot)
    · exact doneAt_of_didWork rfl _

theorem drainSpawns_accounts {again : Bool} (hphase : wk.phase = .drainSpawns again count)
    (h : wk.Accounts) : (wk.drainSpawns cfg again count).Accounts := by
  cases again with
  | false =>
    unfold drainSpawns
    simp only [Bool.false_eq_true, if_false]
    split
    · split <;> trivial
    · trivial
  | true =>
    have hdone : wk.DoneAt fun _ => True := by simpa [hphase] using h
    unfold drainSpawns
    simp only [if_true]
    split
    · split
      · exact hdone
      · exact doneAt_of_didWork rfl _
    · exact hdone

theorem deliverOrDefer_phase (here : ActorAddress → Bool) (wk : Worker) (envelope : Envelope) :
    (deliverOrDeferTransfer (W := W) here wk envelope).1.phase = wk.phase := by
  unfold deliverOrDeferTransfer
  split_ifs <;> rfl

/-- A pass that still has local messages to place has counted work. -/
theorem drainPending_accounts {here : ActorAddress → Bool} {counted : Bool} {next : Worker}
    (hnext : wk.pendingLocal = [] → next.Accounts)
    (hwork : wk.pendingLocal ≠ [] → (wk.didWork || counted) = true)
    (hrest : ∀ r : Worker, r.phase = wk.phase → r.didWork = true → r.Accounts) :
    (wk.drainPending (W := W) here counted next).worker.Accounts := by
  unfold drainPending
  split
  · rename_i hempty
    exact hnext hempty
  · rename_i e rest hqueue
    have hphase := deliverOrDefer_phase (W := W) here { wk with pendingLocal := rest } e
    exact hrest _ hphase (hwork (by simp [hqueue]))

theorem tickAll_accounts (hphase : wk.phase = .tickAll visited) (h : wk.Accounts)
    (hall : wk.pool.keys.all (· ∈ visited) = true) :
    { wk with phase := .drainSpawns true 0 }.Accounts := by
  have hdone : wk.DoneAt (· ∈ visited) := by simpa [hphase] using h
  intro hnone a x _ hx
  have hkey : a ∈ wk.pool.keys := by
    rw [Std.ExtTreeMap.mem_keys]
    exact Std.ExtTreeMap.mem_iff_isSome_getElem?.mpr (by simp [hx])
  exact hdone hnone a x (by simpa using all_eq_true.mp hall a hkey) hx

/-- A pass that removed nobody ends with settled actors only. -/
theorem cleanup_accounts (hphase : wk.phase = .cleanup []) (h : wk.Accounts)
    (hall : wk.pool.toList.all (fun entry => !entry.2.dead) = true) :
    { wk with phase := .cleanupPending }.Accounts := by
  obtain ⟨hpending, hdone⟩ : wk.pendingLocal = [] ∧ wk.DoneAt fun _ => True := by
    simpa [hphase] using h
  intro hnone
  refine ⟨hpending, fun a x hx => (hdone hnone a x trivial hx).resolve_right ?_⟩
  have hmem := Std.ExtTreeMap.mem_toList_iff_getElem?_eq_some.mpr hx
  simpa using all_eq_true.mp hall _ hmem

theorem advance_accounts {here : ActorAddress → Bool} (h : wk.Accounts) :
    (wk.advance (W := W) cfg here).worker.Accounts := by
  cases hphase : wk.phase with
  | drainSpawns again count =>
    simp only [advance, hphase]
    exact drainSpawns_accounts hphase h
  | drainDeferred | drainTransfers | drainDeferredAdmin | drainAdmin =>
    simp only [advance, hphase, drainDeferred, drainTransfers, drainDeferredAdmin, drainAdmin]
    split
    · split <;> trivial
    · trivial
  | extensionTick =>
    simp only [advance, hphase]
    intro _ a x ha
    exact absurd ha not_mem_nil
  | tickAll visited =>
    simp only [advance, hphase]
    split
    · rename_i hall
      exact tickAll_accounts hphase h hall
    · exact h
  | afterHandle visited addr count =>
    simp only [advance, hphase]
    exact afterHandle_accounts hphase h
  | deliverPending =>
    have hdone : wk.DoneAt fun _ => True := by simpa [hphase] using h
    simp only [advance, hphase]
    refine drainPending_accounts (fun hempty _ => ⟨hempty, hdone⟩) (by simp) fun r hr hwork => ?_
    simpa [hr, hphase] using doneAt_of_didWork hwork _
  | cleanup dead =>
    simp only [advance, hphase]
    split
    · rename_i hall
      split
      · rename_i hdead
        obtain rfl := isEmpty_iff.mp hdead
        exact cleanup_accounts hphase h hall
      · exact rfl
    · exact h
  | unmap todo dead =>
    have hwork : wk.didWork = true := by simpa [hphase] using h
    cases todo with
    | nil =>
      simp only [advance, hphase]
      exact hwork
    | cons addr todo =>
      simp only [advance, hphase]
      exact h
  | notify dead =>
    have hwork : wk.didWork = true := by simpa [hphase] using h
    simp only [advance, hphase]
    exact fun hnone => absurd (hwork.symm.trans hnone) (by simp)
  | cleanupPending =>
    have hsettled : wk.didWork = false → wk.pendingLocal = [] ∧ wk.AllSettled := by
      simpa [hphase] using h
    simp only [advance, hphase]
    refine drainPending_accounts (fun _ hnone => (hsettled hnone).2) (fun hne => ?_)
      fun r hr hwork => ?_
    · by_contra hnone
      exact hne (hsettled (by simpa using hnone)).1
    · have hvac : r.didWork = false → r.pendingLocal = [] ∧ r.AllSettled :=
        fun hnone => absurd (hwork.symm.trans hnone) (by simp)
      simpa [hr, hphase] using hvac
  | idle | onStart | mailbox | handle | onStop =>
    simp only [advance, hphase]
    exact h

theorem reap_accounts (h : wk.Accounts) (self : W) (dead : List DeadActor) (addr : ActorAddress) :
    (wk.reap self dead addr).1.Accounts := by
  unfold reap
  split
  · exact h
  · split
    · dsimp only
      split
      · exact append_ne_nil_of_right_ne_nil _ (cons_ne_nil _ _)
      · exact fun hnil => absurd hnil (by simp)
    · exact h

/-- Every move keeps the account. -/
theorem Move.accounts (h : wk.Accounts) (hmove : Move W cfg wk wk') : wk'.Accounts := by
  cases hmove with
  | enqueue spawns envelopes cmds => exact h
  | post requests => exact h
  | stage hrunning envelope =>
    unfold Accounts at h ⊢
    cases hphase : wk.phase <;> simp only [hphase] at h hrunning ⊢ <;>
      first | exact h | exact absurd hrunning (by simp [Phase.running])
  | beginPass extPending =>
    unfold Worker.beginPass
    split
    · trivial
    · exact h
  | advance here => exact advance_accounts h
  | unmap hphase => simpa [hphase] using h
  | extensionWork hphase => simp [hphase]
  | inject hphase dest msg =>
    rcases hphase with hphase | ⟨dead, hphase⟩
    · simp [hphase]
    · simpa [hphase] using h
  | visit hphase addr => exact visit_accounts hphase h addr
  | startReturned hphase panicked => exact startReturned_accounts hphase h panicked
  | handleReturned hphase panicked => exact handleReturned_accounts hphase h panicked
  | stopReturned hphase =>
    have hne := by simpa [hphase] using h
    exact fun hnil => absurd hnil hne
  | receive hphase typed => exact receive_accounts hphase h typed
  | reap hphase self addr => exact reap_accounts h self _ addr

end Worker

namespace System

/-- Idle means quiescent: in every run, a worker that is not inside a pass and has no work has
empty queues, and each of its actors is suspended or started with an empty mailbox. -/
theorem idle_quiescent {n : ℕ} [NeZero n] (cfg : RuntimeConfig) (actions : List (Action n))
    (w : Fin n) (extPending : Bool) :
    let wk := (run cfg actions).workers w
    wk.phase = .idle → wk.hasWork extPending = false →
      wk.spawnRx = [] ∧ wk.transferRx = [] ∧ wk.deferredTransfers = [] ∧ wk.adminRx = [] ∧
        wk.deferredAdmin = [] ∧
        ∀ (addr : ActorAddress) (slot : ActorSlot), wk.pool[addr]? = some slot →
          slot.suspended = false → slot.started = true ∧ slot.mailbox = [] := by
  intro wk hidle hwork
  have haccounts : wk.Accounts :=
    run_worker_invariant (P := Worker.Accounts) (by simp [Worker.Accounts, Worker.AllSettled])
      (fun _ _ h hmove => hmove.accounts h) actions w
  have hsettled : wk.hasBacklog = false → wk.AllSettled := by
    simpa [Worker.Accounts, hidle] using haccounts
  simp only [Worker.hasWork, Bool.or_eq_false_iff, Bool.not_eq_false', List.isEmpty_iff] at hwork
  obtain ⟨⟨⟨⟨⟨⟨hbacklog, hspawn⟩, htransfer⟩, hdeferred⟩, hadmin⟩, hdeferredAdmin⟩, -⟩ := hwork
  refine ⟨hspawn, htransfer, hdeferred, hadmin, hdeferredAdmin, fun addr slot hslot hrun => ?_⟩
  exact (hsettled hbacklog addr slot hslot).resolve_left (by simp [hrun])

/-- The only worker makes some steps inside its pass. -/
def onward (k : ℕ) : List (Action 1) := List.replicate k (.advance 0)

/-- An actor is spawned and gets a message. The pass in which it handles it is followed by one
that finds nothing to do. -/
theorem idle_quiescent_after_message :
    let actions : List (Action 1) :=
      .spawn 5 :: .sendTo 0 5 :: .beginPass 0 false :: onward 8 ++
        .visit 0 5 :: .callbackReturned 0 false :: .receive 0 true ::
        .callbackReturned 0 false :: .advance 0 :: .receive 0 true :: onward 5 ++
        .beginPass 0 false :: onward 6 ++ .visit 0 5 :: .receive 0 true :: onward 5
    let wk := (run ⟨0, 0⟩ actions).workers 0
    5 ∈ wk.pool ∧ wk.transferRx = [] ∧
      ∀ slot : ActorSlot, wk.pool[(5 : ActorAddress)]? = some slot →
        slot.suspended = false → slot.started = true ∧ slot.mailbox = [] := by
  intro actions wk
  obtain ⟨-, htransfer, -, -, -, hslots⟩ := idle_quiescent ⟨0, 0⟩ actions 0 false
    (by decide +kernel) (by decide +kernel)
  exact ⟨by decide +kernel, htransfer, fun slot => hslots 5 slot⟩

end System

end Swactor.Runtime
