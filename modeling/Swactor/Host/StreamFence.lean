import Swactor.Host.StreamMoves

/-!
# Displacements of a stream that are acknowledged

The directory opens a path again once both ends of the displaced stream have acknowledged. When a
binding does so, its transport is told to terminate, is not and never will be installed, or is
quiet; and it opens no more. The exception is a stream that was closed cleanly and still drains:
its transport is left running, and a displacement is acknowledged all the same.
-/
namespace Swactor.Host

open Machine StreamEffect StreamBinding List
open Namespace (StreamIncarnation)

/-- Effects that the fence is not about. -/
def StreamEffect.unfenced : StreamEffect → Bool
  | .streamOpened _ _ | .streamDisplaced _ _ | .install _ => false
  | _ => true

theorem StreamEffect.unfenced_of_quiet {effect : StreamEffect} (h : effect.quiet = true) :
    effect.unfenced = true := by
  cases effect <;> first | rfl | cases h

theorem unfenced_wakeAll {waiters : List ActorAddress} {result : Except StreamError Unit} :
    ∀ effect ∈ wakeAll waiters result, effect.unfenced = true := by
  intro effect heffect
  obtain ⟨replyTo, -, rfl⟩ := mem_map.mp heffect
  rfl

/-- An entry of a log that was extended is an old one or a new one. -/
theorem split_append {A : Type*} {old new before after : List A} {a : A}
    (h : old ++ new = before ++ a :: after) :
    (∃ rest, old = before ++ a :: rest ∧ after = rest ++ new) ∨
      ∃ rest, before = old ++ rest ∧ new = rest ++ a :: after := by
  rcases append_eq_append_iff.mp h with ⟨rest, hbefore, hnew⟩ | ⟨rest, hold, hafter⟩
  · exact .inr ⟨rest, hbefore, hnew⟩
  · cases rest with
    | nil => exact .inr ⟨[], by simpa using hold.symm, by simpa using hafter.symm⟩
    | cons first rest =>
      obtain ⟨rfl, rfl⟩ : first = a ∧ after = rest ++ new := by
        simpa [eq_comm] using hafter
      exact .inl ⟨rest, hold, rfl⟩

/-- What holds of an acknowledgement in the log: what was said before it and what after it.
`quiet` says of a log that the transport had been reported quiet by then. -/
structure StreamCore.Acked (quiet : List StreamEffect → Prop) (c : StreamCore)
    (before after : List StreamEffect) (incarnation : StreamIncarnation) : Prop where
  terminal : c.terminal.isSome
  fence : .terminate incarnation ∈ before ∨ .install incarnation ∉ before ∨ quiet before
  uninstalled : .install incarnation ∉ after
  silent : ∀ ring, .streamOpened incarnation ring ∉ after

/-- The fence of a binding. `was` says that it was terminal when the message came, `clean` that it
was closed cleanly. -/
structure StreamCore.Fence (quiet : List StreamEffect → Prop) (scope : StreamScope)
    (was clean : Prop) (c : StreamCore) : Prop where
  was : was → c.terminal.isSome
  calm : scope.acks → clean → c.terminal.isSome ∧
    (c.transportInstalled = false ∨ c.transportQuiesced = true)
  told : scope.acks → c.transportQuiesced = true → ∀ effects, quiet (c.sent ++ effects)
  installs : ∀ incarnation, .install incarnation ∈ c.sent → c.transportInstalled = true
  ended : c.terminal.isSome → c.transportInstalled = true → ∀ matched,
    c.matched = some matched → .terminate matched.incarnation ∈ c.sent ∨ clean
  fenced : ∀ incarnation ∈ c.fencedDisplacements,
    c.terminal.isSome ∧ c.isMatchedAt incarnation = true
  acked : ∀ before after target incarnation,
    c.sent = before ++ .streamDisplaced target incarnation :: after →
      c.Acked quiet before after incarnation

namespace StreamCore.Fence

variable {quiet : List StreamEffect → Prop} {scope : StreamScope} {was clean : Prop}
  {c c' : StreamCore}

section

variable (h : c.Fence quiet scope was clean)
include h

variable {effects : List StreamEffect}

/-- What happens to the rest of the core does not matter. -/
theorem frame (hsent : c'.sent = c.sent ++ effects)
    (hquiet : ∀ effect ∈ effects, effect.unfenced = true) (hterminal : c'.terminal = c.terminal)
    (hmatched : c'.matched = c.matched)
    (hinstalled : c'.transportInstalled = c.transportInstalled)
    (hfenced : c'.fencedDisplacements = c.fencedDisplacements)
    (hquiesced : scope.acks → c'.transportQuiesced = c.transportQuiesced) :
    c'.Fence quiet scope was clean where
  was hwas := by rw [hterminal]; exact h.was hwas
  calm hacks hclean := by
    rw [hterminal, hinstalled, hquiesced hacks]
    exact h.calm hacks hclean
  told hacks hq more := by
    rw [hsent, append_assoc]
    exact h.told hacks (hquiesced hacks ▸ hq) _
  installs incarnation hmem := by
    rw [hinstalled]
    rw [hsent, mem_append] at hmem
    rcases hmem with hmem | hmem
    · exact h.installs incarnation hmem
    · cases hquiet _ hmem
  ended hsome hon matched hmatch := by
    rw [hsent]
    exact (h.ended (hterminal ▸ hsome) (hinstalled ▸ hon) matched (hmatched ▸ hmatch)).imp_left
      (mem_append_left _)
  fenced incarnation hmem := by
    rw [hfenced] at hmem
    rw [hterminal, isMatchedAt, hmatched]
    exact h.fenced incarnation hmem
  acked before after target incarnation hsplit := by
    rw [hsent] at hsplit
    rcases split_append hsplit with ⟨rest, hold, rfl⟩ | ⟨rest, -, hnew⟩
    · obtain ⟨hsome, hfence, hinstall, hsilent⟩ := h.acked _ _ _ _ hold
      refine ⟨hterminal ▸ hsome, hfence, fun hmem => ?_, fun ring hring => ?_⟩
      · rcases mem_append.mp hmem with hmem | hmem
        · exact hinstall hmem
        · cases hquiet _ hmem
      · rcases mem_append.mp hring with hring | hring
        · exact hsilent ring hring
        · cases hquiet _ hring
    · have hmem : streamDisplaced target incarnation ∈ effects := by simp [hnew]
      cases hquiet _ hmem

/-- A binding that is not terminal has acknowledged nothing, and what happens before it is
terminal does not matter. -/
theorem of_open (hsent : c'.sent = c.sent ++ effects) (hopen : c.terminal = none)
    (hopen' : c'.terminal = none) (hfenced : c'.fencedDisplacements = c.fencedDisplacements)
    (hquiesced : c'.transportQuiesced = c.transportQuiesced)
    (hsilent : ∀ target incarnation, .streamDisplaced target incarnation ∉ effects)
    (hinstalls : ∀ incarnation, .install incarnation ∈ c'.sent → c'.transportInstalled = true) :
    c'.Fence quiet scope was clean where
  was hwas := by simpa [hopen] using h.was hwas
  calm hacks hclean := by simpa [hopen] using (h.calm hacks hclean).1
  told hacks hq more := by
    rw [hsent, append_assoc]
    exact h.told hacks (hquiesced ▸ hq) _
  installs := hinstalls
  ended hsome := by simp [hopen'] at hsome
  fenced incarnation hmem := by
    rw [hfenced] at hmem
    simpa [hopen] using (h.fenced incarnation hmem).1
  acked before after target incarnation hsplit := by
    rw [hsent] at hsplit
    rcases split_append hsplit with ⟨rest, hold, -⟩ | ⟨rest, -, hnew⟩
    · simpa [hopen] using (h.acked _ _ _ _ hold).terminal
    · exact absurd (by simp [hnew]) (hsilent target incarnation)

/-- The transport of the matched stream is fenced as soon as the binding is terminal, unless it
drains. -/
theorem matched (hacks : scope.acks) (hterminal : c.terminal.isSome)
    {incarnation : StreamIncarnation} (hmatched : c.isMatchedAt incarnation = true) :
    .terminate incarnation ∈ c.sent ∨ .install incarnation ∉ c.sent ∨
      c.transportQuiesced = true := by
  cases hon : c.transportInstalled with
  | false =>
    refine .inr (.inl fun hmem => ?_)
    simp [h.installs incarnation hmem] at hon
  | true =>
    obtain ⟨known, hknown, hsame⟩ : ∃ known, c.matched = some known ∧
        known.incarnation = incarnation := by
      simpa [isMatchedAt, Option.any_eq_true] using hmatched
    rcases h.ended hterminal hon known hknown with hmem | hclean
    · exact .inl (hsame ▸ hmem)
    · refine .inr (.inr ?_)
      simpa [hon] using (h.calm hacks hclean).2

/-- One move keeps the fence. -/
theorem move (hclean : scope.clean → ¬was → clean) (hmove : StreamMove scope c c') :
    c'.Fence quiet scope was clean := by
  cases hmove with
  | said effects hquiet =>
    exact h.frame rfl (fun effect heffect => unfenced_of_quiet (hquiet effect heffect))
      rfl rfl rfl rfl fun _ => rfl
  | asked =>
    exact h.frame rfl (by simp [unfenced]) rfl rfl rfl rfl fun _ => rfl
  | matched matched hopen =>
    exact h.of_open (append_nil _).symm hopen hopen rfl rfl (by simp) h.installs
  | terminated error report before after hopen hbefore hafter hterminate =>
    have hnone : ∀ incarnation, incarnation ∉ c.fencedDisplacements := fun incarnation hmem => by
      simpa [hopen] using (h.fenced incarnation hmem).1
    have hquiet : ∀ effect ∈ c.farewell error report before after, effect.unfenced = true := by
      intro effect heffect
      simp only [farewell, mem_append] at heffect
      rcases heffect with heffect | heffect | heffect | heffect | heffect
      · split at heffect
        · rw [mem_singleton.mp heffect]
          rfl
        · simp at heffect
      · exact unfenced_of_quiet (hbefore effect heffect)
      · exact unfenced_wakeAll effect heffect
      · exact unfenced_wakeAll effect heffect
      · exact unfenced_of_quiet (hafter effect heffect)
    have hsame : (c.emitAll (c.farewell error report before after)).Fence quiet scope was clean :=
      h.frame rfl hquiet rfl rfl rfl rfl fun _ => rfl
    refine ⟨fun _ => rfl, fun hacks hcl => ⟨rfl, (h.calm hacks hcl).2⟩, hsame.told, hsame.installs,
      fun _ hon matched hmatch => ?_, fun incarnation hmem => absurd hmem (hnone incarnation),
      fun _ _ _ _ hsplit => ?_⟩
    · by_cases hcl : scope.clean
      · refine .inr (hclean hcl fun hwas => ?_)
        simpa [hopen] using h.was hwas
      · simp only [terminated, emitAll, farewell, mem_append]
        tauto
    · have hsome := (hsame.acked _ _ _ _ hsplit).terminal
      simp [emitAll, hopen] at hsome
  | installed matched hopen =>
    exact h.of_open rfl hopen hopen rfl rfl (by simp) fun _ _ => rfl
  | opened incarnation ring hopen =>
    refine h.of_open rfl hopen hopen rfl rfl (by simp) fun known hmem => h.installs known ?_
    simpa [emitAll] using hmem
  | released =>
    unfold StreamCore.released
    split
    · exact h.frame rfl (by simp [unfenced]) rfl rfl rfl rfl fun _ => rfl
    · refine h.frame rfl (fun effect heffect => ?_) rfl rfl rfl rfl fun _ => rfl
      rcases mem_append.mp heffect with heffect | heffect
      · exact unfenced_wakeAll effect heffect
      · rw [mem_singleton.mp heffect]
        rfl
  | acknowledged incarnation targets hacks hterminal hmatched =>
    have hat : c.isMatchedAt incarnation = true :=
      hmatched.elim id fun hknown => (h.fenced incarnation hknown).2
    refine ⟨h.was, h.calm, fun hacks hq more => ?_,
      fun known hmem => h.installs known (by simpa [emitAll] using hmem),
      fun hsome hon known hknown => (h.ended hsome hon known hknown).imp_left
        (mem_append_left _), h.fenced,
      fun before after target known hsplit => ?_⟩
    · exact append_assoc c.sent _ more ▸ h.told hacks hq _
    rcases split_append hsplit with ⟨rest, hold, rfl⟩ | ⟨rest, rfl, hnew⟩
    · obtain ⟨hsome, hfence, hinstalled, hsilent⟩ := h.acked _ _ _ _ hold
      exact ⟨hsome, hfence, by simpa using hinstalled, by simpa using hsilent⟩
    · obtain ⟨_, _, rfl, rfl, hlast⟩ := map_eq_append_iff.mp hnew
      obtain ⟨_, _, rfl, ⟨⟩, rfl⟩ := map_eq_cons_iff.mp hlast
      refine ⟨hterminal, ?_, by simp, by simp⟩
      refine (h.matched hacks hterminal hat).imp (mem_append_left _)
        (.imp (fun hnone => ?_) fun hq => h.told hacks hq _)
      simpa using hnone
  | fenced incarnation hterminal hmatched =>
    refine { h with
      fenced := fun known hmem => ?_
      acked := fun _ _ _ _ hsplit => { h.acked _ _ _ _ hsplit with } }
    rcases mem_insert_iff.mp hmem with rfl | hmem
    · exact ⟨hterminal, hmatched⟩
    · exact h.fenced known hmem

theorem moves (hclean : scope.clean → ¬was → clean) (hmoves : StreamMoves scope c c') :
    c'.Fence quiet scope was clean := by
  induction hmoves with
  | refl => exact h
  | tail _ hmove ih => exact ih.move hclean hmove

end

end StreamCore.Fence

namespace StreamBinding

/-- The stream is closed cleanly by this message. -/
def closesCleanly (b : StreamBinding) (input : HostStreamIn × StreamServices) : Bool :=
  !b.stopped && b.terminal.isNone &&
    match input.1 with
    | .close clean _ => clean
    | _ => false

theorem closesCleanly_eq_true {b : StreamBinding} {m : HostStreamIn} {env : StreamServices} :
    b.closesCleanly (m, env) = true ↔
      b.stopped = false ∧ b.terminal = none ∧ ∃ replyTo, m = .close true replyTo := by
  unfold closesCleanly
  cases m <;> simp [and_assoc]

variable {clean : Prop} {b : StreamBinding}

/-- What a message changes first keeps the fence. -/
theorem fence_receive {quiet : List StreamEffect → Prop} {scope : StreamScope} {was : Prop}
    (h : b.core.Fence quiet scope was clean) (env : StreamServices) (m : HostStreamIn)
    (hscope : scope.acks → m ≠ .transport .quiesced) :
    (b.receive env m).core.Fence quiet scope was clean := by
  have hwait (replyTo : ActorAddress) (result : Except StreamError Unit) :
      (b.emit (.streamWake replyTo result)).core.Fence quiet scope was clean :=
    h.frame rfl (by simp [unfenced]) rfl rfl rfl rfl fun _ => rfl
  cases m with
  | allocated result | close clean replyTo =>
    exact h.frame (append_nil _).symm (by simp) rfl rfl rfl rfl fun _ => rfl
  | transport event =>
    cases event with
    | quiesced =>
      exact h.frame (append_nil _).symm (by simp) rfl rfl rfl rfl fun hacks =>
        absurd rfl (hscope hacks)
    | dataAvailable | capacityAvailable =>
      exact h.frame rfl unfenced_wakeAll rfl rfl rfl rfl fun _ => rfl
    | ready | fault reason => exact h
  | waitData replyTo | waitCapacity replyTo =>
    simp only [receive, handle]
    split
    · exact hwait replyTo _
    · exact h.frame (append_nil _).symm (by simp) rfl rfl rfl rfl fun _ => rfl
  | releaseComplete result =>
    have hcompleted (b' : StreamBinding) (hb' : b'.core.Fence quiet scope was clean) :
        (b'.completeRelease (result.mapError .allocator)).core.Fence quiet scope was clean := by
      refine hb'.frame rfl (fun effect heffect => ?_) rfl rfl rfl rfl fun _ => rfl
      rcases mem_append.mp heffect with heffect | heffect
      · exact unfenced_wakeAll effect heffect
      · rw [mem_singleton.mp heffect]
        rfl
    apply hcompleted
    split
    · split
      · exact h.frame rfl (by simp [unfenced]) rfl rfl rfl rfl fun _ => rfl
      · exact h
    · exact h
  | _ => exact h

end StreamBinding

/-- A binding, and whether it was closed cleanly. -/
structure WatchedStream where
  binding : StreamBinding
  closed : Bool := false

namespace WatchedStream

def step (w : WatchedStream) (input : HostStreamIn × StreamServices) : WatchedStream :=
  ⟨w.binding.step input, w.closed || w.binding.closesCleanly input⟩

/-- No displacement of the matched stream arrives while the stream was closed cleanly and its
transport still drains. -/
def Drained (w : WatchedStream) (input : HostStreamIn × StreamServices) : Prop :=
  match input.1 with
  | .displaced incarnation _ =>
      w.closed = true → w.binding.isMatchedAt incarnation = true →
        w.binding.transportInstalled = false ∨ w.binding.transportQuiesced = true
  | _ => True

instance (w : WatchedStream) (input : HostStreamIn × StreamServices) :
    Decidable (w.Drained input) := by
  unfold Drained
  split <;> infer_instance

/-- The fence between two messages. -/
structure Fenced (quiet : List StreamEffect → Prop) (w : WatchedStream) : Prop where
  fence : w.binding.core.Fence quiet idle False (w.closed = true)
  closed : w.closed = true → w.binding.terminal.isSome

theorem binding_foldl (w : WatchedStream) (inputs : List (HostStreamIn × StreamServices)) :
    (inputs.foldl step w).binding = inputs.foldl StreamBinding.step w.binding := by
  induction inputs generalizing w with
  | nil => rfl
  | cons input inputs ih => exact ih (w.step input)

variable {quiet quiet' : List StreamEffect → Prop} {w : WatchedStream}

theorem Fenced.mono (h : w.Fenced quiet) (hquiet : ∀ log, quiet log → quiet' log) :
    w.Fenced quiet' := by
  refine ⟨{ h.fence with told := fun hacks => hacks.elim, acked := ?_ }, h.closed⟩
  intro before after target incarnation hsplit
  have hacked := h.fence.acked before after target incarnation hsplit
  exact { hacked with fence := hacked.fence.imp_right (.imp_right (hquiet _)) }

theorem Fenced.step (h : w.Fenced quiet) (input : HostStreamIn × StreamServices)
    (hdrained : w.Drained input)
    (hnow : w.binding.transportQuiesced = true → ∀ effects, quiet (w.binding.sent ++ effects)) :
    (w.step input).Fenced quiet := by
  obtain ⟨b, closed⟩ := w
  obtain ⟨m, env⟩ := input
  by_cases hstopped : b.stopped = true
  · have hsame : WatchedStream.step ⟨b, closed⟩ (m, env) = ⟨b, closed⟩ := by
      simp [WatchedStream.step, StreamBinding.step, StreamBinding.closesCleanly, hstopped]
    rw [hsame]
    exact h
  · have hstopped : b.stopped = false := by simpa using hstopped
    set clean := (closed || b.closesCleanly (m, env)) = true with hcleandef
    have hclean : (b.scope m).clean → ¬(b.terminal.isSome = true) → clean := by
      rintro ⟨replyTo, rfl⟩ hopen
      have hcloses : b.closesCleanly (.close true replyTo, env) = true :=
        StreamBinding.closesCleanly_eq_true.mpr ⟨hstopped, by simpa using hopen, _, rfl⟩
      simp [hcleandef, hcloses]
    have hcalm : (b.scope m).acks → clean → b.terminal.isSome ∧
        (b.transportInstalled = false ∨ b.transportQuiesced = true) := by
      intro hacks hcl
      have hcloses : b.closesCleanly (m, env) = false := by
        rw [Bool.eq_false_iff]
        intro hcloses
        obtain ⟨-, -, replyTo, rfl⟩ := closesCleanly_eq_true.mp hcloses
        rcases hacks with ⟨_, hm, -⟩ | ⟨_, _, hm, -⟩ <;> cases hm
      have hclosed : closed = true := by simpa [hcleandef, hcloses] using hcl
      have hterminal : b.terminal.isSome := h.closed hclosed
      refine ⟨hterminal, ?_⟩
      rcases hacks with ⟨_, -, hopen⟩ | ⟨incarnation, replyTo, rfl, hmatched⟩
      · simp [hopen] at hterminal
      · refine hdrained hclosed (hmatched.elim id fun hknown => ?_)
        exact (h.fence.fenced incarnation hknown).2
    have hstart : b.core.Fence quiet (b.scope m) (b.terminal.isSome = true) clean :=
      { h.fence with
        was := id
        calm := hcalm
        told := fun _ => hnow
        ended := fun hsome hon matched hmatch =>
          (h.fence.ended hsome hon matched hmatch).imp_right fun hclosed => by
            simp [hcleandef, show closed = true from hclosed] }
    have hmoves := (turns_step b env m hstopped fun g hg => (h.fence.fenced g hg).1).moves
    have hscope : (b.scope m).acks → m ≠ .transport .quiesced := by
      rintro (⟨_, rfl, -⟩ | ⟨_, _, rfl, -⟩) <;> simp
    have hfence := (fence_receive hstart env m hscope).moves hclean hmoves
    refine ⟨{ hfence with was := (by simp), calm := (by simp), told := (by simp) },
      fun hcl => ?_⟩
    by_cases hwas : b.terminal.isSome = true
    · exact hfence.was hwas
    · have hcl : (closed || b.closesCleanly (m, env)) = true := hcl
      rw [Bool.or_eq_true] at hcl
      rcases hcl with hclosed | hcloses
      · exact absurd (h.closed hclosed) hwas
      · obtain ⟨-, -, replyTo, rfl⟩ := StreamBinding.closesCleanly_eq_true.mp hcloses
        have hsome : (b.handle env (.close true replyTo)).terminal.isSome :=
          (StreamBinding.frame_beginTerminal _ env _ false false).1
        simp only [WatchedStream.step, StreamBinding.step, hstopped, Bool.false_eq_true, if_false]
        split <;> exact hsome

end WatchedStream

namespace StreamBinding

variable (spawn : StreamSpawn) (self : ActorAddress) (descriptor : List UInt8)
  (env : StreamServices)

theorem fenced_start (quiet : List StreamEffect → Prop) :
    (WatchedStream.mk ((spawn.binding self descriptor).start env) false).Fenced quiet := by
  set b := spawn.binding self descriptor with hb
  have hfresh (pending : Bool) :
      StreamCore.Fence quiet b.starting False False
        { b.core with ringAllocationPending := pending } := by
    constructor <;> simp [core, hb, StreamSpawn.binding]
  obtain ⟨pending, hturns⟩ := turns_start b env rfl
  have hfence := (hfresh pending).moves (by simp) hturns.moves
  exact ⟨⟨(by simp), (by simp), (by simp), hfence.installs, fun hsome hon matched hmatch =>
    (hfence.ended hsome hon matched hmatch).imp_right False.elim, hfence.fenced, hfence.acked⟩,
    (by simp)⟩

/-- The transport was reported quiet at a moment of the run at which no more than the log had been
sent. -/
def QuiescedBy (b : StreamBinding) (env : StreamServices)
    (inputs : List (HostStreamIn × StreamServices)) (log : List StreamEffect) : Prop :=
  ∃ past, past <+: inputs ∧ (b.run env past).transportQuiesced = true ∧
    (b.run env past).sent <+: log

theorem fenced_run {inputs : List (HostStreamIn × StreamServices)}
    (hdrained : Guarded WatchedStream.Drained WatchedStream.step
      ⟨(spawn.binding self descriptor).start env, false⟩ inputs) :
    (inputs.foldl WatchedStream.step ⟨(spawn.binding self descriptor).start env, false⟩).Fenced
      ((spawn.binding self descriptor).QuiescedBy env inputs) := by
  induction inputs using reverseRecOn with
  | nil => exact fenced_start spawn self descriptor env _
  | append_singleton inputs input ih =>
    obtain ⟨hbefore, hlast, -⟩ := guarded_append.mp hdrained
    have hlater (log : List StreamEffect)
        (h : (spawn.binding self descriptor).QuiescedBy env inputs log) :
        (spawn.binding self descriptor).QuiescedBy env (inputs ++ [input]) log :=
      h.imp fun past hpast => ⟨hpast.1.trans (prefix_append inputs [input]), hpast.2⟩
    rw [foldl_append]
    refine ((ih hbefore).mono hlater).step input hlast fun hquiet effects =>
      ⟨inputs, prefix_append .., ?_⟩
    rw [WatchedStream.binding_foldl] at hquiet ⊢
    exact ⟨hquiet, prefix_append ..⟩

/-- A displacement that is acknowledged is a fence: in every run in which no displacement finds
the stream closed cleanly and draining, the transport of the displaced generation has been told
to terminate before the acknowledgement, or was not installed before it, or had been reported quiet
before it; and after it the generation is neither installed nor opened. -/
theorem displacement_fenced (spawn : StreamSpawn) (self : ActorAddress) (descriptor : List UInt8)
    (env : StreamServices) (inputs : List (HostStreamIn × StreamServices))
    (hdrained : Guarded WatchedStream.Drained WatchedStream.step
      ⟨(spawn.binding self descriptor).start env, false⟩ inputs) :
    ∀ before after target incarnation,
      ((spawn.binding self descriptor).run env inputs).sent =
          before ++ .streamDisplaced target incarnation :: after →
        (.terminate incarnation ∈ before ∨ .install incarnation ∉ before ∨
          (spawn.binding self descriptor).QuiescedBy env inputs before) ∧
        .install incarnation ∉ after ∧ ∀ ring, .streamOpened incarnation ring ∉ after := by
  intro before after target incarnation hsplit
  have hfence := (fenced_run spawn self descriptor env hdrained).fence
  rw [WatchedStream.binding_foldl] at hfence
  obtain ⟨-, hfence, hinstall, hsilent⟩ := hfence.acked before after target incarnation hsplit
  exact ⟨hfence, hinstall, hsilent⟩

/-- The sink of a stream at path 0. -/
def sampleSink : StreamSpawn := { path := 0, role := .sink }

/-- The messages come in, and every call succeeds. -/
def served (messages : List HostStreamIn) : List (HostStreamIn × StreamServices) :=
  messages.map fun m => (m, {})

/-- The stream is matched, its transport installed and ready. -/
def openedStream : List HostStreamIn :=
  [.allocated (.ok ⟨⟨256, 1⟩, 0, 1⟩), .namespaceMatched (.ok ⟨⟨1, 3⟩, 4, [], [7], 5, 3⟩),
    .transport .ready]

theorem displacement_fenced_opened :
    let b := (sampleSink.binding 5 []).run {}
      (served (openedStream ++ [.displaced ⟨1, 3⟩ (some 9)]))
    ∃ before after, b.sent = before ++ .streamDisplaced 9 ⟨1, 3⟩ :: after ∧
      .install ⟨1, 3⟩ ∈ before ∧
      (.terminate ⟨1, 3⟩ ∈ before ∨ .install ⟨1, 3⟩ ∉ before ∨
        (sampleSink.binding 5 []).QuiescedBy {}
          (served (openedStream ++ [.displaced ⟨1, 3⟩ (some 9)])) before) ∧
      .install ⟨1, 3⟩ ∉ after ∧ ∀ ring, .streamOpened ⟨1, 3⟩ ring ∉ after := by
  intro b
  have hsent : b.sent = b.sent.dropLast ++ .streamDisplaced 9 ⟨1, 3⟩ :: [] := by decide +kernel
  exact ⟨_, _, hsent, by decide +kernel,
    displacement_fenced sampleSink 5 [] {} _ (by decide +kernel) _ _ _ _ hsent⟩

/-- The stream is closed cleanly and drains; the displacement is acknowledged, the transport is
neither told to terminate nor quiet. -/
theorem draining_stream_acknowledges :
    let b := (sampleSink.binding 5 []).run {}
      (served (openedStream ++ [.close true none, .displaced ⟨1, 3⟩ (some 9)]))
    .streamDisplaced 9 ⟨1, 3⟩ ∈ b.sent ∧ .install ⟨1, 3⟩ ∈ b.sent ∧
      .terminate ⟨1, 3⟩ ∉ b.sent ∧ b.transportQuiesced = false ∧ b.stopped = false := by
  decide +kernel

end StreamBinding

end Swactor.Host
