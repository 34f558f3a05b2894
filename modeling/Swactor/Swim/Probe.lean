import Swactor.Lib.Machine
import Swactor.Swim.MemberList

/-!
# The SWIM probe cycle

The probe machine pings members in turn, falls back to indirect probes, suspects
a member that does not answer and declares it dead when its suspicion timer runs
out. It is driven by events that carry the clock. Instants and durations are
nanoseconds. Of the member list the machine changes only entries it declares
dead; every other change is requested by an action.
-/
namespace Swactor.Swim

open List
open Machine (andThen collect)

structure LifeguardConfig where
  maxHealthScore : ℕ
  nackPenalty : ℕ
  ackReward : ℕ
  baseSuspicionTimeout : ℕ
  minSuspicionTimeout : ℕ
  maxSuspicionTimeout : ℕ
  deriving DecidableEq, Repr

/-- The local health multiplier; score `0` is a healthy node. -/
structure HealthMultiplier where
  config : LifeguardConfig
  score : ℕ
  deriving DecidableEq, Repr

namespace HealthMultiplier

def new (config : LifeguardConfig) : HealthMultiplier := ⟨config, 0⟩

def recordAck (h : HealthMultiplier) : HealthMultiplier :=
  { h with score := h.score - h.config.ackReward }

def recordNack (h : HealthMultiplier) : HealthMultiplier :=
  { h with score := min (h.score + h.config.nackPenalty) h.config.maxHealthScore }

def multiplier (h : HealthMultiplier) : ℕ := 1 + h.score

/-- `ceil(log2(n))`: the number of bits of `n - 1`. -/
def log2Ceil (n : ℕ) : ℕ := if n ≤ 1 then 0 else Nat.log2 (n - 1) + 1

/-- The base timeout scaled by cluster size and health, clamped to the configured band. -/
def dynamicSuspicionTimeout (h : HealthMultiplier) (clusterSize : ℕ) : ℕ :=
  let logN := max (log2Ceil (clusterSize + 1)) 1
  let scale := min (logN * h.multiplier) (2 ^ 32 - 1)
  let timeout := h.config.baseSuspicionTimeout * scale
  if timeout < h.config.minSuspicionTimeout then h.config.minSuspicionTimeout
  else if timeout > h.config.maxSuspicionTimeout then h.config.maxSuspicionTimeout
  else timeout

end HealthMultiplier

inductive ProbeMode
  | periodic
  | reactive (safetySweepInterval : ℕ)
  deriving DecidableEq, Repr

structure SwimConfig where
  probeInterval : ℕ
  probeTimeout : ℕ
  indirectProbes : ℕ
  suspicionTimeout : ℕ
  deadReprobeInterval : ℕ
  probeMode : ProbeMode
  lifeguard : Option LifeguardConfig
  deriving DecidableEq, Repr

/-- `SwimConfig::default()`. -/
def SwimConfig.default : SwimConfig where
  probeInterval := 200000000
  probeTimeout := 15000000000
  indirectProbes := 2
  suspicionTimeout := 45000000000
  deadReprobeInterval := 1000000000
  probeMode := .periodic
  lifeguard := none

/-- A configuration with short probes and a suspicion timeout of 100, for examples. -/
def SwimConfig.quick : SwimConfig :=
  { SwimConfig.default with
    probeInterval := 1
    probeTimeout := 1
    suspicionTimeout := 100
    deadReprobeInterval := 0 }

inductive SwimEvent
  | tick
  | ackReceived (sender : NodeId) (sequence : ℕ)
  | indirectAckReceived (target : NodeId) (sequence : ℕ)
  | sendFailed (dest : NodeId)
  deriving DecidableEq, Repr

/-- The `kind` of a diagnostic event. -/
inductive ProbeKind
  | direct
  | indirect
  deriving DecidableEq, Repr

inductive SwimDiagEvent
  | probeAcked (target : NodeId) (sequence : ℕ) (kind : ProbeKind)
  | probeTimedOut (target : NodeId) (sequence : ℕ) (kind : ProbeKind) (budgetMillis : ℕ)
  deriving DecidableEq, Repr

inductive SwimAction
  | sendPing (dest : NodeId) (sequence : ℕ)
  | sendPingReq (relay target : NodeId) (sequence : ℕ)
  | suspect (id : NodeId)
  | declareDead (id : NodeId)
  | diag (event : SwimDiagEvent)
  deriving DecidableEq, Repr

inductive ProbePhase
  | idle
  | waitingDirectAck (target : NodeId) (sequence sentAt : ℕ)
  | waitingIndirectAck (target : NodeId) (sequence sentAt : ℕ)
  deriving DecidableEq, Repr

/-- The node a probe is in flight to. -/
def ProbePhase.target? : ProbePhase → Option NodeId
  | idle => none
  | waitingDirectAck target _ _ => some target
  | waitingIndirectAck target _ _ => some target

structure SuspicionTimer where
  nodeId : NodeId
  startedAt : ℕ
  deriving DecidableEq, Repr

/-- `PROBE_HISTORY_SIZE`. -/
def probeHistorySize : ℕ := 16

/-- `MAX_DEMAND_QUEUE`. -/
def maxDemandQueue : ℕ := 32

structure SwimProbe where
  config : SwimConfig
  now : ℕ
  stepCounter : ℕ
  nextProbeAt : Option ℕ
  sequence : ℕ
  phase : ProbePhase
  probeIndex : ℕ
  probeOrder : List NodeId
  suspicionTimers : List SuspicionTimer
  recentTargets : List NodeId
  nextReprobeAt : Option ℕ
  reprobeIndex : ℕ
  demandQueue : List NodeId
  nextSweepAt : Option ℕ
  health : Option HealthMultiplier
  deriving DecidableEq, Repr

namespace SwimProbe

def new (config : SwimConfig) (now : ℕ) : SwimProbe where
  config := config
  now := now
  stepCounter := 0
  nextProbeAt := some (now + config.probeInterval)
  sequence := 0
  phase := .idle
  probeIndex := 0
  probeOrder := []
  suspicionTimers := []
  recentTargets := []
  nextReprobeAt :=
    if config.deadReprobeInterval > 0 then some (now + config.deadReprobeInterval) else none
  reprobeIndex := 0
  demandQueue := []
  nextSweepAt := match config.probeMode with
    | .reactive interval => some (now + interval)
    | .periodic => none
  health := config.lifeguard.map HealthMultiplier.new

/-- Exchange two positions of the probe order. -/
def swap (order : List NodeId) (i j : ℕ) : List NodeId :=
  match order[i]?, order[j]? with
  | some a, some b => (order.set i b).set j a
  | _, _ => order

/-- The shuffle loop, from the last index down to `1`. -/
def shuffle (stepCounter : ℕ) : ℕ → List NodeId → List NodeId
  | 0, order => order
  | i + 1, order =>
      let j := (wrappingAdd (stepCounter * 31) (i + 1)) % (i + 2)
      shuffle stepCounter i (swap order (i + 1) j)

section

variable (p : SwimProbe) (members : MemberList)

/-- Round-robin over a shuffled order that is rebuilt when it is exhausted or when the number
of non-dead members differs from its length. -/
def pickProbeTarget : SwimProbe × Option NodeId :=
  let alive := members.aliveMembers
  if alive = [] then (p, none)
  else
    let p := if p.probeIndex ≥ p.probeOrder.length ∨ p.probeOrder.length ≠ alive.length then
        { p with
          probeOrder := shuffle p.stepCounter (alive.length - 1) alive
          probeIndex := 0 }
      else p
    ({ p with probeIndex := p.probeIndex + 1 }, p.probeOrder[p.probeIndex]?)

/-- The first `indirect_probes` non-dead members other than `target` after a rotation. -/
def pickRelays (target : NodeId) : List NodeId :=
  let alive := members.aliveMembers.filter fun id => id ≠ target
  let k := min p.config.indirectProbes alive.length
  let start := if alive = [] then 0 else p.stepCounter % alive.length
  (List.range k).filterMap fun i => alive[(start + i) % alive.length]?

/-- Start a directed probe to a specific target. -/
def startProbeFor (target : NodeId) : SwimProbe × List SwimAction :=
  let recent := if p.recentTargets.length ≥ probeHistorySize then p.recentTargets.tail
    else p.recentTargets
  let sequence := p.sequence + 1
  ({ p with
      recentTargets := recent ++ [target]
      sequence := sequence
      phase := .waitingDirectAck target sequence p.now },
    [.sendPing target sequence])

/-- Whether a deadline has not been reached yet. -/
def pending (deadline : Option ℕ) : Bool := deadline.any fun at' => p.now < at'

/-- Probe the target a pick yields, if any. -/
def probePicked : SwimProbe × List SwimAction :=
  let picked := p.pickProbeTarget members.cloneShallow
  match picked.2 with
  | some target => picked.1.startProbeFor target
  | none => (picked.1, [])

def maybeStartProbe : SwimProbe × List SwimAction :=
  if p.pending p.nextProbeAt then (p, [])
  else if p.phase ≠ .idle then (p, [])
  else { p with nextProbeAt := some (p.now + p.config.probeInterval) }.probePicked members

def startSuspicionTimer (id : NodeId) : SwimProbe :=
  if p.suspicionTimers.any fun t => t.nodeId = id then p
  else { p with suspicionTimers := p.suspicionTimers ++ [⟨id, p.now⟩] }

def cancelSuspicionTimer (id : NodeId) : SwimProbe :=
  { p with suspicionTimers := p.suspicionTimers.filter fun t => t.nodeId ≠ id }

/-- A probe without a direct ack goes indirect, one without an indirect ack ends in suspicion. -/
def checkProbeTimeout : SwimProbe × List SwimAction :=
  let millis := p.config.probeTimeout / 1000000
  match p.phase with
  | .waitingDirectAck target sequence sentAt =>
      if p.now - sentAt ≥ p.config.probeTimeout then
        ({ p with phase := .waitingIndirectAck target sequence p.now },
          .diag (.probeTimedOut target sequence .direct millis) ::
            (p.pickRelays members target).map fun relay => .sendPingReq relay target sequence)
      else (p, [])
  | .waitingIndirectAck target sequence sentAt =>
      if p.now - sentAt ≥ p.config.probeTimeout then
        ({ p.startSuspicionTimer target with
            phase := .idle
            health := p.health.map HealthMultiplier.recordNack },
          [.diag (.probeTimedOut target sequence .indirect millis), .suspect target])
      else (p, [])
  | .idle => (p, [])

/-- End the probe that an ack answered. -/
def completeProbe (target : NodeId) (sequence : ℕ) (kind : ProbeKind) :
    SwimProbe × List SwimAction :=
  ({ p.cancelSuspicionTimer target with
      phase := .idle
      health := p.health.map HealthMultiplier.recordAck },
    [.diag (.probeAcked target sequence kind)])

def handleAck (sender : NodeId) (sequence : ℕ) : SwimProbe × List SwimAction :=
  match p.phase with
  | .waitingDirectAck target expected _ =>
      if sender = target ∧ sequence = expected then p.completeProbe sender sequence .direct
      else (p, [])
  | .waitingIndirectAck target expected _ =>
      if sender = target ∧ sequence = expected then p.completeProbe sender sequence .indirect
      else (p, [])
  | .idle => (p, [])

def handleIndirectAck (target : NodeId) (sequence : ℕ) : SwimProbe × List SwimAction :=
  match p.phase with
  | .waitingIndirectAck expected expectedSeq _ =>
      if target = expected ∧ sequence = expectedSeq then
        p.completeProbe target sequence .indirect
      else (p, [])
  | _ => (p, [])

/-- The suspicion timeout in force: never below the configured one. -/
def suspicionTimeout (p : SwimProbe) (members : MemberList) : ℕ :=
  match p.health with
  | some health => max p.config.suspicionTimeout (health.dynamicSuspicionTimeout members.len)
  | none => p.config.suspicionTimeout

/-- One expired timer: a node that is still suspect is declared dead and a probe of it is
abandoned. The timer goes in any case. -/
def expire (s : SwimProbe × MemberList) (id : NodeId) :
    (SwimProbe × MemberList) × List SwimAction :=
  let stillSuspect := (s.2.get id).any fun e => e.state = .suspect
  if stillSuspect ∧ (s.2.declareDead id).2 then
    let phase := if s.1.phase.target? = some id then .idle else s.1.phase
    (({ s.1 with phase := phase }.cancelSuspicionTimer id, (s.2.declareDead id).1),
      [.declareDead id])
  else ((s.1.cancelSuspicionTimer id, s.2), [])

def checkSuspicionTimeouts : (SwimProbe × MemberList) × List SwimAction :=
  let timeout := p.suspicionTimeout members
  let expired := (p.suspicionTimers.filter fun t => p.now - t.startedAt ≥ timeout).map
    SuspicionTimer.nodeId
  collect expire (p, members) expired

/-- Ping a dead node now and then to detect that a partition has healed. -/
def maybeReprobeDead : SwimProbe × List SwimAction :=
  if p.config.deadReprobeInterval = 0 then (p, [])
  else if p.pending p.nextReprobeAt then (p, [])
  else
    let p := { p with nextReprobeAt := some (p.now + p.config.deadReprobeInterval) }
    let dead := members.deadMembers
    match dead[p.reprobeIndex % dead.length]? with
    | none => (p, [])
    | some target =>
        let sequence := p.sequence + 1
        ({ p with reprobeIndex := wrappingAdd p.reprobeIndex 1, sequence := sequence },
          [.sendPing target sequence])

def isCurrentlyProbing (target : NodeId) : Bool :=
  p.phase.target? = some target

def pushDemand (target : NodeId) : SwimProbe :=
  if p.demandQueue.length < maxDemandQueue then
    { p with demandQueue := p.demandQueue ++ [target] }
  else p

/-- Queue a probe of a newly discovered peer in reactive mode. -/
def enqueueDemandProbe (target : NodeId) : SwimProbe :=
  match p.config.probeMode with
  | .periodic => p
  | .reactive _ =>
      if p.isCurrentlyProbing target ∨ target ∈ p.demandQueue then p else p.pushDemand target

/-- A failed send starts a probe at once or queues one. -/
def handleSendFailed (target : NodeId) (members : MemberList) : SwimProbe × List SwimAction :=
  match members.get target with
  | none => (p, [])
  | some entry =>
      if entry.state = .dead then (p, [])
      else if p.isCurrentlyProbing target then (p, [])
      else if target ∈ p.demandQueue then (p, [])
      else if p.phase = .idle then p.startProbeFor target
      else (p.pushDemand target, [])

def maybeStartDemandProbe : SwimProbe × List SwimAction :=
  if p.phase ≠ .idle then (p, [])
  else match p.demandQueue with
    | [] => (p, [])
    | target :: queue => { p with demandQueue := queue }.startProbeFor target

def maybeSafetySweep : SwimProbe × List SwimAction :=
  if p.pending p.nextSweepAt then (p, [])
  else match p.config.probeMode with
    | .periodic => (p, [])
    | .reactive interval =>
        let p := { p with nextSweepAt := some (p.now + interval) }
        if p.phase ≠ .idle then (p, []) else p.probePicked members

/-- The probes a tick starts, by probe mode. -/
def startProbes : SwimProbe × List SwimAction :=
  match p.config.probeMode with
  | .periodic => p.maybeStartProbe members
  | .reactive _ => andThen p.maybeStartDemandProbe fun q => q.maybeSafetySweep members

def tick : (SwimProbe × MemberList) × List SwimAction :=
  let timedOut := { p with stepCounter := wrappingAdd p.stepCounter 1 }.checkProbeTimeout members
  let expired := timedOut.1.checkSuspicionTimeouts members
  let probed := andThen (expired.1.1.startProbes expired.1.2) fun q =>
    q.maybeReprobeDead expired.1.2
  ((probed.1, expired.1.2), timedOut.2 ++ expired.2 ++ probed.2)

/-- Process an event at clock `now`. -/
def step (now : ℕ) (event : SwimEvent) (members : MemberList) :
    (SwimProbe × MemberList) × List SwimAction :=
  let p := { p with now := now }
  let keep (r : SwimProbe × List SwimAction) := ((r.1, members), r.2)
  match event with
  | .tick => p.tick members
  | .ackReceived sender sequence => keep (p.handleAck sender sequence)
  | .indirectAckReceived target sequence => keep (p.handleIndirectAck target sequence)
  | .sendFailed dest => keep (p.handleSendFailed dest members)

end

/-- A call that at most sends pings: no timer, clock or setting changes. -/
structure Pings (p : SwimProbe) (actions : List SwimAction) (q : SwimProbe) : Prop where
  timers : q.suspicionTimers = p.suspicionTimers
  now : q.now = p.now
  config : q.config = p.config
  only_pings : ∀ a ∈ actions, ∃ dest sequence, a = .sendPing dest sequence

theorem pings_sequential : Machine.Sequential Pings where
  nil p := ⟨rfl, rfl, rfl, by simp⟩
  append h h' := by
    refine ⟨h'.timers.trans h.timers, h'.now.trans h.now, h'.config.trans h.config, ?_⟩
    intro a ha
    exact (mem_append.mp ha).elim (h.only_pings a) (h'.only_pings a)

/-- A target has been picked from the probe order, if there is one. -/
def Started (p : SwimProbe) : Prop := p.probeOrder = [] ∨ 0 < p.probeIndex

/-- A change of the bookkeeping around the probes. -/
structure Aside (p q : SwimProbe) : Prop where
  timers : q.suspicionTimers = p.suspicionTimers
  now : q.now = p.now
  config : q.config = p.config
  sequence : q.sequence = p.sequence
  phase : q.phase = p.phase
  started : p.Started → q.Started

theorem aside_demanded (p : SwimProbe) (target : NodeId) (wanted : Prop) [Decidable wanted] :
    Aside p (if wanted then p.enqueueDemandProbe target else p) := by
  have hdemanded : Aside p (p.enqueueDemandProbe target) := by
    unfold enqueueDemandProbe pushDemand
    split
    · exact ⟨rfl, rfl, rfl, rfl, rfl, id⟩
    · split_ifs <;> exact ⟨rfl, rfl, rfl, rfl, rfl, id⟩
  split
  · exact hdemanded
  · exact ⟨rfl, rfl, rfl, rfl, rfl, id⟩

/-- A relation that holds of the calls that send no ping, of the start of a probe and of the ping
of a dead node, and of such calls one after the other. -/
structure Probing (R : SwimProbe → List SwimAction → SwimProbe → Prop) : Prop
    extends Machine.Sequential R where
  aside : ∀ {p q}, Aside p q → R p [] q
  start : ∀ p target, R p (startProbeFor p target).2 (startProbeFor p target).1
  reprobe : ∀ p target index, R p [.sendPing target (p.sequence + 1)]
    { p with reprobeIndex := index, sequence := p.sequence + 1 }

section Probing

variable {R : SwimProbe → List SwimAction → SwimProbe → Prop} (h : Probing R) (p : SwimProbe)
  (l : MemberList)

include h

omit p l in
theorem Probing.after {p q r : SwimProbe} {actions : List SwimAction} (hr : R q actions r)
    (ha : Aside p q) : R p actions r :=
  h.append (h.aside ha) hr

theorem Probing.probePicked : R p (p.probePicked l).2 (p.probePicked l).1 := by
  have hpick : Aside p (p.pickProbeTarget l.cloneShallow).1 := by
    unfold pickProbeTarget
    dsimp only
    split_ifs
    · exact ⟨rfl, rfl, rfl, rfl, rfl, id⟩
    all_goals exact ⟨rfl, rfl, rfl, rfl, rfl, fun _ => Or.inr (Nat.succ_pos _)⟩
  unfold SwimProbe.probePicked
  dsimp only
  split
  · exact h.after (h.start _ _) hpick
  · exact h.aside hpick

theorem Probing.maybeStartProbe : R p (p.maybeStartProbe l).2 (p.maybeStartProbe l).1 := by
  unfold SwimProbe.maybeStartProbe
  split_ifs
  · exact h.nil p
  · exact h.nil p
  · exact h.after (h.probePicked _ l) ⟨rfl, rfl, rfl, rfl, rfl, id⟩

omit l in
theorem Probing.maybeStartDemandProbe :
    R p p.maybeStartDemandProbe.2 p.maybeStartDemandProbe.1 := by
  unfold SwimProbe.maybeStartDemandProbe
  split_ifs
  · exact h.nil p
  · split
    · exact h.nil p
    · exact h.after (h.start _ _) ⟨rfl, rfl, rfl, rfl, rfl, id⟩

theorem Probing.maybeSafetySweep : R p (p.maybeSafetySweep l).2 (p.maybeSafetySweep l).1 := by
  unfold SwimProbe.maybeSafetySweep
  split_ifs
  · exact h.nil p
  · split
    · exact h.nil p
    · dsimp only
      split_ifs
      · exact h.aside ⟨rfl, rfl, rfl, rfl, rfl, id⟩
      · exact h.after (h.probePicked _ l) ⟨rfl, rfl, rfl, rfl, rfl, id⟩

theorem Probing.startProbes : R p (p.startProbes l).2 (p.startProbes l).1 := by
  unfold SwimProbe.startProbes
  split
  · exact h.maybeStartProbe p l
  · exact h.andThen (h.maybeStartDemandProbe p) (h.maybeSafetySweep _ l)

theorem Probing.maybeReprobeDead : R p (p.maybeReprobeDead l).2 (p.maybeReprobeDead l).1 := by
  unfold SwimProbe.maybeReprobeDead
  split_ifs
  · exact h.nil p
  · exact h.nil p
  · dsimp only
    split
    · exact h.aside ⟨rfl, rfl, rfl, rfl, rfl, id⟩
    · exact h.after (h.reprobe
        { p with nextReprobeAt := some (p.now + p.config.deadReprobeInterval) } _ _)
        ⟨rfl, rfl, rfl, rfl, rfl, id⟩

theorem Probing.handleSendFailed (target : NodeId) :
    R p (p.handleSendFailed target l).2 (p.handleSendFailed target l).1 := by
  unfold SwimProbe.handleSendFailed
  split
  · exact h.nil p
  · split_ifs
    · exact h.nil p
    · exact h.nil p
    · exact h.nil p
    · exact h.start p target
    · refine h.aside ?_
      unfold pushDemand
      split_ifs <;> exact ⟨rfl, rfl, rfl, rfl, rfl, id⟩

/-- The probes that end a tick. -/
theorem Probing.tickProbes :
    R p (andThen (p.startProbes l) fun q => q.maybeReprobeDead l).2
      (andThen (p.startProbes l) fun q => q.maybeReprobeDead l).1 :=
  h.andThen (h.startProbes p l) (h.maybeReprobeDead _ l)

end Probing

theorem pings_probing : Probing Pings where
  toSequential := pings_sequential
  aside h := ⟨h.timers, h.now, h.config, by simp⟩
  start _ _ := ⟨rfl, rfl, rfl, fun _ ha => ⟨_, _, mem_singleton.mp ha⟩⟩
  reprobe _ _ _ := ⟨rfl, rfl, rfl, fun _ ha => ⟨_, _, mem_singleton.mp ha⟩⟩

/-- The nodes a list of actions declares dead. -/
def deaths (actions : List SwimAction) : List NodeId :=
  actions.filterMap fun
    | .declareDead id => some id
    | _ => none

theorem deaths_append (as bs : List SwimAction) : deaths (as ++ bs) = deaths as ++ deaths bs :=
  filterMap_append

theorem Pings.deaths_eq_nil {p q : SwimProbe} {actions : List SwimAction}
    (h : Pings p actions q) : deaths actions = [] := by
  apply filterMap_eq_nil_iff.mpr
  intro a ha
  obtain ⟨dest, sequence, rfl⟩ := h.only_pings a ha
  rfl

theorem deaths_checkProbeTimeout (p : SwimProbe) (l : MemberList) :
    deaths (p.checkProbeTimeout l).2 = [] := by
  unfold checkProbeTimeout
  split
  · split_ifs
    · apply filterMap_eq_nil_iff.mpr
      intro a ha
      obtain rfl | ha := mem_cons.mp ha
      · rfl
      · obtain ⟨relay, -, rfl⟩ := mem_map.mp ha
        rfl
    · rfl
  · split_ifs <;> rfl
  · rfl

/-- An ack ends the probe that it answers, or it is ignored. -/
inductive Acked (p : SwimProbe) (id : NodeId) (sequence : ℕ) :
    SwimProbe × List SwimAction → Prop
  | ignored : Acked p id sequence (p, [])
  | completed (sentAt : ℕ) (kind : ProbeKind)
      (h : p.phase = .waitingDirectAck id sequence sentAt ∨
        p.phase = .waitingIndirectAck id sequence sentAt) :
      Acked p id sequence (p.completeProbe id sequence kind)

theorem handleAck_acked (p : SwimProbe) (sender : NodeId) (sequence : ℕ) :
    p.Acked sender sequence (p.handleAck sender sequence) := by
  unfold handleAck
  split
  next target expected sentAt hphase =>
    split_ifs with h
    · obtain ⟨rfl, rfl⟩ := h
      exact .completed sentAt .direct (.inl hphase)
    · exact .ignored
  next target expected sentAt hphase =>
    split_ifs with h
    · obtain ⟨rfl, rfl⟩ := h
      exact .completed sentAt .indirect (.inr hphase)
    · exact .ignored
  next => exact .ignored

theorem handleIndirectAck_acked (p : SwimProbe) (target : NodeId) (sequence : ℕ) :
    p.Acked target sequence (p.handleIndirectAck target sequence) := by
  unfold handleIndirectAck
  split
  next expected expectedSeq sentAt hphase =>
    split_ifs with h
    · obtain ⟨rfl, rfl⟩ := h
      exact .completed sentAt .indirect (.inr hphase)
    · exact .ignored
  next => exact .ignored

theorem Acked.deaths_eq_nil {p : SwimProbe} {id : NodeId} {sequence : ℕ}
    {out : SwimProbe × List SwimAction} (h : p.Acked id sequence out) : deaths out.2 = [] := by
  cases h <;> rfl

/-- The two outcomes of an expired timer. -/
theorem expire_cases (p : SwimProbe) (l : MemberList) (id : NodeId) :
    ((∀ i, l.get id ≠ some ⟨.suspect, i⟩) ∧
        expire (p, l) id = ((p.cancelSuspicionTimer id, l), [])) ∨
      ∃ i phase, ∃ hg : l.get id = some ⟨.suspect, i⟩,
        expire (p, l) id =
          (({ p with phase := phase }.cancelSuspicionTimer id,
            l.put id ⟨.dead, i⟩ (l.ne_self_of_get hg)), [.declareDead id]) := by
  unfold expire
  obtain ⟨hdead, hg⟩ | ⟨i, hg, hdead⟩ := l.declareDead_cases id
  · refine Or.inl ⟨hg, ?_⟩
    simp [hdead]
  · refine Or.inr ⟨i, if p.phase.target? = some id then .idle else p.phase, hg, ?_⟩
    simp only [hdead, hg, Option.any_some, decide_true, and_self, if_true]

end SwimProbe
end Swactor.Swim
