import Swactor.Swim.View

/-!
# Suspicion timers and early deaths

A member may be declared dead only after it has been suspect, at one incarnation
and without interruption, for the suspicion timeout. The log of a run stamps each
reported change with the clock. The timers live in the probe machine and the
suspicion in the member list: a refutation learned by gossip leaves the timer
running, so that a later suspicion inherits it. The bound holds in runs in which
no new suspicion meets a timer that was started at an earlier clock.
-/
namespace Swactor.Swim
open SwimProbe List
open Machine (Guarded Sequential andThen collect)

/-- Reported changes with the clock of the call that reported them. -/
abbrev Log := List (ℕ × NodeRecord)

def stamp (clock : ℕ) (actions : List NodeAction) : Log :=
  (changes actions).map fun change => (clock, change)

theorem stamp_append (clock : ℕ) (as bs : List NodeAction) :
    stamp clock (as ++ bs) = stamp clock as ++ stamp clock bs := by
  rw [stamp, changes_append, map_append]
  rfl

/-- The last change of a member. -/
def lastChange (log : Log) (id : NodeId) : Option (ℕ × NodeRecord) :=
  log.reverse.find? fun x => x.2.nodeId = id

/-- The member became suspect at clock `since` and nothing has changed it afterwards. -/
def SuspectSince (log : Log) (id : NodeId) (incarnation since : ℕ) : Prop :=
  lastChange log id = some (since, ⟨id, .suspect, incarnation⟩)

instance (log : Log) (id : NodeId) (incarnation since : ℕ) :
    Decidable (SuspectSince log id incarnation since) :=
  inferInstanceAs (Decidable (_ = _))

theorem lastChange_concat (log : Log) (x : ℕ × NodeRecord) (id : NodeId) :
    lastChange (log ++ [x]) id = if x.2.nodeId = id then some x else lastChange log id := by
  unfold lastChange
  rw [reverse_append, reverse_singleton, singleton_append, find?_cons]
  by_cases h : x.2.nodeId = id <;> simp [h]

/-- The last change of a member is what the stream tells of it. -/
theorem lastChange_of_fold (log : Log) {id : NodeId} {e : MemberEntry}
    (h : ((log.map Prod.snd).foldl observe ∅)[id]? = some e) :
    ∃ t, lastChange log id = some (t, e.toRecord id) := by
  induction log using reverseRecOn with
  | nil => exact absurd h (by simp)
  | append_singleton log x ih =>
    rw [map_append, foldl_append] at h
    change (observe ((log.map Prod.snd).foldl observe ∅) x.2)[id]? = some e at h
    rw [observe, MemberList.getElem?_insert] at h
    rw [lastChange_concat]
    split_ifs at h ⊢ with hid
    · obtain rfl : x.2.entry = e := by simpa using h
      exact ⟨x.1, by rw [← hid]; rfl⟩
    · exact ih h

theorem mem_of_lastChange {log : Log} {id : NodeId} {x : ℕ × NodeRecord}
    (h : lastChange log id = some x) : x ∈ log :=
  mem_reverse.mp (mem_of_find?_eq_some h)

namespace SwimProbe

/-- The target whose indirect probe has run out of time by `now`. -/
def unanswered (p : SwimProbe) (now : ℕ) : Option NodeId :=
  match p.phase with
  | .waitingIndirectAck target _ sentAt =>
      if now - sentAt ≥ p.config.probeTimeout then some target else none
  | _ => none

/-- A call that starts no timer but for nodes in `fresh`, and those at the current clock. -/
structure StartsOnly (fresh : Option NodeId) (p q : SwimProbe) : Prop where
  now : q.now = p.now
  config : q.config = p.config
  timers : ∀ τ ∈ q.suspicionTimers,
    τ ∈ p.suspicionTimers ∨ (τ.nodeId ∈ fresh ∧ τ.startedAt = p.now)

theorem StartsOnly.refl (fresh : Option NodeId) (p : SwimProbe) : StartsOnly fresh p p :=
  ⟨rfl, rfl, fun _ hτ => Or.inl hτ⟩

theorem startSuspicionTimer_starts (p : SwimProbe) (id : NodeId) :
    StartsOnly (some id) p (p.startSuspicionTimer id) := by
  unfold startSuspicionTimer
  split_ifs
  · exact .refl _ p
  · refine ⟨rfl, rfl, fun τ hτ => ?_⟩
    obtain hτ | hτ := mem_append.mp hτ
    · exact Or.inl hτ
    · obtain rfl := mem_singleton.mp hτ
      exact Or.inr ⟨rfl, rfl⟩

theorem checkProbeTimeout_starts (p : SwimProbe) (l : MemberList) :
    StartsOnly (p.unanswered p.now) p (p.checkProbeTimeout l).1 ∧
      ∀ id, .suspect id ∈ (p.checkProbeTimeout l).2 → id ∈ p.unanswered p.now := by
  cases hphase : p.phase with
  | idle =>
    simp only [checkProbeTimeout, hphase]
    exact ⟨.refl _ p, by simp⟩
  | waitingDirectAck target sequence sentAt =>
    simp only [checkProbeTimeout, hphase]
    split_ifs
    · exact ⟨⟨rfl, rfl, fun τ hτ => Or.inl hτ⟩, by simp⟩
    · exact ⟨.refl _ p, by simp⟩
  | waitingIndirectAck target sequence sentAt =>
    simp only [checkProbeTimeout, unanswered, hphase]
    split_ifs
    · have hs := p.startSuspicionTimer_starts target
      exact ⟨⟨hs.now, hs.config, hs.timers⟩, by simp⟩
    · exact ⟨.refl _ p, by simp⟩

theorem cancelSuspicionTimer_starts (p : SwimProbe) (id : NodeId) :
    StartsOnly none p (p.cancelSuspicionTimer id) :=
  ⟨rfl, rfl, fun _ hτ => Or.inl (mem_of_mem_filter hτ)⟩

variable {p q : SwimProbe} {id : NodeId}

theorem StartsOnly.trans {fresh : Option NodeId} {r : SwimProbe} (h : StartsOnly fresh p q)
    (h' : StartsOnly none q r) : StartsOnly fresh p r := by
  refine ⟨h'.now.trans h.now, h'.config.trans h.config, fun τ hτ => ?_⟩
  obtain hτ | ⟨hτ, -⟩ := h'.timers τ hτ
  · exact h.timers τ hτ
  · exact absurd hτ (by simp)

theorem expire_starts_sequential :
    Sequential fun (s : SwimProbe × MemberList) (_ : List SwimAction) s' =>
      StartsOnly none s.1 s'.1 where
  nil s := .refl _ s.1
  append h h' := h.trans h'

theorem checkSuspicionTimeouts_starts (p : SwimProbe) (l : MemberList) :
    StartsOnly none p (p.checkSuspicionTimeouts l).1.1 := by
  refine expire_starts_sequential.collect (fun s id => ?_) (p, l) _
  obtain ⟨-, he⟩ | ⟨i, phase, hg, he⟩ := expire_cases s.1 s.2 id <;> rw [he]
  · exact s.1.cancelSuspicionTimer_starts id
  · exact ⟨rfl, rfl, fun _ hτ => Or.inl (mem_of_mem_filter hτ)⟩

theorem Pings.starts {actions : List SwimAction} (h : Pings p actions q) : StartsOnly none p q :=
  ⟨h.now, h.config, fun τ hτ => Or.inl (by rwa [h.timers] at hτ)⟩

theorem suspect_not_mem_of_pings {actions : List SwimAction} (h : Pings p actions q) (id : NodeId) :
    .suspect id ∉ actions := by
  intro hid
  obtain ⟨dest, sequence, h⟩ := h.only_pings _ hid
  exact absurd h (by simp)

theorem Acked.starts {sequence : ℕ} {out : SwimProbe × List SwimAction}
    (h : p.Acked id sequence out) : StartsOnly none p out.1 ∧ ∀ id, .suspect id ∉ out.2 := by
  cases h with
  | ignored => exact ⟨.refl _ p, by simp⟩
  | completed sentAt kind =>
    exact ⟨⟨rfl, rfl, (p.cancelSuspicionTimer_starts id).timers⟩, by simp [completeProbe]⟩

/-- An event other than a tick leaves the member list alone, starts no timer and asks for no
suspicion. -/
theorem step_of_ne_tick (p : SwimProbe) (now : ℕ) {event : SwimEvent} (h : event ≠ .tick)
    (l : MemberList) :
    (p.step now event l).1.2 = l ∧
      StartsOnly none { p with now := now } (p.step now event l).1.1 ∧
      deaths (p.step now event l).2 = [] ∧ ∀ id, .suspect id ∉ (p.step now event l).2 := by
  cases event with
  | tick => exact absurd rfl h
  | ackReceived sender sequence =>
    have hacked := handleAck_acked { p with now := now } sender sequence
    exact ⟨rfl, hacked.starts.1, hacked.deaths_eq_nil, hacked.starts.2⟩
  | indirectAckReceived target sequence =>
    have hacked := handleIndirectAck_acked { p with now := now } target sequence
    exact ⟨rfl, hacked.starts.1, hacked.deaths_eq_nil, hacked.starts.2⟩
  | sendFailed dest =>
    have hs := pings_probing.handleSendFailed { p with now := now } l dest
    exact ⟨rfl, hs.starts, hs.deaths_eq_nil, suspect_not_mem_of_pings hs⟩

/-- Only nodes whose timer expired are declared dead. -/
theorem mem_of_mem_deaths_expire (ids : List NodeId) (s : SwimProbe × MemberList)
    (h : id ∈ deaths (collect expire s ids).2) : id ∈ ids := by
  induction ids generalizing s with
  | nil => exact absurd h (by simp [collect, deaths])
  | cons k ids ih =>
    change id ∈ deaths ((expire s k).2 ++ (collect expire (expire s k).1 ids).2) at h
    rw [deaths_append] at h
    obtain h | h := mem_append.mp h
    · obtain ⟨-, he⟩ | ⟨i, phase, hg, he⟩ := expire_cases s.1 s.2 k
      · rw [he] at h
        exact absurd h (by simp [deaths])
      · rw [he] at h
        obtain rfl : id = k := by simpa [deaths] using h
        exact mem_cons_self
    · exact mem_cons_of_mem k (ih _ h)

theorem suspect_not_mem_expire (ids : List NodeId) (s : SwimProbe × MemberList) :
    .suspect id ∉ (collect expire s ids).2 := by
  induction ids generalizing s with
  | nil => exact not_mem_nil
  | cons k ids ih =>
    intro h
    obtain h | h := mem_append.mp h
    · obtain ⟨-, he⟩ | ⟨i, phase, hg, he⟩ := expire_cases s.1 s.2 k <;> rw [he] at h <;>
        exact absurd h (by simp)
    · exact ih _ h

theorem le_suspicionTimeout (p : SwimProbe) (l : MemberList) :
    p.config.suspicionTimeout ≤ p.suspicionTimeout l := by
  unfold suspicionTimeout
  split
  · exact Nat.le_max_left _ _
  · exact Nat.le_refl _

/-- The timers, the suspicion and the deaths of a tick. -/
theorem tick_spec (p : SwimProbe) (l : MemberList) :
    StartsOnly (p.unanswered p.now) p (p.tick l).1.1 ∧
      (∀ id, .suspect id ∈ (p.tick l).2 → id ∈ p.unanswered p.now) ∧
      ∀ id ∈ deaths (p.tick l).2, ∃ τ : SuspicionTimer,
        (τ ∈ p.suspicionTimers ∨ (τ.nodeId ∈ p.unanswered p.now ∧ τ.startedAt = p.now)) ∧
        τ.nodeId = id ∧ p.config.suspicionTimeout ≤ p.now - τ.startedAt := by
  have hcheck :=
    checkProbeTimeout_starts { p with stepCounter := wrappingAdd p.stepCounter 1 } l
  have hstarts : StartsOnly (p.unanswered p.now) p
      ({ p with stepCounter := wrappingAdd p.stepCounter 1 }.checkProbeTimeout l).1 :=
    ⟨hcheck.1.now, hcheck.1.config, hcheck.1.timers⟩
  refine ⟨?_, ?_, ?_⟩
  · exact (hstarts.trans (checkSuspicionTimeouts_starts _ l)).trans
      (pings_probing.tickProbes _ _).starts
  · intro id hid
    obtain hid | hid := mem_append.mp hid
    · obtain hid | hid := mem_append.mp hid
      · exact hcheck.2 id hid
      · exact absurd hid (suspect_not_mem_expire _ _)
    · exact absurd hid (suspect_not_mem_of_pings (pings_probing.tickProbes _ _) id)
  · intro id hid
    unfold tick at hid
    rw [deaths_append, deaths_append, deaths_checkProbeTimeout,
      (pings_probing.tickProbes _ _).deaths_eq_nil, append_nil, nil_append] at hid
    obtain ⟨τ, hτ, rfl⟩ := mem_map.mp (mem_of_mem_deaths_expire _ _ hid)
    obtain ⟨hτ, hexp⟩ := mem_filter.mp hτ
    have hle := le_suspicionTimeout
      ({ p with stepCounter := wrappingAdd p.stepCounter 1 }.checkProbeTimeout l).1 l
    rw [hstarts.config] at hle
    rw [decide_eq_true_eq, hstarts.now] at hexp
    exact ⟨τ, hstarts.timers τ hτ, rfl, hle.trans hexp⟩

end SwimProbe

namespace SwimNode

/-- Every suspicion timer of a suspect member was started when it was suspect already. -/
def Backed (n : SwimNode) (log : Log) : Prop :=
  ∀ τ ∈ n.probe.suspicionTimers, ∀ i, n.members.get τ.nodeId = some ⟨.suspect, i⟩ →
    ∃ since ≤ τ.startedAt, SuspectSince log τ.nodeId i since

/-- A call at a fixed clock that keeps the timers backed. -/
structure KeepsBacked (n : SwimNode) (actions : List NodeAction) (n' : SwimNode) : Prop where
  clock : n'.clock = n.clock
  config : n'.probe.config = n.probe.config
  backed : ∀ log, Backed n log → Backed n' (log ++ stamp n.clock actions)

theorem keepsBacked_sequential : Sequential KeepsBacked where
  nil n := ⟨rfl, rfl, fun log h => by rwa [show stamp n.clock [] = [] from rfl, append_nil]⟩
  append h h' := by
    refine ⟨h'.clock.trans h.clock, h'.config.trans h.config, fun log hlog => ?_⟩
    rw [stamp_append, ← append_assoc, ← h.clock]
    exact h'.backed _ (by rw [h.clock]; exact h.backed log hlog)

/-- No timer of the member was started at an earlier clock. -/
def NoOlderTimer (n : SwimNode) (id : NodeId) : Prop :=
  ∀ τ ∈ n.probe.suspicionTimers, τ.nodeId = id → n.clock ≤ τ.startedAt

variable {n n' : SwimNode} {actions : List NodeAction} {id : NodeId} {i now : ℕ}

/-- An elementary operation keeps the timers backed if a suspicion it enters meets no older
timer. -/
theorem Told.keepsBacked (h : Told n actions n')
    (hnew : ∀ r ∈ changes actions, r.state = .suspect → n.NoOlderTimer r.nodeId) :
    KeepsBacked n actions n' := by
  refine ⟨h.steady.clock, h.steady.config, fun log hlog τ hτ i hi => ?_⟩
  rw [h.steady.timers] at hτ
  cases h with
  | quiet _ hm ha =>
    rw [stamp, ha, map_nil, append_nil]
    exact hlog τ hτ i (by rwa [MemberList.get, hm] at hi)
  | change r _ _ hm ha =>
    rw [ha] at hnew
    rw [stamp, ha]
    rw [MemberList.get, hm, observe, MemberList.getElem?_insert] at hi
    change ∃ since ≤ τ.startedAt, lastChange (log ++ [(n.clock, r)]) τ.nodeId = _
    rw [lastChange_concat]
    split_ifs at hi ⊢ with hid
    · obtain ⟨id, state, inc⟩ := r
      obtain ⟨rfl, rfl⟩ : state = .suspect ∧ inc = i := by simpa [NodeRecord.entry] using hi
      have hfresh := hnew ⟨id, .suspect, inc⟩ (mem_singleton_self _) rfl
      exact ⟨n.clock, hfresh τ hτ hid.symm, by rw [← hid]⟩
    · exact hlog τ hτ i hi

/-- A report of a death keeps the timers backed. -/
theorem translate_declareDead_keepsBacked (n : SwimNode) (id : NodeId)
    (h : ∀ i, n.members.get id ≠ some ⟨.suspect, i⟩) :
    KeepsBacked n (n.translateProbeAction (.declareDead id)).2
      (n.translateProbeAction (.declareDead id)).1 := by
  unfold translateProbeAction
  dsimp only
  split
  next e hg =>
    refine ⟨rfl, rfl, fun log hlog τ hτ i hi => ?_⟩
    have hne : id ≠ τ.nodeId := by
      rintro rfl
      exact h i hi
    obtain ⟨since, hle, hs⟩ := hlog τ hτ i hi
    refine ⟨since, hle, ?_⟩
    change lastChange (log ++ [(n.clock, _)]) τ.nodeId = _
    rw [lastChange_concat, if_neg hne]
    exact hs
  next => exact keepsBacked_sequential.nil n

/-- A suspicion that an update enters meets no timer started at an earlier clock. -/
def FreshSuspicion (n : SwimNode) (u : NodeRecord) : Prop :=
  u.state = .suspect → (∀ e ∈ n.members.get u.nodeId, u.entry.Beats e) →
    n.NoOlderTimer u.nodeId

theorem applyMembershipUpdate_keepsBacked {u : MembershipUpdate} (h : n.FreshSuspicion u) :
    KeepsBacked n (n.applyMembershipUpdate u).2 (n.applyMembershipUpdate u).1 := by
  apply (n.applyMembershipUpdate_told u).keepsBacked
  obtain hu | ⟨-, -, -, hu⟩ | ⟨hne, hb, hu⟩ := n.applyMembershipUpdate_cases u <;> rw [hu]
  · simp [changes]
  · simp [changes]
  · intro r hr hstate
    obtain rfl : r = u := by simpa [changes] using hr
    exact h hstate hb

theorem applyJoinRecord_keepsBacked {r : NodeRecord} (h : n.FreshSuspicion r) :
    KeepsBacked n (n.applyJoinRecord r).2 (n.applyJoinRecord r).1 := by
  apply (n.applyJoinRecord_told r).keepsBacked
  obtain ⟨hr, -⟩ | ⟨hne, hb, hr⟩ := n.applyJoinRecord_cases r <;> rw [hr]
  · simp [changes]
  · intro x hx hstate
    obtain rfl : x = r := by simpa [changes] using hx
    have hroom : n.makeRoom x = n := by
      unfold makeRoom
      rw [if_neg (by rw [hstate]; decide)]
    rw [hroom] at hb
    exact h hstate hb

/-- Translating an action leaves every entry alone that is not alive, and makes none alive. -/
def Settles (n n' : SwimNode) : Prop :=
  (∀ id e, e.state ≠ .alive → n.members.get id = some e → n'.members.get id = some e) ∧
    ∀ id i, n'.members.get id = some ⟨.alive, i⟩ → n.members.get id = some ⟨.alive, i⟩

theorem Settles.of_members_eq (h : n'.members = n.members) : Settles n n' := by
  unfold Settles
  rw [h]
  exact ⟨fun _ _ _ => id, fun _ _ => id⟩

theorem translateProbeAction_settles (n : SwimNode) (a : SwimAction) :
    Settles n (n.translateProbeAction a).1 ∧ Steady n (n.translateProbeAction a).1 := by
  by_cases ha : ∀ id, a ≠ .declareDead id
  · refine ⟨?_, (n.translateProbeAction_told ha).steady⟩
    cases a with
    | sendPing dest sequence =>
      apply Settles.of_members_eq
      change (n.enqueueAccusation dest).members = n.members
      unfold enqueueAccusation
      split
      · split_ifs <;> rfl
      · rfl
    | sendPingReq relay target sequence | diag event => exact .of_members_eq rfl
    | suspect id =>
      obtain hs | ⟨i, hg, hs⟩ := n.translate_suspect_cases id <;> rw [hs]
      · exact .of_members_eq rfl
      · have hput := fun k => n.members.get_put id k ⟨.suspect, i⟩ (n.members.ne_self_of_get hg)
        refine ⟨fun k e he hk => ?_, fun k j hk => ?_⟩
        · have hne : id ≠ k := by
            rintro rfl
            rw [hg] at hk
            obtain rfl : (⟨.alive, i⟩ : MemberEntry) = e := by simpa using hk
            exact he rfl
          exact ((hput k).trans (if_neg hne)).trans hk
        · have hk' := (hput k).symm.trans hk
          split_ifs at hk'
          · exact absurd hk' (by simp)
          · exact hk'
    | declareDead id => exact absurd rfl (ha id)
  · push Not at ha
    obtain ⟨id, rfl⟩ := ha
    unfold translateProbeAction
    dsimp only
    split
    · exact ⟨.of_members_eq rfl, rfl, rfl, rfl⟩
    · exact ⟨.of_members_eq rfl, .refl n⟩

/-- Translation keeps the timers backed if the reported deaths are dead and a member about to
be suspected has no older timer. -/
theorem translateProbeActions_keepsBacked (actions : List SwimAction)
    (hdead : ∀ id ∈ deaths actions, ∃ i, n.members.get id = some ⟨.dead, i⟩)
    (hsuspect : ∀ id i, .suspect id ∈ actions → n.members.get id = some ⟨.alive, i⟩ →
      n.NoOlderTimer id) :
    KeepsBacked n (n.translateProbeActions actions).2 (n.translateProbeActions actions).1 := by
  induction actions generalizing n with
  | nil => exact keepsBacked_sequential.nil n
  | cons a actions ih =>
    obtain ⟨hsettle, hsteady⟩ := n.translateProbeAction_settles a
    have hfirst : KeepsBacked n (n.translateProbeAction a).2 (n.translateProbeAction a).1 := by
      cases a with
      | declareDead id =>
        obtain ⟨j, hj⟩ := hdead id mem_cons_self
        exact n.translate_declareDead_keepsBacked id fun i hi =>
          absurd (hj.symm.trans hi) (by simp)
      | suspect id =>
        apply (n.translateProbeAction_told (by simp)).keepsBacked
        intro r hr _
        obtain hs | ⟨i, hg, hs⟩ := n.translate_suspect_cases id <;> rw [hs] at hr
        · exact absurd hr (by simp [changes])
        · obtain rfl : r = ⟨id, .suspect, i⟩ := by simpa [changes] using hr
          exact hsuspect id i mem_cons_self hg
      | sendPing dest sequence | sendPingReq relay target sequence =>
        exact (n.translateProbeAction_told (by simp)).keepsBacked
          (by simp [translateProbeAction, piggybacked, changes])
      | diag event =>
        exact (n.translateProbeAction_told (by simp)).keepsBacked
          (by simp [translateProbeAction, changes])
    refine keepsBacked_sequential.append hfirst (ih ?_ ?_)
    · intro id hid
      have hid' : id ∈ deaths (a :: actions) := by
        rw [← singleton_append, deaths_append]
        exact mem_append_right _ hid
      obtain ⟨i, hi⟩ := hdead id hid'
      exact ⟨i, hsettle.1 id _ (by simp) hi⟩
    · intro id i hid hi τ hτ hτid
      rw [hsteady.timers] at hτ
      rw [hsteady.clock]
      exact hsuspect id i (mem_cons_of_mem a hid) (hsettle.2 id i hi) τ hτ hτid

theorem stepProbe_keepsBacked (n : SwimNode) {event : SwimEvent} (h : event ≠ .tick) :
    KeepsBacked n (n.stepProbe event).2 (n.stepProbe event).1 := by
  obtain ⟨hmem, hstarts, hdeaths, hsuspect⟩ :=
    step_of_ne_tick n.probe n.clock h n.members
  let stepped := n.probe.step n.clock event n.members
  have htr : KeepsBacked { n with probe := stepped.1.1, members := stepped.1.2 }
      (n.stepProbe event).2 (n.stepProbe event).1 :=
    translateProbeActions_keepsBacked _ (by rw [hdeaths]; simp)
      (fun id _ hid => absurd hid (hsuspect id))
  refine ⟨htr.clock, htr.config.trans hstarts.config, fun log hlog => ?_⟩
  refine htr.backed log fun τ hτ i hi => ?_
  obtain hτ | ⟨hτ, -⟩ := hstarts.timers τ hτ
  · exact hlog τ hτ i (by rwa [show stepped.1.2 = n.members from hmem] at hi)
  · exact absurd hτ (by simp)

theorem keepsBacked_of_alive (h : Told n actions n')
    (halive : ∀ r ∈ changes actions, r.state = .alive) : KeepsBacked n actions n' :=
  h.keepsBacked fun r hr hs => absurd ((halive r hr).symm.trans hs) (by decide)

theorem Enters.keepsBacked {out : SwimNode × List NodeAction} (h : Enters n id out) :
    KeepsBacked n out.2 out.1 := by
  refine keepsBacked_of_alive h.told ?_
  cases h <;> simp [changes]

theorem completeRelay_keepsBacked (n : SwimNode) (sender : NodeId) (sequence : ℕ) :
    KeepsBacked n (n.completeRelay sender sequence).2 (n.completeRelay sender sequence).1 := by
  refine keepsBacked_of_alive (n.completeRelay_told sender sequence) ?_
  unfold completeRelay
  dsimp only
  split <;> simp [changes, piggybacked]

theorem quiet_keepsBacked (hs : Steady n n') (hm : n'.members.members = n.members.members)
    (ha : changes actions = []) : KeepsBacked n actions n' :=
  (Told.quiet hs hm ha).keepsBacked (by simp [ha])

/-- The condition on a call: the clock does not go back, and no suspicion it enters meets a
timer started at an earlier clock. -/
def Timely (n : SwimNode) : Call → Prop
  | .tick now => n.clock ≤ now ∧
      ∀ target ∈ n.probe.unanswered now, ∀ e ∈ n.members.get target, e.state = .alive →
        ∀ τ ∈ n.probe.suspicionTimers, τ.nodeId = target → now ≤ τ.startedAt
  | .ping _ _ piggyback | .ack _ _ piggyback | .pingReq _ _ _ piggyback
  | .indirectAck _ _ piggyback =>
      Guarded FreshSuspicion (fun n u => (n.applyMembershipUpdate u).1) n piggyback
  | .joinResponse members =>
      Guarded FreshSuspicion (fun n r => (n.applyJoinRecord r).1) n members
  | .joinRequest _ | .sendFailure _ | .leave => True

theorem applyPiggyback_keepsBacked {piggyback : List MembershipUpdate}
    (h : Guarded FreshSuspicion (fun n u => (n.applyMembershipUpdate u).1) n piggyback) :
    KeepsBacked n (n.applyPiggyback piggyback).2 (n.applyPiggyback piggyback).1 :=
  keepsBacked_sequential.collect_guarded
    (fun _ _ hu => applyMembershipUpdate_keepsBacked hu) h

theorem call_keepsBacked {c : Call} (hc : ∀ now, c ≠ .tick now) (h : n.Timely c) :
    KeepsBacked n (n.call c).2 (n.call c).1 := by
  have hseq := keepsBacked_sequential
  cases c with
  | tick now => exact absurd rfl (hc now)
  | ping sender sequence piggyback =>
    exact hseq.andThen (hseq.andThen (applyPiggyback_keepsBacked h)
      (learnSender_enters _ sender).keepsBacked) (quiet_keepsBacked ⟨rfl, rfl, rfl⟩ rfl rfl)
  | ack sender sequence piggyback =>
    exact hseq.andThen (hseq.andThen (applyPiggyback_keepsBacked h)
      (stepProbe_keepsBacked _ (by simp))) (completeRelay_keepsBacked _ sender sequence)
  | pingReq sender target sequence piggyback =>
    exact hseq.andThen (applyPiggyback_keepsBacked h) (quiet_keepsBacked ⟨rfl, rfl, rfl⟩ rfl rfl)
  | indirectAck target sequence piggyback =>
    exact hseq.andThen (applyPiggyback_keepsBacked h) (stepProbe_keepsBacked _ (by simp))
  | joinRequest sender =>
    exact hseq.andThen (n.enterJoiner_enters sender).keepsBacked
      (quiet_keepsBacked (.refl _) rfl rfl)
  | joinResponse members =>
    exact hseq.collect_guarded (fun _ _ hr => applyJoinRecord_keepsBacked hr) h
  | sendFailure target => exact n.stepProbe_keepsBacked (by simp)
  | leave => exact quiet_keepsBacked ⟨rfl, rfl, rfl⟩ rfl rfl

/-- A run together with its log. -/
def record (s : SwimNode × Log) (c : Call) : SwimNode × Log :=
  ((s.1.call c).1, s.2 ++ stamp (s.1.call c).1.clock (s.1.call c).2)

/-- The invariant of a recorded run. -/
structure Good (config : SwimConfig) (n : SwimNode) (log : Log) : Prop where
  told : (log.map Prod.snd).foldl observe ∅ = n.members.members
  past : ∀ x ∈ log, x.1 ≤ n.clock
  config : n.probe.config = config
  backed : n.Backed log

variable {config : SwimConfig} {n : SwimNode} {log : Log}

/-- A suspect member has been so since a clock that the log tells. -/
theorem Good.suspectSince (h : Good config n log) (hi : n.members.get id = some ⟨.suspect, i⟩) :
    ∃ since ≤ n.clock, SuspectSince log id i since := by
  obtain ⟨since, hs⟩ := lastChange_of_fold log (by rw [h.told]; exact hi)
  exact ⟨since, h.past _ (mem_of_lastChange hs), hs⟩

/-- The timers are backed with those that a tick starts. -/
theorem Good.backed_started (h : Good config n log) (hnow : n.clock ≤ now) {τ : SuspicionTimer}
    (hτ : τ ∈ n.probe.suspicionTimers ∨ τ.startedAt = now)
    (hi : n.members.get τ.nodeId = some ⟨.suspect, i⟩) :
    ∃ since ≤ τ.startedAt, SuspectSince log τ.nodeId i since := by
  obtain hτ | hτ := hτ
  · exact h.backed τ hτ i hi
  · obtain ⟨since, hle, hs⟩ := h.suspectSince hi
    exact ⟨since, by omega, hs⟩

/-- The node after the probe machine took a tick, before its actions are carried out. -/
def ticked (n : SwimNode) (now : ℕ) : SwimNode :=
  let stepped := n.probe.step now .tick n.members
  { n with clock := now, probe := stepped.1.1, members := stepped.1.2 }

def tickActions (n : SwimNode) (now : ℕ) : List SwimAction :=
  (n.probe.step now .tick n.members).2

theorem ticked_lags (n : SwimNode) (now : ℕ) :
    Lags n.members.members (n.ticked now).members (deaths (n.tickActions now)) :=
  step_lags n.probe now .tick n.members

/-- An entry that is not dead after the probe machine's tick is as before. -/
theorem get_ticked {e : MemberEntry} (he : e.state ≠ .dead)
    (hg : (n.ticked now).members.get id = some e) : n.members.get id = some e := by
  refine ((n.ticked_lags now).told id fun hid => ?_).trans hg
  obtain ⟨j, -, hj⟩ := (n.ticked_lags now).untold id hid
  obtain rfl : (⟨.dead, j⟩ : MemberEntry) = e := by simpa using hj.symm.trans hg
  exact he rfl

theorem tickActions_keepsBacked (ht : n.Timely (.tick now)) :
    KeepsBacked (n.ticked now) (n.tick now).2 (n.tick now).1 := by
  have hspec := tick_spec { n.probe with now := now } n.members
  refine translateProbeActions_keepsBacked (n.tickActions now) ?_ ?_
  · intro id hid
    exact ((n.ticked_lags now).untold id hid).imp fun _ hj => hj.2
  · intro id i hid hi τ hτ hτid
    obtain hτ | ⟨-, hτ⟩ := hspec.1.timers τ hτ
    · exact ht.2 id (hspec.2.1 id hid) ⟨.alive, i⟩ (get_ticked (by simp) hi) rfl τ hτ hτid
    · exact hτ.ge

theorem told_append {m : Members} {m' : Members} (clock : ℕ)
    (hlog : (log.map Prod.snd).foldl observe ∅ = m) (h : Tells m (changes actions) m') :
    ((log ++ stamp clock actions).map Prod.snd).foldl observe ∅ = m' := by
  rw [map_append, foldl_append, hlog, stamp, map_map]
  simpa [Function.comp_def] using h.fold

theorem past_append {clock clock' : ℕ} (hclock : clock ≤ clock') (hlog : ∀ x ∈ log, x.1 ≤ clock) :
    ∀ x ∈ log ++ stamp clock' actions, x.1 ≤ clock' := by
  intro x hx
  obtain hx | hx := mem_append.mp hx
  · exact (hlog x hx).trans hclock
  · obtain ⟨r, -, rfl⟩ := mem_map.mp hx
    exact Nat.le_refl _

/-- A tick keeps the invariant. -/
theorem Good.tick (h : Good config n log) (ht : n.Timely (.tick now)) :
    Good config (n.tick now).1 (log ++ stamp (n.tick now).1.clock (n.tick now).2) := by
  have hspec := tick_spec { n.probe with now := now } n.members
  have hkeep := tickActions_keepsBacked ht
  rw [show (n.tick now).1.clock = now from hkeep.clock]
  refine ⟨told_append now h.told (n.call_reports (.tick now)), ?_, ?_, ?_⟩
  · rw [show (n.tick now).1.clock = now from hkeep.clock]
    exact past_append ht.1 h.past
  · exact hkeep.config.trans (hspec.1.config.trans h.config)
  · refine hkeep.backed log fun τ hτ i hi => ?_
    exact h.backed_started ht.1 ((hspec.1.timers τ hτ).imp_right And.right)
      (get_ticked (by simp) hi)

theorem record_good {s : SwimNode × Log} {c : Call} (h : Good config s.1 s.2)
    (ht : s.1.Timely c) : Good config (record s c).1 (record s c).2 := by
  by_cases hc : ∀ now, c ≠ .tick now
  · have hkeep := call_keepsBacked hc ht
    refine ⟨told_append _ h.told (s.1.call_reports c), past_append hkeep.clock.ge h.past,
      hkeep.config.trans h.config, ?_⟩
    unfold record
    rw [hkeep.clock]
    exact hkeep.backed s.2 h.backed
  · push Not at hc
    obtain ⟨now, rfl⟩ := hc
    exact h.tick ht

theorem new_good (selfId : NodeId) (config : SwimConfig) (now : ℕ) :
    Good config (new selfId config now) [] :=
  ⟨rfl, by simp, rfl, fun _ hτ => absurd hτ not_mem_nil⟩

/-- A tick at `now` declares a suspect member dead only if it has been suspect at this
incarnation, without interruption, for the configured timeout. -/
def DiesLate (config : SwimConfig) (s : SwimNode × Log) (now : ℕ) : Prop :=
  ∀ id i j, s.1.members.get id = some ⟨.suspect, i⟩ →
    (s.1.tick now).1.members.get id = some ⟨.dead, j⟩ →
    ∃ since, SuspectSince s.2 id i since ∧ since + config.suspicionTimeout ≤ now

theorem settles_sequential :
    Sequential fun (n : SwimNode) (_ : List NodeAction) n' => Settles n n' where
  nil _ := .of_members_eq rfl
  append h h' := ⟨fun id e he hg => h'.1 id e he (h.1 id e he hg),
    fun id i hg => h.2 id i (h'.2 id i hg)⟩

/-- A suspect member that a tick leaves dead was declared so by the probe machine. -/
theorem mem_deaths_of_tick {j : ℕ} (hi : n.members.get id = some ⟨.suspect, i⟩)
    (hj : (n.tick now).1.members.get id = some ⟨.dead, j⟩) :
    id ∈ deaths (n.tickActions now) := by
  by_contra hid
  have hticked := ((n.ticked_lags now).told id hid).symm.trans hi
  have hsettles := settles_sequential.collect
    (fun n a => (n.translateProbeAction_settles a).1) (n.ticked now) (n.tickActions now)
  have hafter := hsettles.1 id _ (by simp) hticked
  exact absurd (hj.symm.trans hafter) (by simp)

theorem Good.diesLate (h : Good config n log) (hnow : n.clock ≤ now) :
    DiesLate config (n, log) now := by
  intro id i j hi hj
  have hspec := tick_spec { n.probe with now := now } n.members
  obtain ⟨τ, hτ, rfl, hexp⟩ := hspec.2.2 id (mem_deaths_of_tick hi hj)
  obtain ⟨since, hle, hs⟩ := h.backed_started hnow (hτ.imp_right And.right) hi
  have hpast := h.past _ (mem_of_lastChange hs)
  have hconfig := congrArg SwimConfig.suspicionTimeout h.config
  refine ⟨since, hs, ?_⟩
  dsimp only at hexp hpast
  omega

/-- In a run in which no suspicion meets a timer started at an earlier clock, no tick declares
a member dead early. -/
theorem no_early_death (selfId : NodeId) (config : SwimConfig) (start now : ℕ)
    (calls : List Call) (h : Guarded (fun s c => s.1.Timely c) record
      (new selfId config start, []) (calls ++ [.tick now])) :
    DiesLate config (calls.foldl record (new selfId config start, [])) now := by
  obtain ⟨hrun, hlast⟩ := Machine.guarded_append.mp h
  have hgood := hrun.invariant (P := fun s => Good config s.1 s.2)
    (fun _ _ hs hc => record_good hs hc) (new_good selfId config start)
  exact hgood.diesLate hlast.1.1

instance (n : SwimNode) (id : NodeId) : Decidable (n.NoOlderTimer id) :=
  inferInstanceAs (Decidable (∀ τ ∈ n.probe.suspicionTimers, _ → _))

instance (n : SwimNode) (u : NodeRecord) : Decidable (n.FreshSuspicion u) :=
  inferInstanceAs (Decidable (_ → (∀ e ∈ n.members.get u.nodeId, _) → _))

instance decidableTimely (n : SwimNode) : ∀ c, Decidable (n.Timely c)
  | .tick now =>
      have := (n.probe.unanswered now).decidableForallMem (p := fun target =>
        ∀ e ∈ n.members.get target, e.state = .alive →
          ∀ τ ∈ n.probe.suspicionTimers, τ.nodeId = target → now ≤ τ.startedAt)
      inferInstanceAs (Decidable (_ ∧ _))
  | .ping _ _ _ | .ack _ _ _ | .pingReq _ _ _ _ | .indirectAck _ _ _ | .joinResponse _ =>
      inferInstanceAs (Decidable (Guarded _ _ _ _))
  | .joinRequest _ | .sendFailure _ | .leave => inferInstanceAs (Decidable True)

/-- Node 1 is learned and never answers; the tick at 3 suspects it. -/
def silentPeer : List Call := [.ping 1 1 [], .tick 1, .tick 2, .tick 3]

theorem no_early_death_of_silent_peer :
    let s := silentPeer.foldl record (new 0 .quick 0, [])
    s.1.members.get 1 = some ⟨.suspect, 0⟩ ∧
      (s.1.tick 103).1.members.get 1 = some ⟨.dead, 0⟩ ∧ DiesLate .quick s 103 :=
  ⟨by decide, by decide, no_early_death 0 .quick 0 103 silentPeer (by decide)⟩

/-- The same suspicion is refuted by gossip; a suspicion of the new incarnation at clock 102
finds the timer of clock 3 still running. -/
def staleTimer : List Call :=
  silentPeer ++ [.ping 2 1 [⟨1, .alive, 1⟩], .tick 102, .ping 2 2 [⟨1, .suspect, 1⟩]]

theorem stale_timer_kills_early :
    ¬ DiesLate .quick (staleTimer.foldl record (new 0 .quick 0, [])) 103 := by
  intro h
  obtain ⟨since, hs, hle⟩ := h 1 1 1 (by decide) (by decide)
  have hlast : SuspectSince (staleTimer.foldl record (new 0 .quick 0, [])).2 1 1 102 := by
    decide
  have hsince : since = 102 := congrArg Prod.fst (Option.some.inj (hs.symm.trans hlast))
  have htimeout : SwimConfig.quick.suspicionTimeout = 100 := rfl
  omega

end SwimNode
end Swactor.Swim
