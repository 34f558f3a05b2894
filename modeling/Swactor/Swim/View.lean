import Swactor.Swim.Node

/-!
# The membership stream and the member list

A node reports every change of its member list. Here the stream of reports is
folded into a view, and the view is compared with the list. All handlers but the
tick change the list and report the change at once. On a tick the probe machine
declares members dead before the node reports them, so that the view lags behind
by exactly those deaths until they have been translated.
-/
namespace Swactor.Swim
open SwimProbe MemberList List
open Std (ExtTreeMap)
open Machine (Guarded Sequential andThen collect)

/-- The notifications among the actions of a call. -/
def changes (actions : List NodeAction) : List NodeRecord :=
  actions.filterMap fun
    | .membershipChanged change => some change
    | _ => none

theorem changes_append (as bs : List NodeAction) :
    changes (as ++ bs) = changes as ++ changes bs :=
  filterMap_append

/-- Fold one notification into a view; later ones overwrite earlier ones. -/
def observe (view : Members) (change : NodeRecord) : Members :=
  view.insert change.nodeId change.entry

/-- A notification that reports a value the view does not hold. -/
def News (view : Members) (change : NodeRecord) : Prop :=
  view[change.nodeId]? ≠ some change.entry

/-- Folding `stream` takes `view` to `view'`, and every notification is news. -/
structure Tells (view : Members) (stream : List NodeRecord) (view' : Members) : Prop where
  news : Guarded News observe view stream
  fold : stream.foldl observe view = view'

theorem Tells.nil (view : Members) : Tells view [] view := ⟨trivial, rfl⟩

theorem Tells.append {u v w : Members} {as bs : List NodeRecord} (h : Tells u as v)
    (h' : Tells v bs w) : Tells u (as ++ bs) w := by
  obtain ⟨hnews, rfl⟩ := h
  exact ⟨Machine.guarded_append.mpr ⟨hnews, h'.news⟩, by rw [foldl_append, h'.fold]⟩

theorem Tells.single {view : Members} {change : NodeRecord} (h : News view change) :
    Tells view [change] (observe view change) :=
  ⟨⟨h, trivial⟩, rfl⟩

namespace SwimNode

/-- The actions of a call report the difference between two states of a node. -/
def Reports (n : SwimNode) (actions : List NodeAction) (n' : SwimNode) : Prop :=
  Tells n.members.members (changes actions) n'.members.members

theorem reports_sequential : Sequential Reports where
  nil n := Tells.nil _
  append h h' := by
    unfold Reports
    rw [changes_append]
    exact Tells.append h h'

/-- The suspicion timers, the clock and the settings are as before. -/
structure Steady (n n' : SwimNode) : Prop where
  timers : n'.probe.suspicionTimers = n.probe.suspicionTimers
  clock : n'.clock = n.clock
  config : n'.probe.config = n.probe.config

theorem Steady.refl (n : SwimNode) : Steady n n := ⟨rfl, rfl, rfl⟩

variable {n n' : SwimNode} {l : MemberList} {r : NodeRecord} {view : Members} {ids : List NodeId}
  {a : SwimAction}

theorem Steady.trans {n'' : SwimNode} (h : Steady n n') (h' : Steady n' n'') : Steady n n'' :=
  ⟨h'.timers.trans h.timers, h'.clock.trans h.clock, h'.config.trans h.config⟩

/-- What an elementary operation does to the member list: nothing, or it stores one new value
and reports it. -/
inductive Told (n : SwimNode) (actions : List NodeAction) (n' : SwimNode) : Prop
  | quiet (steady : Steady n n') (members : n'.members.members = n.members.members)
      (actions : changes actions = [])
  | change (r : NodeRecord) (steady : Steady n n') (news : News n.members.members r)
      (members : n'.members.members = observe n.members.members r)
      (actions : changes actions = [r])

theorem Told.reports {actions : List NodeAction} (h : Told n actions n') :
    Reports n actions n' := by
  unfold Reports
  cases h with
  | quiet _ hm ha =>
    rw [hm, ha]
    exact Tells.nil _
  | change r _ hnews hm ha =>
    rw [hm, ha]
    exact Tells.single hnews

theorem Told.steady {actions : List NodeAction} (h : Told n actions n') : Steady n n' := by
  cases h with
  | quiet hs => exact hs
  | change r hs => exact hs

/-- A call after which nothing has changed. -/
theorem Told.idle (n : SwimNode) : Told n [] n := .quiet (.refl n) rfl rfl

theorem piggybacked_quiet (n : SwimNode) {message : List MembershipUpdate → NodeAction}
    (h : ∀ pb, changes [message pb] = []) :
    Told n (n.piggybacked message).2 (n.piggybacked message).1 :=
  .quiet ⟨rfl, rfl, rfl⟩ rfl (h _)

/-- A stored value that is beaten differs from the new one. -/
theorem news_of_beats {u : NodeRecord} (h : ∀ e ∈ l.get u.nodeId, u.entry.Beats e) :
    News l.members u :=
  fun hg => (h u.entry hg).ne rfl

theorem applyMembershipUpdate_told (n : SwimNode) (u : MembershipUpdate) :
    Told n (n.applyMembershipUpdate u).2 (n.applyMembershipUpdate u).1 := by
  obtain h | ⟨-, -, -, h⟩ | ⟨hne, hb, h⟩ := n.applyMembershipUpdate_cases u <;> rw [h]
  · exact .idle n
  · exact .quiet ⟨rfl, rfl, rfl⟩ rfl rfl
  · have hd := n.probe.aside_demanded u.nodeId (u.state = .alive)
    exact .change u ⟨hd.timers, rfl, hd.config⟩ (news_of_beats hb) rfl rfl

theorem Enters.told {id : NodeId} {out : SwimNode × List NodeAction} (h : Enters n id out) :
    Told n out.2 out.1 := by
  cases h with
  | known => exact .idle n
  | entered hne hb hn' =>
    obtain rfl | rfl := hn' <;>
      exact .change ⟨id, .alive, 0⟩ ⟨rfl, rfl, rfl⟩ (news_of_beats hb) rfl rfl

theorem completeRelay_told (n : SwimNode) (sender : NodeId) (sequence : ℕ) :
    Told n (n.completeRelay sender sequence).2 (n.completeRelay sender sequence).1 := by
  unfold completeRelay
  dsimp only
  split
  · exact .quiet ⟨rfl, rfl, rfl⟩ rfl rfl
  · exact .idle n

theorem makeRoom_cases (n : SwimNode) (r : NodeRecord) :
    n.makeRoom r = n ∨ ∃ i, r.state = .alive ∧ n.members.get r.nodeId = some ⟨.dead, i⟩ ∧
      n.makeRoom r =
        { n with
          members := n.members.remove r.nodeId
          dissemination := n.dissemination.purgeNode r.nodeId } := by
  unfold makeRoom
  split_ifs with hr
  · obtain ⟨h, -⟩ | ⟨i, hg, h⟩ := n.clearDeadMember_cases r.nodeId
    · exact Or.inl h
    · exact Or.inr ⟨i, hr, hg, h⟩
  · exact Or.inl rfl

theorem insert_erase (view : Members) (id : NodeId) (e : MemberEntry) :
    (view.erase id).insert id e = view.insert id e := by
  apply ExtTreeMap.ext_getElem?
  intro k
  simp only [getElem?_insert, getElem?_erase]
  split_ifs <;> rfl

theorem makeRoom_steady (n : SwimNode) (r : NodeRecord) : Steady n (n.makeRoom r) := by
  obtain h | ⟨i, -, -, h⟩ := n.makeRoom_cases r <;> rw [h]
  · exact .refl n
  · exact ⟨rfl, rfl, rfl⟩

theorem makeRoom_observe (n : SwimNode) (r : NodeRecord) :
    observe (n.makeRoom r).members.members r = observe n.members.members r := by
  obtain h | ⟨i, -, -, h⟩ := n.makeRoom_cases r <;> rw [h]
  exact insert_erase n.members.members r.nodeId r.entry

theorem makeRoom_news (hb : ∀ e ∈ (n.makeRoom r).members.get r.nodeId, r.entry.Beats e) :
    News n.members.members r := by
  obtain h | ⟨i, hr, hg, h⟩ := n.makeRoom_cases r
  · rw [h] at hb
    exact news_of_beats hb
  · intro hnew
    have hstate := congrArg (Option.map MemberEntry.state) (hg.symm.trans hnew)
    simp only [Option.map_some, NodeRecord.entry, hr] at hstate
    exact absurd hstate (by decide)

/-- A record for which a dead entry was cleared is stored. -/
theorem makeRoom_eq_of_apply (happ : (n.makeRoom r).members.apply r.nodeId r.state r.incarnation =
      ((n.makeRoom r).members, false)) : n.makeRoom r = n := by
  obtain h | ⟨i, hr, hg, h⟩ := n.makeRoom_cases r
  · exact h
  · have hput := (n.makeRoom r).members.apply_of_beats (u := r)
      (by rw [h]; exact n.members.ne_self_of_get hg)
      (by rw [h]; simp [get_remove])
    rw [happ] at hput
    exact absurd (congrArg Prod.snd hput) (by simp)

/-- A join record that brings back a dead member is one change of its entry. -/
theorem applyJoinRecord_told (n : SwimNode) (r : NodeRecord) :
    Told n (n.applyJoinRecord r).2 (n.applyJoinRecord r).1 := by
  obtain ⟨h, happ⟩ | ⟨hne, hb, h⟩ := n.applyJoinRecord_cases r <;> rw [h]
  · rw [makeRoom_eq_of_apply happ]
    exact .idle n
  · have hd := (n.makeRoom r).probe.aside_demanded r.nodeId
      (r.state = .alive ∧ r.nodeId ≠ (n.makeRoom r).members.selfId)
    exact .change r ((n.makeRoom_steady r).trans ⟨hd.timers, rfl, hd.config⟩) (makeRoom_news hb)
      (n.makeRoom_observe r) rfl

/-- The view while the deaths of `ids` have been declared and not yet been reported. -/
structure Lags (view : Members) (l : MemberList) (ids : List NodeId) : Prop where
  nodup : ids.Nodup
  told : ∀ id ∉ ids, view[id]? = l.get id
  untold : ∀ id ∈ ids, ∃ i, view[id]? = some ⟨.suspect, i⟩ ∧ l.get id = some ⟨.dead, i⟩

theorem Lags.of_eq (l : MemberList) : Lags l.members l [] :=
  ⟨nodup_nil, fun _ _ => rfl, by simp⟩

theorem Lags.eq (h : Lags view l []) : view = l.members :=
  ExtTreeMap.ext_getElem? fun id => h.told id (by simp)

/-- Declaring a suspect member dead adds it to the deaths to report. -/
theorem Lags.declare {id : NodeId} {i : ℕ} (h : Lags view l ids)
    (hg : l.get id = some ⟨.suspect, i⟩) (hne : id ≠ l.selfId) :
    Lags view (l.put id ⟨.dead, i⟩ hne) (ids ++ [id]) := by
  have hid : id ∉ ids := by
    intro hmem
    obtain ⟨j, -, hj⟩ := h.untold id hmem
    exact absurd (hg.symm.trans hj) (by simp)
  refine ⟨nodup_append.mpr ⟨h.nodup, by simp, by rintro a ha b hb rfl; simp_all⟩, ?_, ?_⟩
  · intro k hk
    simp only [mem_append, mem_singleton, not_or] at hk
    rw [l.get_put, if_neg (Ne.symm hk.2)]
    exact h.told k hk.1
  · intro k hk
    by_cases hkid : id = k
    · subst hkid
      exact ⟨i, (h.told id hid).trans hg, by rw [l.get_put, if_pos rfl]⟩
    · have hk' : k ∈ ids := by simpa [Ne.symm hkid] using hk
      obtain ⟨j, hv, hj⟩ := h.untold k hk'
      exact ⟨j, hv, by rw [l.get_put, if_neg hkid, hj]⟩

theorem expire_lags (s : SwimProbe × MemberList) (id : NodeId) (h : Lags view s.2 ids) :
    Lags view (expire s id).1.2 (ids ++ deaths (expire s id).2) := by
  obtain ⟨-, he⟩ | ⟨i, phase, hg, he⟩ := expire_cases s.1 s.2 id
  · rw [he]
    simpa [deaths] using h
  · rw [he]
    exact h.declare hg (s.2.ne_self_of_get hg)

theorem lags_sequential (view : Members) : Sequential fun (s : SwimProbe × MemberList) out s' =>
    ∀ ids, Lags view s.2 ids → Lags view s'.2 (ids ++ deaths out) where
  nil s ids h := by simpa [deaths] using h
  append h h' ids hids := by
    rw [deaths_append, ← append_assoc]
    exact h' _ (h ids hids)

/-- After a step of the probe machine the view lags behind by the deaths it declared. -/
theorem step_lags (p : SwimProbe) (now : ℕ) (event : SwimEvent) (l : MemberList) :
    Lags l.members (p.step now event l).1.2 (deaths (p.step now event l).2) := by
  cases event with
  | tick =>
    have hexp := (lags_sequential l.members).collect (fun s id ids => expire_lags s id)
    unfold SwimProbe.step SwimProbe.tick
    dsimp only
    rw [deaths_append, deaths_append, deaths_checkProbeTimeout,
      (pings_probing.tickProbes _ _).deaths_eq_nil, append_nil]
    exact hexp (_, l) _ [] (Lags.of_eq l)
  | ackReceived sender sequence =>
    unfold step
    rw [(handleAck_acked _ sender sequence).deaths_eq_nil]
    exact .of_eq l
  | indirectAckReceived target sequence =>
    unfold step
    rw [(handleIndirectAck_acked _ target sequence).deaths_eq_nil]
    exact .of_eq l
  | sendFailed dest =>
    unfold step
    rw [(pings_probing.handleSendFailed _ l dest).deaths_eq_nil]
    exact .of_eq l

/-- Every probe action but a declaration of death is elementary. -/
theorem translateProbeAction_told (n : SwimNode) (h : ∀ id, a ≠ .declareDead id) :
    Told n (n.translateProbeAction a).2 (n.translateProbeAction a).1 := by
  cases a with
  | sendPing dest sequence =>
    have hacc : (n.enqueueAccusation dest).members = n.members ∧
        Steady n (n.enqueueAccusation dest) := by
      unfold enqueueAccusation
      split
      · split_ifs
        · exact ⟨rfl, rfl, rfl, rfl⟩
        · exact ⟨rfl, .refl n⟩
      · exact ⟨rfl, .refl n⟩
    exact .quiet ⟨hacc.2.timers, hacc.2.clock, hacc.2.config⟩
      (congrArg MemberList.members hacc.1) rfl
  | sendPingReq relay target sequence => exact n.piggybacked_quiet fun _ => rfl
  | suspect id =>
    obtain hs | ⟨i, hg, hs⟩ := n.translate_suspect_cases id <;> rw [hs]
    · exact .idle n
    · refine .change ⟨id, .suspect, i⟩ ⟨rfl, rfl, rfl⟩ ?_ rfl rfl
      intro hnew
      exact absurd (hg.symm.trans hnew) (by simp [NodeRecord.entry])
  | declareDead id => exact absurd rfl (h id)
  | diag event => exact .idle n

theorem Lags.tell {l' : MemberList} (h : Lags view l ids) (hr : r.nodeId ∉ ids)
    (hl : l'.members = observe l.members r) : Lags (observe view r) l' ids := by
  have hget : ∀ k, l'.get k = if r.nodeId = k then some r.entry else l.get k := by
    intro k
    rw [MemberList.get, hl, observe, MemberList.getElem?_insert]
    rfl
  refine ⟨h.nodup, ?_, ?_⟩
  · intro k hk
    rw [hget, observe, getElem?_insert, h.told k hk]
  · intro k hk
    have hne : r.nodeId ≠ k := by rintro rfl; exact hr hk
    rw [hget, observe, getElem?_insert, if_neg hne, if_neg hne]
    exact h.untold k hk

/-- Reporting the first outstanding death brings the view up to date on it. -/
theorem Lags.report {id : NodeId} (h : Lags view l (id :: ids)) {e : MemberEntry}
    (he : l.get id = some e) :
    News view ⟨id, .dead, e.incarnation⟩ ∧
      Lags (observe view ⟨id, .dead, e.incarnation⟩) l ids := by
  obtain ⟨i, hv, hl⟩ := h.untold id mem_cons_self
  obtain rfl : e = ⟨.dead, i⟩ := by simpa using he.symm.trans hl
  have hnodup := nodup_cons.mp h.nodup
  refine ⟨?_, hnodup.2, ?_, ?_⟩
  · intro hnew
    exact absurd (hv.symm.trans hnew) (by simp [NodeRecord.entry])
  · intro k hk
    rw [observe, getElem?_insert]
    split_ifs with hkid
    · rw [← hkid, hl]
      rfl
    · exact h.told k (by simp [Ne.symm hkid, hk])
  · intro k hk
    have hne : id ≠ k := by rintro rfl; exact hnodup.1 hk
    rw [observe, getElem?_insert, if_neg hne]
    exact h.untold k (mem_cons_of_mem id hk)

/-- A member whose death is outstanding is dead, so no suspicion is reported of it. -/
theorem Lags.suspect_not_mem (h : Lags view n.members ids)
    (hr : r ∈ changes (n.translateProbeAction a).2) (ha : ∀ id, a ≠ .declareDead id) :
    r.nodeId ∉ ids := by
  cases a with
  | sendPing dest sequence => exact absurd hr (by simp [translateProbeAction, piggybacked, changes])
  | sendPingReq relay target sequence =>
    exact absurd hr (by simp [translateProbeAction, piggybacked, changes])
  | suspect id =>
    obtain hs | ⟨i, hg, hs⟩ := n.translate_suspect_cases id <;> rw [hs] at hr
    · exact absurd hr (by simp [changes])
    · obtain rfl : r = ⟨id, .suspect, i⟩ := by simpa [changes] using hr
      intro hmem
      obtain ⟨j, -, hj⟩ := h.untold id hmem
      exact absurd (hg.symm.trans hj) (by simp)
  | declareDead id => exact absurd rfl (ha id)
  | diag event => exact absurd hr (by simp [translateProbeAction, changes])

theorem deaths_cons_of_ne (h : ∀ id, a ≠ .declareDead id) (actions : List SwimAction) :
    deaths (a :: actions) = deaths actions := by
  cases a with
  | declareDead id => exact absurd rfl (h id)
  | sendPing | sendPingReq | suspect | diag => rfl

/-- Translating the actions of the probe machine brings a lagging view up to date. -/
theorem translateProbeActions_tells (actions : List SwimAction)
    (h : Lags view n.members (deaths actions)) :
    Tells view (changes (n.translateProbeActions actions).2)
      (n.translateProbeActions actions).1.members.members := by
  induction actions generalizing n view with
  | nil =>
    rw [h.eq]
    exact Tells.nil _
  | cons a actions ih =>
    change Tells view (changes ((n.translateProbeAction a).2 ++
      ((n.translateProbeAction a).1.translateProbeActions actions).2))
      ((n.translateProbeAction a).1.translateProbeActions actions).1.members.members
    rw [changes_append]
    by_cases ha : ∀ id, a ≠ .declareDead id
    · rw [deaths_cons_of_ne ha] at h
      cases n.translateProbeAction_told ha with
      | quiet _ hm hc =>
        rw [hc]
        exact ih ⟨h.nodup, fun id hid => by rw [MemberList.get, hm]; exact h.told id hid,
          fun id hid => by rw [MemberList.get, hm]; exact h.untold id hid⟩
      | change r _ hnews hm hc =>
        have hr : r.nodeId ∉ deaths actions :=
          h.suspect_not_mem (by rw [hc]; exact mem_singleton_self r) ha
        rw [hc]
        refine (Tells.single ?_).append (ih (h.tell hr hm))
        unfold News
        rw [h.told _ hr]
        exact hnews
    · push Not at ha
      obtain ⟨id, rfl⟩ := ha
      obtain ⟨i, -, hl⟩ := h.untold id mem_cons_self
      have hreport := h.report hl
      have htr : n.translateProbeAction (.declareDead id) =
          (n.enqueue ⟨id, .dead, i⟩, [.membershipChanged ⟨id, .dead, i⟩]) := by
        simp only [translateProbeAction, hl]
      rw [htr]
      exact (Tells.single hreport.1).append (ih (n := n.enqueue ⟨id, .dead, i⟩) hreport.2)

theorem stepProbe_reports (n : SwimNode) (event : SwimEvent) :
    Reports n (n.stepProbe event).2 (n.stepProbe event).1 :=
  translateProbeActions_tells _ (step_lags n.probe n.clock event n.members)

theorem applyPiggyback_reports (n : SwimNode) (updates : List MembershipUpdate) :
    Reports n (n.applyPiggyback updates).2 (n.applyPiggyback updates).1 :=
  reports_sequential.collect (fun n u => (n.applyMembershipUpdate_told u).reports) n updates

/-- Every call reports the change it makes to the member list. -/
theorem call_reports (n : SwimNode) (c : Call) : Reports n (n.call c).2 (n.call c).1 := by
  cases c with
  | tick now => exact stepProbe_reports { n with clock := now } .tick
  | ping sender sequence piggyback =>
    exact reports_sequential.andThen (reports_sequential.andThen
      (n.applyPiggyback_reports piggyback) (learnSender_enters _ sender).told.reports)
      (piggybacked_quiet _ fun _ => rfl).reports
  | ack sender sequence piggyback =>
    exact reports_sequential.andThen (reports_sequential.andThen
      (n.applyPiggyback_reports piggyback) (stepProbe_reports _ _))
      (completeRelay_told _ sender sequence).reports
  | pingReq sender target sequence piggyback =>
    exact reports_sequential.andThen (n.applyPiggyback_reports piggyback)
      (piggybacked_quiet (addRelay _ _) fun _ => rfl).reports
  | indirectAck target sequence piggyback =>
    exact reports_sequential.andThen (n.applyPiggyback_reports piggyback) (stepProbe_reports _ _)
  | joinRequest sender =>
    exact reports_sequential.andThen (n.enterJoiner_enters sender).told.reports
      (Told.quiet (.refl _) rfl rfl).reports
  | joinResponse members =>
    exact reports_sequential.collect (fun n r => (n.applyJoinRecord_told r).reports) n members
  | sendFailure target => exact n.stepProbe_reports _
  | leave => exact (Told.quiet ⟨rfl, rfl, rfl⟩ rfl rfl : Told n [] n.leave.1).reports

theorem run_reports (n : SwimNode) (calls : List Call) :
    Reports n (collect call n calls).2 (collect call n calls).1 :=
  reports_sequential.collect call_reports n calls

/-- The notifications of a run, folded from the empty view, give exactly the member list, and
each of them reports a value that the fold did not hold before. -/
theorem membership_stream_reconstructs_view (selfId : NodeId) (config : SwimConfig) (now : ℕ)
    (calls : List Call) :
    let run := collect call (new selfId config now) calls
    (changes run.2).foldl observe ∅ = run.1.members.members ∧
      Guarded News observe ∅ (changes run.2) := by
  have h := run_reports (new selfId config now) calls
  exact ⟨h.fold, h.news⟩

end SwimNode
end Swactor.Swim
