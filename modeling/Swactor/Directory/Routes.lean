import Swactor.Directory.Actor

/-!
# The published routes are exact

After every message that may change them, the route view is the pinned map extended by
the winning claims whose host is this node or a peer that is up, and the actors bound at
the route binder are those the view routes to another node. The binder is told only the
differences between successive views, so the second fact is about its whole call history.
-/
namespace Swactor.Directory
open LastWriter Machine List
open Std (ExtTreeMap ExtTreeSet)
open Swim (MemberState)

/-- The messages after which the routes are published again. -/
def DirectoryIn.Republishes : DirectoryIn → Prop
  | .register _ | .gossip _ | .membership .. | .resync => True
  | .resolve .. | .syncTo _ | .watchRoutes | .tick => False

/-- Node `id` was reported alive, and not reported dead since. -/
def Up (msgs : List DirectoryIn) (id : NodeId) : Prop :=
  ∃ pre post, msgs = pre ++ .membership id .alive :: post ∧ .membership id .dead ∉ post

theorem up_nil (id : NodeId) : ¬ Up [] id := by
  rintro ⟨pre, post, h, -⟩
  simp at h

theorem up_concat (msgs : List DirectoryIn) (msg : DirectoryIn) (id : NodeId) :
    Up (msgs ++ [msg]) id ↔
      msg = .membership id .alive ∨ (msg ≠ .membership id .dead ∧ Up msgs id) := by
  constructor
  · rintro ⟨pre, post, h, hdead⟩
    rcases eq_nil_or_concat post with rfl | ⟨post, last, rfl⟩
    · exact Or.inl (append_inj_right' h rfl |> singleton_inj.mp)
    · rw [concat_eq_append, ← cons_append, ← append_assoc] at h
      have hlast : msg = last := singleton_inj.mp (append_inj_right' h rfl)
      refine Or.inr ⟨?_, pre, post, append_inj_left' h rfl, ?_⟩
      · rintro rfl
        exact hdead (by simp [← hlast])
      · intro hmem
        exact hdead (by simp [hmem])
  · rintro (rfl | ⟨hne, pre, post, rfl, hdead⟩)
    · exact ⟨msgs, [], rfl, not_mem_nil⟩
    · refine ⟨pre, post ++ [msg], by simp, ?_⟩
      simp only [mem_append, mem_singleton, not_or]
      exact ⟨hdead, fun h => hne h.symm⟩

/-- The effect of one call of the route binder on the set of bound actors. -/
def bind (bound : Finset ActorAddress) : DirectoryOut → Finset ActorAddress
  | .ensureRoutable actor => insert actor bound
  | .removeRoute actor => bound.erase actor
  | .gossip .. | .located .. => bound

/-- The actors made routable by a call history and not undone since. -/
def routable (outs : List DirectoryOut) : Finset ActorAddress :=
  outs.foldl bind ∅

theorem mem_foldl_removeRoute (actors : List ActorAddress) (bound : Finset ActorAddress)
    (actor : ActorAddress) :
    actor ∈ (actors.map DirectoryOut.removeRoute).foldl bind bound ↔
      actor ∈ bound ∧ actor ∉ actors := by
  induction actors generalizing bound with
  | nil => simp
  | cons x actors ih =>
    rw [map_cons, foldl_cons, ih]
    simp only [bind, Finset.mem_erase, mem_cons, not_or]
    tauto

theorem mem_foldl_ensureRoutable (actors : List ActorAddress) (bound : Finset ActorAddress)
    (actor : ActorAddress) :
    actor ∈ (actors.map DirectoryOut.ensureRoutable).foldl bind bound ↔
      actor ∈ bound ∨ actor ∈ actors := by
  induction actors generalizing bound with
  | nil => simp
  | cons x actors ih =>
    rw [map_cons, foldl_cons, ih]
    simp only [bind, Finset.mem_insert, mem_cons]
    tauto

/-- Outputs that are no binder calls leave the bound actors alone. -/
theorem foldl_bind_of_forall {outs : List DirectoryOut} (bound : Finset ActorAddress)
    (h : ∀ o ∈ outs, ∀ bound, bind bound o = bound) : outs.foldl bind bound = bound := by
  induction outs with
  | nil => rfl
  | cons o outs ih =>
    rw [foldl_cons, h o mem_cons_self]
    exact ih fun o ho => h o (mem_cons_of_mem _ ho)

namespace DirectoryActor

variable {verify : DirectoryEntry → Bool} {a : DirectoryActor}

/-- The actors in `acc.2` are those that `acc.1` routes to another node. -/
def RemoteExact (self : NodeId)
    (acc : ExtTreeMap ActorAddress NodeId compare × ExtTreeSet ActorAddress compare) : Prop :=
  ∀ actor, actor ∈ acc.2 ↔ ∃ host, acc.1[actor]? = some host ∧ host ≠ self

theorem remoteExact_pinned (a : DirectoryActor) :
    RemoteExact a.selfId (a.pinnedRoutes, a.pinnedRemote) := by
  intro actor
  simp only [pinnedRemote, ExtTreeSet.mem_ofList, contains_iff_mem, mem_filterMap,
    Option.ite_none_right_eq_some, Option.some.injEq, Prod.exists,
    ExtTreeMap.mem_toList_iff_getElem?_eq_some]
  constructor
  · rintro ⟨x, host, hx, hne, rfl⟩
    exact ⟨host, hx, hne⟩
  · rintro ⟨host, hx, hne⟩
    exact ⟨actor, host, hx, hne, rfl⟩

variable {alive : ExtTreeSet NodeId compare}

theorem RemoteExact.publishClaim {self : NodeId}
    {acc : ExtTreeMap ActorAddress NodeId compare × ExtTreeSet ActorAddress compare}
    (h : RemoteExact self acc) (entry : ActorAddress × DirectoryEntry) :
    RemoteExact self (DirectoryActor.publishClaim self alive acc entry) := by
  unfold DirectoryActor.publishClaim
  split_ifs with hmem hself halive
  · exact h
  · intro actor
    simp only [Maps.getElem?_insert_ite]
    split_ifs with hk
    · subst hk
      have hnone : acc.1[entry.1]? = none := ExtTreeMap.getElem?_eq_none hmem
      simp [h entry.1, hnone, hself]
    · exact h actor
  · intro actor
    simp only [Maps.getElem?_insert_ite, ExtTreeSet.mem_insert]
    split_ifs with hk
    · simp [hk, hself]
    · simp [hk, h actor]
  · exact h

theorem nextView_remoteExact (a : DirectoryActor) : RemoteExact a.selfId a.nextView :=
  foldlRecOn (motive := fun acc => RemoteExact a.selfId acc) _ _ (remoteExact_pinned a)
    fun _ hacc entry _ => hacc.publishClaim entry

/-- The route a stored claim gives to an actor. -/
def routeOf (self : NodeId) (alive : ExtTreeSet NodeId compare) (actor : ActorAddress)
    (entry : ActorAddress × DirectoryEntry) : Option NodeId :=
  if entry.1 = actor ∧ (entry.2.nodeId = self ∨ entry.2.nodeId ∈ alive) then
    some entry.2.nodeId
  else none

/-- One claim extends the view, unless its actor is routed already. -/
theorem publishClaim_view (self : NodeId) (alive : ExtTreeSet NodeId compare)
    (acc : ExtTreeMap ActorAddress NodeId compare × ExtTreeSet ActorAddress compare)
    (entry : ActorAddress × DirectoryEntry) (actor : ActorAddress) :
    (publishClaim self alive acc entry).1[actor]? =
      acc.1[actor]?.or (routeOf self alive actor entry) := by
  by_cases hk : entry.1 = actor
  · subst hk
    by_cases hmem : entry.1 ∈ acc.1
    · simp [publishClaim, hmem]
    · by_cases hself : entry.2.nodeId = self
      · simp [publishClaim, routeOf, hmem, hself]
      · by_cases halive : entry.2.nodeId ∈ alive <;>
          simp [publishClaim, routeOf, hmem, hself, halive]
  · have hroute : routeOf self alive actor entry = none := by simp [routeOf, hk]
    rw [hroute, Option.or_none]
    unfold publishClaim
    split_ifs <;> simp [ExtTreeMap.getElem?_insert, hk]

theorem foldl_publishClaim_view (self : NodeId) (alive : ExtTreeSet NodeId compare)
    (entries : List (ActorAddress × DirectoryEntry))
    (acc : ExtTreeMap ActorAddress NodeId compare × ExtTreeSet ActorAddress compare)
    (actor : ActorAddress) :
    (entries.foldl (publishClaim self alive) acc).1[actor]? =
      acc.1[actor]?.or (entries.findSome? (routeOf self alive actor)) := by
  induction entries generalizing acc with
  | nil => simp
  | cons entry entries ih =>
    rw [foldl_cons, ih, publishClaim_view, Option.or_assoc, findSome?_cons]
    cases routeOf self alive actor entry <;> rfl

theorem routeOf_eq_some {self : NodeId} {actor : ActorAddress}
    {entry : ActorAddress × DirectoryEntry} {host : NodeId} :
    routeOf self alive actor entry = some host ↔
      entry.1 = actor ∧ entry.2.nodeId = host ∧ (host = self ∨ host ∈ alive) := by
  simp only [routeOf, Option.ite_none_right_eq_some, Option.some.injEq]
  constructor
  · rintro ⟨⟨hk, hup⟩, rfl⟩
    exact ⟨hk, rfl, hup⟩
  · rintro ⟨hk, rfl, hup⟩
    exact ⟨⟨hk, hup⟩, rfl⟩

/-- The claims give an actor the route of the claim stored for it. -/
theorem findSome_routeOf (a : DirectoryActor) (actor : ActorAddress) (host : NodeId) :
    a.map.toList.findSome? (routeOf a.selfId a.alive actor) = some host ↔
      ∃ c, a.map[actor]? = some c ∧ c.nodeId = host ∧ (host = a.selfId ∨ host ∈ a.alive) := by
  have hfound (h : NodeId)
      (hf : a.map.toList.findSome? (routeOf a.selfId a.alive actor) = some h) :
      ∃ c, a.map[actor]? = some c ∧ c.nodeId = h ∧ (h = a.selfId ∨ h ∈ a.alive) := by
    obtain ⟨⟨x, c⟩, hmem, hroute⟩ := exists_of_findSome?_eq_some hf
    obtain ⟨rfl, hhost⟩ := routeOf_eq_some.mp hroute
    exact ⟨c, ExtTreeMap.mem_toList_iff_getElem?_eq_some.mp hmem, hhost⟩
  constructor
  · exact hfound host
  · rintro ⟨c, hc, hhost⟩
    cases hf : a.map.toList.findSome? (routeOf a.selfId a.alive actor) with
    | none =>
      rw [findSome?_eq_none_iff] at hf
      have hnone := hf (actor, c) (ExtTreeMap.mem_toList_iff_getElem?_eq_some.mpr hc)
      have hsome : routeOf a.selfId a.alive actor (actor, c) = some host :=
        routeOf_eq_some.mpr ⟨rfl, hhost⟩
      simp [hsome] at hnone
    | some h =>
      obtain ⟨c', hc', rfl, -⟩ := hfound h hf
      obtain rfl : c' = c := by simpa [hc] using hc'.symm
      rw [hhost.1]

theorem nextView_iff (a : DirectoryActor) (actor : ActorAddress) (host : NodeId) :
    a.nextView.1[actor]? = some host ↔ a.pinnedRoutes[actor]? = some host ∨
      (a.pinnedRoutes[actor]? = none ∧ ∃ c, a.map[actor]? = some c ∧ c.nodeId = host ∧
        (host = a.selfId ∨ host ∈ a.alive)) := by
  rw [nextView, foldl_publishClaim_view, Option.or_eq_some_iff, findSome_routeOf]

/-- The calls of the route binder turn the bound actors before into those after. -/
def Tracks (a : DirectoryActor) (outs : List DirectoryOut) (b : DirectoryActor) : Prop :=
  ∀ bound : Finset ActorAddress, (∀ actor, actor ∈ bound ↔ actor ∈ a.boundRemote) →
    ∀ actor, actor ∈ outs.foldl bind bound ↔ actor ∈ b.boundRemote

theorem tracks_sequential : Sequential Tracks where
  nil _ _ h := h
  append hab hbc bound h := by
    simp only [foldl_append]
    exact hbc _ (hab bound h)

theorem tracks_republish (a : DirectoryActor) : Tracks a a.republish.2 a.republish.1 := by
  intro bound h actor
  simp only [republish, foldl_append, mem_foldl_ensureRoutable, mem_foldl_removeRoute,
    mem_filter, h, ExtTreeSet.mem_toList, Bool.not_eq_true', ← Bool.not_eq_true,
    ExtTreeSet.contains_iff_mem]
  tauto

variable {outs : List DirectoryOut}

theorem Tracks.of_boundRemote_eq {b c : DirectoryActor} (h : Tracks b outs c)
    (hb : b.boundRemote = a.boundRemote) : Tracks a outs c := by
  intro bound hbound
  rw [← hb] at hbound
  exact h bound hbound

theorem tracks_of_forall {b : DirectoryActor} (h : ∀ o ∈ outs, ∀ bound, bind bound o = bound)
    (hb : b.boundRemote = a.boundRemote) : Tracks a outs b := by
  intro bound hbound
  rw [foldl_bind_of_forall bound h, hb]
  exact hbound

/-- The fields that merging and arming leave alone. -/
structure Framed (a b : DirectoryActor) : Prop where
  selfId : b.selfId = a.selfId
  pinnedRoutes : b.pinnedRoutes = a.pinnedRoutes
  boundRemote : b.boundRemote = a.boundRemote

theorem mergeOne_framed (verify : DirectoryEntry → Bool) (a : DirectoryActor)
    (claim : DirectoryEntry) :
    Framed a (a.mergeOne verify claim).1 ∧ (a.mergeOne verify claim).1.alive = a.alive := by
  simp only [mergeOne]
  split_ifs <;> exact ⟨⟨rfl, rfl, rfl⟩, rfl⟩

theorem mergeAll_framed (verify : DirectoryEntry → Bool) (a : DirectoryActor)
    (claims : List DirectoryEntry) :
    let b := claims.foldl (fun a claim => (a.mergeOne verify claim).1) a
    Framed a b ∧ b.alive = a.alive := by
  induction claims generalizing a with
  | nil => exact ⟨⟨rfl, rfl, rfl⟩, rfl⟩
  | cons claim claims ih =>
    obtain ⟨h, halive⟩ := mergeOne_framed verify a claim
    obtain ⟨h', halive'⟩ := ih (a.mergeOne verify claim).1
    exact ⟨⟨h'.selfId.trans h.selfId, h'.pinnedRoutes.trans h.pinnedRoutes,
      h'.boundRemote.trans h.boundRemote⟩, halive'.trans halive⟩

theorem updateAlive_framed (a : DirectoryActor) (node : NodeId) (state : MemberState) :
    Framed a (a.updateAlive node state) := by
  cases state with
  | alive =>
    simp only [updateAlive]
    split_ifs <;> exact ⟨rfl, rfl, rfl⟩
  | dead | suspect => exact ⟨rfl, rfl, rfl⟩

theorem mem_updateAlive (a : DirectoryActor) (node : NodeId) (state : MemberState) (id : NodeId) :
    id ∈ (a.updateAlive node state).alive ↔
      (node = id ∧ state = .alive ∧ id ≠ a.selfId) ∨
        (id ∈ a.alive ∧ ¬ (node = id ∧ state = .dead)) := by
  cases state with
  | alive =>
    simp only [updateAlive]
    split_ifs with h
    · simp only [armAll, ExtTreeSet.mem_insert, Std.compare_eq_iff_eq]
      grind
    · grind
  | dead =>
    simp only [updateAlive, ExtTreeSet.mem_erase]
    grind
  | suspect => simp [updateAlive]

/-- The state a message leads to before the routes are published again. -/
def prepared (verify : DirectoryEntry → Bool) (a : DirectoryActor) (env : Surroundings) :
    DirectoryIn → DirectoryActor
  | .register claim => (a.mergeOne verify claim).1
  | .gossip claims => claims.foldl (fun a claim => (a.mergeOne verify claim).1) a
  | .membership node state => a.updateAlive node state
  | .resync => a.armAll
  | .tick => (a.disseminate env).1
  | .resolve .. | .syncTo _ | .watchRoutes => a

variable {msg : DirectoryIn}

theorem handle_of_republishes (h : msg.Republishes) (env : Surroundings) :
    a.handle verify env msg = (a.prepared verify env msg).republish := by
  cases msg with
  | register | gossip | membership | resync => rfl
  | resolve | syncTo | watchRoutes | tick => exact h.elim

theorem handle_of_not_republishes (h : ¬ msg.Republishes) (env : Surroundings) :
    (a.handle verify env msg).1 = a.prepared verify env msg := by
  cases msg with
  | register | gossip | membership | resync => exact absurd trivial h
  | resolve | syncTo | watchRoutes | tick => rfl

theorem bind_of_not_republishes (h : ¬ msg.Republishes) {env : Surroundings} {o : DirectoryOut}
    (ho : o ∈ (a.handle verify env msg).2) (bound : Finset ActorAddress) :
    bind bound o = bound := by
  cases msg with
  | register | gossip | membership | resync => exact absurd trivial h
  | resolve actor reply =>
    obtain rfl := mem_singleton.mp ho
    rfl
  | watchRoutes => simp [handle] at ho
  | syncTo peer =>
    simp only [handle, syncTo] at ho
    split at ho
    · obtain ⟨claims, -, rfl⟩ := mem_map.mp ho
      rfl
    · simp at ho
  | tick =>
    simp only [handle, disseminate] at ho
    split_ifs at ho
    · simp at ho
    · simp at ho
    · simp only [Option.mem_toList, Option.map_eq_some_iff] at ho
      obtain ⟨addr, -, rfl⟩ := ho
      rfl

section

variable (verify : DirectoryEntry → Bool) (a : DirectoryActor) (env : Surroundings)
  (msg : DirectoryIn)

theorem prepared_framed : Framed a (a.prepared verify env msg) := by
  cases msg with
  | register claim => exact (mergeOne_framed verify a claim).1
  | gossip claims => exact (mergeAll_framed verify a claims).1
  | membership node state => exact updateAlive_framed a node state
  | tick =>
    simp only [prepared, disseminate]
    split_ifs <;> exact ⟨rfl, rfl, rfl⟩
  | resync | resolve | syncTo | watchRoutes => exact ⟨rfl, rfl, rfl⟩

theorem mem_prepared_alive (id : NodeId) :
    id ∈ (a.prepared verify env msg).alive ↔
      (msg = .membership id .alive ∧ id ≠ a.selfId) ∨
        (id ∈ a.alive ∧ msg ≠ .membership id .dead) := by
  cases msg with
  | register claim => simp [prepared, (mergeOne_framed verify a claim).2]
  | gossip claims => simp [prepared, (mergeAll_framed verify a claims).2]
  | membership node state =>
    simp only [prepared, mem_updateAlive, DirectoryIn.membership.injEq, ne_eq, and_assoc]
  | tick =>
    have halive : (a.disseminate env).1.alive = a.alive := by
      simp only [disseminate]
      split_ifs <;> rfl
    simp [prepared, halive]
  | resync => simp [prepared, armAll]
  | resolve | syncTo | watchRoutes => simp [prepared]

/-- The identity, the pinned map and the alive peers do not depend on publishing. -/
theorem handle_eq :
    let b := (a.handle verify env msg).1
    b.selfId = a.selfId ∧ b.pinnedRoutes = a.pinnedRoutes ∧
      b.alive = (a.prepared verify env msg).alive := by
  have hf := prepared_framed verify a env msg
  by_cases h : msg.Republishes
  · rw [handle_of_republishes h]
    exact ⟨hf.selfId, hf.pinnedRoutes, rfl⟩
  · rw [handle_of_not_republishes h]
    exact ⟨hf.selfId, hf.pinnedRoutes, rfl⟩

theorem tracks_handle : Tracks a (a.handle verify env msg).2 (a.handle verify env msg).1 := by
  have hf := prepared_framed verify a env msg
  by_cases h : msg.Republishes
  · rw [handle_of_republishes h]
    exact (tracks_republish _).of_boundRemote_eq hf.boundRemote
  · apply tracks_of_forall fun o ho bound => bind_of_not_republishes h ho bound
    rw [handle_of_not_republishes h]
    exact hf.boundRemote

end

/-- A republishing message leaves the view of the state it leads to. -/
theorem handle_routeView (h : msg.Republishes) (env : Surroundings) :
    let b := (a.handle verify env msg).1
    b.routeView = b.nextView.1 ∧ b.boundRemote = b.nextView.2 := by
  rw [handle_of_republishes h]
  exact ⟨rfl, rfl⟩

theorem after_concat (run : List Input) (input : Input) :
    a.after verify (run ++ [input]) =
      ((a.after verify run).handle verify input.env input.msg).1 := by
  simp [after]

section Fresh

variable (verify) (self : NodeId) (view pinned : ExtTreeMap ActorAddress NodeId) (run : List Input)

theorem after_selfId :
    ((withPinnedRoutes self view pinned).after verify run).selfId = self ∧
      ((withPinnedRoutes self view pinned).after verify run).pinnedRoutes = pinned := by
  induction run using reverseRecOn with
  | nil => exact ⟨rfl, rfl⟩
  | append_singleton run input ih =>
    rw [after_concat]
    have h := handle_eq verify ((withPinnedRoutes self view pinned).after verify run)
      input.env input.msg
    exact ⟨h.1.trans ih.1, h.2.1.trans ih.2⟩

/-- The alive set is the set of peers that are up. -/
theorem mem_after_alive (id : NodeId) :
    id ∈ ((withPinnedRoutes self view pinned).after verify run).alive ↔
      id ≠ self ∧ Up (run.map (·.msg)) id := by
  induction run using reverseRecOn with
  | nil => simp [after, withPinnedRoutes, up_nil]
  | append_singleton run input ih =>
    have h := handle_eq verify ((withPinnedRoutes self view pinned).after verify run)
      input.env input.msg
    rw [after_concat, h.2.2, mem_prepared_alive, ih, (after_selfId verify self view pinned run).1,
      map_append, map_singleton, up_concat]
    tauto

/-- The outputs of a run of a fresh actor. -/
def outputs (run : List Input) : List DirectoryOut :=
  (collect (fun a (input : Input) => a.handle verify input.env input.msg)
    (withPinnedRoutes self view pinned) run).2

/-- The actors bound at the binder are those the actor remembers. -/
theorem mem_routable (actor : ActorAddress) :
    actor ∈ routable (outputs verify self view pinned run) ↔
      actor ∈ ((withPinnedRoutes self view pinned).after verify run).boundRemote := by
  have h := tracks_sequential.collect
    (fun a (input : Input) => tracks_handle verify a input.env input.msg)
    (withPinnedRoutes self view pinned) run
  rw [collect_fst] at h
  exact h ∅ (by simp [withPinnedRoutes]) actor

end Fresh

/-- The claim is verified, was delivered in the run, and no verified claim delivered for
the same actor has a larger key. -/
def Winning (verify : DirectoryEntry → Bool) (run : List Input) (actor : ActorAddress)
    (claim : DirectoryEntry) : Prop :=
  IsWinner key (fun c => (c ∈ delivered run ∧ verify c = true) ∧ c.actorAddr = actor) (some claim)

/-- The host stored for an actor is the host of its winning claims. -/
theorem stored_host_iff (verify : DirectoryEntry → Bool) (self : NodeId)
    (view pinned : ExtTreeMap ActorAddress NodeId) (run : List Input) (actor : ActorAddress)
    (host : NodeId) :
    (∃ c, ((withPinnedRoutes self view pinned).after verify run).map[actor]? = some c ∧
      c.nodeId = host) ↔ ∃ c, Winning verify run actor c ∧ c.nodeId = host := by
  have hwin := holds_delivered verify self view pinned run actor
  constructor
  · rintro ⟨c, hc, rfl⟩
    rw [hc] at hwin
    exact ⟨c, hwin, rfl⟩
  · rintro ⟨c, hc, rfl⟩
    cases hx : ((withPinnedRoutes self view pinned).after verify run).map[actor]? with
    | none =>
      rw [hx] at hwin
      exact absurd hc.1 (hwin c)
    | some x =>
      rw [hx] at hwin
      have hk : key x = key c := le_antisymm (hc.2 x hwin.1) (hwin.2 c hc.1)
      have hpair : (x.generation, x.nodeId) = (c.generation, c.nodeId) := hk
      exact ⟨x, rfl, (Prod.mk.inj hpair).2⟩

/-- **Route view and route bindings are exact.** After every Register, Gossip, Membership
or Resync message of any run, the route view is the pinned map extended by the winning
claims whose host is this node or is up, and the actors bound at the route binder are
those the view routes to another node. -/
theorem routes_exact (verify : DirectoryEntry → Bool) (self : NodeId)
    (view pinned : ExtTreeMap ActorAddress NodeId) (run : List Input) (last : Input)
    (hlast : last.msg.Republishes) :
    let msgs := (run ++ [last]).map (·.msg)
    let published := ((withPinnedRoutes self view pinned).after verify (run ++ [last])).routeView
    (∀ actor host, published[actor]? = some host ↔ pinned[actor]? = some host ∨
      (pinned[actor]? = none ∧
        (∃ claim, Winning verify (run ++ [last]) actor claim ∧ claim.nodeId = host) ∧
        (host = self ∨ Up msgs host))) ∧
    (∀ actor, actor ∈ routable (outputs verify self view pinned (run ++ [last])) ↔
      ∃ host, published[actor]? = some host ∧ host ≠ self) := by
  intro msgs published
  let a := (withPinnedRoutes self view pinned).after verify (run ++ [last])
  obtain ⟨hself, hpinned⟩ : a.selfId = self ∧ a.pinnedRoutes = pinned :=
    after_selfId verify self view pinned (run ++ [last])
  have hview : a.routeView = a.nextView.1 ∧ a.boundRemote = a.nextView.2 := by
    simp only [a, after_concat]
    exact handle_routeView hlast last.env
  constructor
  · intro actor host
    have hstored := stored_host_iff verify self view pinned (run ++ [last]) actor host
    have hup := mem_after_alive verify self view pinned (run ++ [last]) host
    have hreach : (host = self ∨ (host ≠ self ∧ Up msgs host)) ↔ (host = self ∨ Up msgs host) := by
      tauto
    rw [show published = _ from hview.1, nextView_iff, hself, hpinned, ← hstored, hup, hreach,
      ← exists_and_right]
    simp only [a, and_assoc]
  · intro actor
    have hexact := nextView_remoteExact a actor
    rw [mem_routable, show a.boundRemote = _ from hview.2, hexact, ← hview.1, hself]

/-- A false death hides the route of a claim, and the peer's return restores it. -/
theorem routes_exact_after_recovery :
    let env : Surroundings := ⟨some, [7], by simp⟩
    let run : List Input := [⟨env, .membership 2 .alive⟩, ⟨env, .register ⟨7, 2, 1, 0⟩⟩,
      ⟨env, .membership 2 .dead⟩]
    let last : Input := ⟨env, .membership 2 .alive⟩
    last.msg.Republishes ∧
      7 ∈ routable (outputs (fun _ => true) 1 ∅ ∅ (run ++ [last])) := by
  intro env run last
  refine ⟨trivial, ?_⟩
  rw [(routes_exact (fun _ => true) 1 ∅ ∅ run last trivial).2 7]
  exact ⟨2, by decide +kernel, by decide⟩

end DirectoryActor

end Swactor.Directory
