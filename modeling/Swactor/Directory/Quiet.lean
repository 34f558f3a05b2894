import Swactor.Directory.Actor
import Swactor.Lib.Amortized

/-!
# A settled directory goes quiet

In a cluster every gossip frame that was sent may be delivered to any actor, at any later
time and any number of times. The claims in it are among the registered ones. An actor's
potential is the budget it still owes plus one full budget for every registered claim that
could still supersede what it stores. A merge never raises it, every copy sent by a tick
is paid from it, and a membership or Resync event adds at most one full budget per claim.
-/
namespace Swactor.Directory
open LastWriter Machine DirectoryActor DirectoryOut List
open Std (ExtTreeMap)
open Swim (MemberState)

/-- The claims that an output carries to a peer. -/
def DirectoryOut.claims : DirectoryOut → List DirectoryEntry
  | .gossip _ claims => claims
  | .located .. | .removeRoute _ | .ensureRoutable _ => []

/-- Membership and Resync events. -/
def DirectoryIn.disturbs : DirectoryIn → Bool
  | .membership .. | .resync => true
  | .register _ | .gossip _ | .resolve .. | .syncTo _ | .watchRoutes | .tick => false

/-- The claim copies sent by a tick. -/
def copies (msg : DirectoryIn) (outs : List DirectoryOut) : ℕ :=
  match msg with
  | .tick => (outs.flatMap claims).length
  | .register _ | .gossip _ | .membership .. | .resolve .. | .resync | .syncTo _
  | .watchRoutes => 0

/-- One full budget per claim for every membership or Resync event. -/
def charge (C : Finset DirectoryEntry) (msg : DirectoryIn) : ℕ :=
  if msg.disturbs then 24 * C.card else 0

namespace DirectoryActor

variable {verify : DirectoryEntry → Bool} {a : DirectoryActor}

theorem budget_le (a : DirectoryActor) : a.budget ≤ 24 := by
  have hmin : fanout = 3 := rfl
  have hmax : fanout * maxRounds = 24 := rfl
  unfold budget
  omega

theorem budget_pos (a : DirectoryActor) : 0 < a.budget := by
  have hmin : fanout = 3 := rfl
  unfold budget
  omega

/-- The budget owed to the given actors. -/
def heat (actors : Finset ActorAddress) (hot : ExtTreeMap ActorAddress ℕ compare) : ℕ :=
  ∑ actor ∈ actors, hot[actor]?.getD 0

variable (actors : Finset ActorAddress)

theorem heat_insert_le (hot : ExtTreeMap ActorAddress ℕ compare) (actor : ActorAddress) (v : ℕ) :
    heat actors (hot.insert actor v) ≤ heat actors hot + v := by
  have hterm (k : ActorAddress) :
      (hot.insert actor v)[k]?.getD 0 ≤ hot[k]?.getD 0 + if k = actor then v else 0 := by
    simp only [Maps.getElem?_insert_ite]
    split_ifs <;> simp_all
  calc heat actors (hot.insert actor v)
      ≤ ∑ k ∈ actors, (hot[k]?.getD 0 + if k = actor then v else 0) :=
        Finset.sum_le_sum fun k _ => hterm k
    _ ≤ heat actors hot + v := by
        rw [Finset.sum_add_distrib, Finset.sum_ite_eq']
        unfold heat
        split_ifs <;> omega

theorem heat_foldl_insert_le (v : ℕ) (keys : List ActorAddress)
    (hot : ExtTreeMap ActorAddress ℕ compare) :
    heat actors (keys.foldl (fun hot actor => hot.insert actor v) hot) ≤
      heat actors hot + keys.length * v := by
  induction keys generalizing hot with
  | nil => simp
  | cons k keys ih =>
    have h := ih (hot.insert k v)
    have h' := heat_insert_le actors hot k v
    rw [foldl_cons, length_cons, Nat.add_mul]
    omega

/-- Spending a unit of an armed actor. -/
theorem getElem?_spend (hot : ExtTreeMap ActorAddress ℕ compare) (actor k : ActorAddress) :
    (spend hot actor)[k]?.getD 0 = hot[k]?.getD 0 - if k = actor then 1 else 0 := by
  unfold spend
  cases h : hot[actor]? with
  | none =>
    split_ifs with hk
    · simp [hk, h]
    · simp
  | some left =>
    by_cases hk : k = actor
    · subst hk
      by_cases hz : left - 1 = 0
      · simp [hz, h]
      · simp [hz, h]
    · have hk' : actor ≠ k := fun h => hk h.symm
      by_cases hz : left - 1 = 0 <;>
        simp [hz, hk, ExtTreeMap.getElem?_erase, ExtTreeMap.getElem?_insert, hk']

variable {hot : ExtTreeMap ActorAddress ℕ compare}

theorem heat_spend {actors : Finset ActorAddress} {actor : ActorAddress} (hmem : actor ∈ actors)
    (hpos : 0 < hot[actor]?.getD 0) : heat actors (spend hot actor) + 1 = heat actors hot := by
  unfold heat
  rw [← Finset.add_sum_erase _ _ hmem, ← Finset.add_sum_erase actors _ hmem]
  have hrest : ∑ k ∈ actors.erase actor, (spend hot actor)[k]?.getD 0 =
      ∑ k ∈ actors.erase actor, hot[k]?.getD 0 := by
    refine Finset.sum_congr rfl fun k hk => ?_
    simp [getElem?_spend, Finset.ne_of_mem_erase hk]
  rw [hrest, getElem?_spend]
  simp only [if_true]
  omega

theorem heat_spend_le (hot : ExtTreeMap ActorAddress ℕ compare) (actor : ActorAddress) :
    heat actors (spend hot actor) ≤ heat actors hot :=
  Finset.sum_le_sum fun k _ => by rw [getElem?_spend]; omega

/-- Every claim that a batch copies is paid for by a unit of heat. -/
theorem length_add_heat_le {actors : Finset ActorAddress}
    {map : ExtTreeMap ActorAddress DirectoryEntry compare}
    (hmap : ∀ (k : ActorAddress) (c : DirectoryEntry), map[k]? = some c → k ∈ actors)
    {picks : List ActorAddress} (hnodup : picks.Nodup) (hpos : ∀ k ∈ picks, 0 < hot[k]?.getD 0) :
    (picks.filterMap fun k => map[k]?).length + heat actors (picks.foldl spend hot) ≤
      heat actors hot := by
  induction picks generalizing hot with
  | nil => simp
  | cons k picks ih =>
    obtain ⟨hk, hnodup⟩ := nodup_cons.mp hnodup
    have hpos' : ∀ j ∈ picks, 0 < (spend hot k)[j]?.getD 0 := by
      intro j hj
      have hne : j ≠ k := fun h => hk (h ▸ hj)
      simpa [getElem?_spend, hne] using hpos j (mem_cons_of_mem k hj)
    have hrest := ih hnodup hpos'
    rw [foldl_cons, filterMap_cons]
    cases hc : map[k]? with
    | none =>
      have := heat_spend_le actors hot k
      simp only
      omega
    | some c =>
      have := heat_spend (hmap k c hc) (hpos k mem_cons_self)
      simp only [length_cons]
      omega

/-- Every armed actor has some budget left. -/
def Armed (hot : ExtTreeMap ActorAddress ℕ compare) : Prop :=
  ∀ (actor : ActorAddress) (v : ℕ), hot[actor]? = some v → 0 < v

theorem Armed.insert (h : Armed hot) (actor : ActorAddress) {v : ℕ} (hv : 0 < v) :
    Armed (hot.insert actor v) := by
  intro k w hw
  simp only [Maps.getElem?_insert_ite] at hw
  split_ifs at hw with hk
  · obtain rfl := Option.some.inj hw
    exact hv
  · exact h k w hw

theorem Armed.spend (h : Armed hot) (actor : ActorAddress) : Armed (spend hot actor) := by
  unfold DirectoryActor.spend
  split
  · split_ifs with hz
    · intro k w hw
      simp only [Maps.getElem?_erase_ite] at hw
      split_ifs at hw
      exact h k w hw
    · exact h.insert actor (by omega)
  · exact h

/-- The stored claims are among `C`, each under its actor, and armed budgets are positive. -/
structure Within (C : Finset DirectoryEntry) (a : DirectoryActor) : Prop where
  stored : ∀ (actor : ActorAddress) (c : DirectoryEntry),
    a.map[actor]? = some c → c ∈ C ∧ c.actorAddr = actor
  armed : Armed a.hot

variable {C : Finset DirectoryEntry}

open Classical in
/-- The claims that would still supersede what is stored. -/
noncomputable def ahead (C : Finset DirectoryEntry) (a : DirectoryActor) : Finset DirectoryEntry :=
  C.filter fun c => Raises key a.map[c.actorAddr]? c

theorem ahead_card_le (C : Finset DirectoryEntry) (a : DirectoryActor) :
    (ahead C a).card ≤ C.card := by
  classical exact Finset.card_filter_le _ _

/-- The budget owed, and one full budget for every claim ahead. -/
noncomputable def potential (C : Finset DirectoryEntry) (a : DirectoryActor) : ℕ :=
  heat (C.image (·.actorAddr)) a.hot + 24 * (ahead C a).card

theorem potential_congr {b : DirectoryActor} (hmap : b.map = a.map) (hhot : b.hot = a.hot) :
    potential C b = potential C a := by
  rw [potential, potential, ahead, ahead, hmap, hhot]

/-- A superseding claim is ahead before its merge and not after it. -/
theorem ahead_insert_lt {claim : DirectoryEntry} (hC : claim ∈ C)
    (hr : Raises key a.map[claim.actorAddr]? claim) {b : DirectoryActor}
    (hb : b.map = a.map.insert claim.actorAddr claim) : (ahead C b).card < (ahead C a).card := by
  apply Finset.card_lt_card
  rw [Finset.ssubset_iff_of_subset]
  · refine ⟨claim, by simp [ahead, hC, hr], ?_⟩
    simp [ahead, hb, Raises]
  · intro c hc
    simp only [ahead, Finset.mem_filter, hb, Maps.getElem?_insert_ite] at hc ⊢
    refine ⟨hc.1, ?_⟩
    split_ifs at hc with hk
    · intro x hx
      rw [← hk] at hx
      exact (hr x hx).trans (hc.2 claim rfl)
    · exact hc.2

section

variable (h : Within C a)
include h

theorem Within.mergeOne (verify : DirectoryEntry → Bool) {claim : DirectoryEntry} (hC : claim ∈ C) :
    Within C (a.mergeOne verify claim).1 ∧
      potential C (a.mergeOne verify claim).1 ≤ potential C a := by
  by_cases hv : verify claim = true
  · by_cases hr : Raises key a.map[claim.actorAddr]? claim
    · rw [mergeOne_of_raises hv hr]
      refine ⟨⟨fun actor c hc => ?_, h.armed.insert _ (budget_pos a)⟩, ?_⟩
      · simp only [Maps.getElem?_insert_ite] at hc
        split_ifs at hc with hk
        · obtain rfl := Option.some.inj hc
          exact ⟨hC, hk⟩
        · exact h.stored actor c hc
      · have hahead := ahead_insert_lt hC hr (b := { a with
          hot := a.hot.insert claim.actorAddr a.budget
          map := a.map.insert claim.actorAddr claim }) rfl
        have hheat := heat_insert_le (C.image (·.actorAddr)) a.hot claim.actorAddr a.budget
        have hbudget := budget_le a
        simp only [potential] at hahead ⊢
        omega
    · rw [mergeOne_of_not_raises hr]
      exact ⟨h, le_rfl⟩
  · rw [mergeOne_of_forged (Bool.eq_false_iff.mpr hv)]
    exact ⟨h, le_rfl⟩

theorem Within.mergeAll (verify : DirectoryEntry → Bool) {claims : List DirectoryEntry}
    (hC : ∀ c ∈ claims, c ∈ C) :
    Within C (claims.foldl (fun a claim => (a.mergeOne verify claim).1) a) ∧
      potential C (claims.foldl (fun a claim => (a.mergeOne verify claim).1) a) ≤
        potential C a := by
  induction claims generalizing a with
  | nil => exact ⟨h, le_rfl⟩
  | cons claim claims ih =>
    obtain ⟨h1, hle1⟩ := h.mergeOne verify (hC claim mem_cons_self)
    obtain ⟨h2, hle2⟩ := ih h1 fun c hc => hC c (mem_cons_of_mem claim hc)
    exact ⟨h2, hle2.trans hle1⟩

/-- An actor stores claims for at most as many actors as there are claims. -/
theorem Within.length_keys_le : a.map.keys.length ≤ C.card := by
  have hnodup : a.map.keys.Nodup := by
    exact ExtTreeMap.nodup_keys
  calc a.map.keys.length = a.map.keys.toFinset.card := (toFinset_card_of_nodup hnodup).symm
    _ ≤ (C.image (·.actorAddr)).card := by
        refine Finset.card_le_card fun k hk => ?_
        rw [mem_toFinset, ExtTreeMap.mem_keys] at hk
        obtain ⟨hc, hkey⟩ := h.stored k _ (ExtTreeMap.getElem?_eq_some_getElem hk)
        exact Finset.mem_image.mpr ⟨_, hc, hkey⟩
    _ ≤ C.card := Finset.card_image_le

theorem Within.armAll : Within C a.armAll ∧ potential C a.armAll ≤ potential C a + 24 * C.card := by
  refine ⟨⟨h.stored, ?_⟩, ?_⟩
  · exact foldlRecOn (motive := fun hot => Armed hot) _ _ h.armed
      fun hot hhot actor _ => hhot.insert actor (budget_pos a)
  · have hheat : heat (C.image (·.actorAddr)) a.armAll.hot ≤ _ :=
      heat_foldl_insert_le (C.image (·.actorAddr)) a.budget a.map.keys a.hot
    have hkeys : a.map.keys.length * a.budget ≤ C.card * 24 :=
      Nat.mul_le_mul h.length_keys_le (budget_le a)
    have hahead : ahead C a.armAll = ahead C a := rfl
    rw [potential, potential, hahead]
    omega

theorem Within.updateAlive (node : NodeId) (state : MemberState) :
    Within C (a.updateAlive node state) ∧
      potential C (a.updateAlive node state) ≤ potential C a + 24 * C.card := by
  cases state with
  | alive =>
    simp only [DirectoryActor.updateAlive]
    split_ifs
    · have h' : Within C { a with alive := a.alive.insert node } := ⟨h.stored, h.armed⟩
      exact h'.armAll
    · exact ⟨h, Nat.le_add_right _ _⟩
  | dead => exact ⟨⟨h.stored, h.armed⟩, Nat.le_add_right _ _⟩
  | suspect => exact ⟨h, Nat.le_add_right _ _⟩

/-- The copies of a batch are paid for, whether or not the peer's address is known. -/
theorem Within.takeHot (env : Surroundings) (limit : ℕ) :
    Within C (a.takeHot env limit).1 ∧ (∀ c ∈ (a.takeHot env limit).2, c ∈ C) ∧
      (a.takeHot env limit).2.length + potential C (a.takeHot env limit).1 ≤ potential C a := by
  let picks := (env.iter.filter fun actor => a.hot.contains actor).take limit
  have hpicks (k : ActorAddress) (hk : k ∈ picks) : 0 < a.hot[k]?.getD 0 := by
    have hmem : k ∈ a.hot := by simpa using (mem_filter.mp (mem_of_mem_take hk)).2
    have hget := ExtTreeMap.getElem?_eq_some_getElem hmem
    rw [hget]
    exact h.armed k _ hget
  have hnodup : picks.Nodup := (env.nodup.filter _).sublist (take_sublist limit _)
  have hmap (k : ActorAddress) (c : DirectoryEntry) (hc : a.map[k]? = some c) :
      k ∈ C.image (·.actorAddr) :=
    Finset.mem_image.mpr ⟨c, h.stored k c hc⟩
  have hpaid := length_add_heat_le hmap hnodup hpicks
  refine ⟨⟨h.stored, ?_⟩, fun c hc => ?_, ?_⟩
  · exact foldlRecOn (motive := fun hot => Armed hot) _ _ h.armed
      fun hot hhot actor _ => hhot.spend actor
  · obtain ⟨k, -, hk⟩ := mem_filterMap.mp hc
    exact (h.stored k c hk).1
  · have hahead : ahead C (a.takeHot env limit).1 = ahead C a := rfl
    rw [potential, potential, hahead]
    simp only [DirectoryActor.takeHot, picks] at hpaid ⊢
    omega

theorem Within.disseminate (env : Surroundings) :
    Within C (a.disseminate env).1 ∧ (∀ o ∈ (a.disseminate env).2, ∀ c ∈ o.claims, c ∈ C) ∧
      ((a.disseminate env).2.flatMap claims).length +
        potential C (a.disseminate env).1 ≤ potential C a := by
  have hcursor : Within C { a with cursor := wrappingAdd a.cursor 1 } := ⟨h.stored, h.armed⟩
  obtain ⟨hwithin, hclaims, hpaid⟩ := hcursor.takeHot env batch
  have hsame : potential C { a with cursor := wrappingAdd a.cursor 1 } = potential C a :=
    potential_congr rfl rfl
  rw [hsame] at hpaid
  simp only [DirectoryActor.disseminate]
  split_ifs with hidle hempty
  · exact ⟨h, by simp, by simp⟩
  · exact ⟨hwithin, by simp, by simp; omega⟩
  · refine ⟨hwithin, fun o ho c hc => ?_, ?_⟩
    · simp only [Option.mem_toList, Option.map_eq_some_iff] at ho
      obtain ⟨addr, -, rfl⟩ := ho
      exact hclaims c hc
    · generalize a.alive.toList[a.cursor % a.alive.toList.length]?.bind env.resolve = dest
      cases dest with
      | none => simp; omega
      | some addr => simpa [claims] using hpaid

end

/-- A tick that sends anything sends a copy. -/
theorem disseminate_copies_pos {env : Surroundings} (h : (a.disseminate env).2 ≠ []) :
    0 < ((a.disseminate env).2.flatMap claims).length := by
  simp only [disseminate] at h ⊢
  split_ifs at h ⊢ with hidle hempty
  · exact absurd rfl h
  · exact absurd rfl h
  · generalize a.alive.toList[a.cursor % a.alive.toList.length]?.bind env.resolve = dest at h ⊢
    cases dest with
    | none => simp at h
    | some addr => simpa [claims, length_pos_iff] using hempty

theorem republish_claims (a : DirectoryActor) : ∀ o ∈ a.republish.2, o.claims = [] := by
  intro o ho
  simp only [republish, mem_append, mem_map] at ho
  rcases ho with ⟨actor, -, rfl⟩ | ⟨actor, -, rfl⟩ <;> rfl

/-- What handling a message costs, and what it adds to the potential. -/
theorem Within.handle (h : Within C a) (verify : DirectoryEntry → Bool) (env : Surroundings)
    {msg : DirectoryIn} (hC : ∀ c ∈ msg.claims, c ∈ C) :
    Within C (a.handle verify env msg).1 ∧
      (∀ o ∈ (a.handle verify env msg).2, ∀ c ∈ o.claims, c ∈ C) ∧
      copies msg (a.handle verify env msg).2 + potential C (a.handle verify env msg).1 ≤
        potential C a + charge C msg := by
  have hpublish (b : DirectoryActor) (hb : Within C b) (n : ℕ)
      (hle : potential C b ≤ potential C a + n) :
      Within C b.republish.1 ∧ (∀ o ∈ b.republish.2, ∀ c ∈ o.claims, c ∈ C) ∧
        0 + potential C b.republish.1 ≤ potential C a + n := by
    refine ⟨⟨hb.stored, hb.armed⟩, fun o ho c hc => ?_, ?_⟩
    · rw [republish_claims b o ho] at hc
      simp at hc
    · rw [Nat.zero_add]
      exact hle
  cases msg with
  | register claim =>
    obtain ⟨hb, hle⟩ := h.mergeOne verify (hC claim mem_cons_self)
    exact hpublish _ hb 0 hle
  | gossip claims =>
    obtain ⟨hb, hle⟩ := h.mergeAll verify hC
    exact hpublish _ hb 0 hle
  | membership node state =>
    obtain ⟨hb, hle⟩ := h.updateAlive node state
    exact hpublish _ hb _ hle
  | resync => exact hpublish _ h.armAll.1 _ h.armAll.2
  | tick => exact h.disseminate env
  | syncTo peer =>
    refine ⟨h, fun o ho c hc => ?_, by simp [copies, charge, DirectoryActor.handle]⟩
    simp only [DirectoryActor.handle, syncTo] at ho
    split at ho
    · obtain ⟨claims, hclaims, rfl⟩ := mem_map.mp ho
      obtain ⟨k, -, hk⟩ := mem_filterMap.mp (mem_of_mem_batches hclaims hc)
      exact (h.stored k c hk).1
    · simp at ho
  | watchRoutes =>
    exact ⟨h, by simp [DirectoryActor.handle], by simp [copies, charge, DirectoryActor.handle]⟩
  | resolve actor reply =>
    refine ⟨h, fun o ho c hc => ?_, by simp [copies, charge, DirectoryActor.handle]⟩
    obtain rfl := mem_singleton.mp ho
    simp [claims] at hc

end DirectoryActor

/-- The actors of a cluster, and every gossip frame they have sent. -/
structure Network (n : ℕ) where
  actors : Fin n → DirectoryActor
  sent : List (List DirectoryEntry)

/-- An actor of the cluster handles a message. -/
structure Event (n : ℕ) where
  node : Fin n
  input : Input

namespace Network

variable {n : ℕ} {verify : DirectoryEntry → Bool} {C : Finset DirectoryEntry}

section

variable (verify : DirectoryEntry → Bool) (c : Network n)

/-- The result of handling the message of an event. -/
def result (ev : Event n) : DirectoryActor × List DirectoryOut :=
  (c.actors ev.node).handle verify ev.input.env ev.input.msg

def step (ev : Event n) : Network n where
  actors := Function.update c.actors ev.node (c.result verify ev).1
  sent := c.sent ++ (c.result verify ev).2.map claims

/-- Only gossip that was sent is received. -/
def Unforged (ev : Event n) : Prop :=
  ∀ claims, ev.input.msg = .gossip claims → claims ∈ c.sent

instance Unforged.decidable (c : Network n) (ev : Event n) : Decidable (c.Unforged ev) :=
  match hmsg : ev.input.msg with
  | .gossip claims => decidable_of_iff (claims ∈ c.sent) (by simp [Unforged, hmsg])
  | .register _ | .membership .. | .resolve .. | .resync | .syncTo _ | .watchRoutes | .tick =>
      isTrue (by simp [Unforged, hmsg])

/-- The claim copies an event sends if it is a tick. -/
def cost (ev : Event n) : ℕ :=
  copies ev.input.msg (c.result verify ev).2

end

/-- Fresh actors. -/
def init (self : Fin n → NodeId) (view pinned : Fin n → ExtTreeMap ActorAddress NodeId compare) :
    Network n :=
  ⟨fun i => .withPinnedRoutes (self i) (view i) (pinned i), []⟩

/-- The claims registered in a run. -/
def registered (run : List (Event n)) : Finset DirectoryEntry :=
  (run.filterMap fun ev => match ev.input.msg with
    | .register claim => some claim
    | _ => none).toFinset

/-- The number of membership and Resync events of a run. -/
def disturbances (run : List (Event n)) : ℕ :=
  run.countP fun ev => ev.input.msg.disturbs

/-- All claims in the cluster are among `C`. -/
structure Closed (C : Finset DirectoryEntry) (c : Network n) : Prop where
  actors : ∀ i, (c.actors i).Within C
  sent : ∀ claims ∈ c.sent, ∀ claim ∈ claims, claim ∈ C

/-- The potential of the cluster. -/
noncomputable def potential (C : Finset DirectoryEntry) (c : Network n) : ℕ :=
  ∑ i, (c.actors i).potential C

variable (self : Fin n → NodeId)

theorem closed_init (view pinned : Fin n → ExtTreeMap ActorAddress NodeId compare) :
    (init self view pinned).Closed C where
  actors i := ⟨by simp [init, withPinnedRoutes],
    by simp [init, withPinnedRoutes, DirectoryActor.Armed]⟩
  sent := by simp [init]

theorem potential_init_le (view pinned : Fin n → ExtTreeMap ActorAddress NodeId compare) :
    (init self view pinned).potential C ≤ n * (24 * C.card) := by
  have hone (i : Fin n) : ((init self view pinned).actors i).potential C ≤ 24 * C.card := by
    have hheat : heat (C.image (·.actorAddr)) ∅ = 0 := by
      simp [heat]
    have hahead := ahead_card_le C ((init self view pinned).actors i)
    have hhot : ((init self view pinned).actors i).hot = ∅ := rfl
    rw [DirectoryActor.potential, hhot, hheat]
    omega
  calc (init self view pinned).potential C ≤ ∑ _i : Fin n, 24 * C.card :=
        Finset.sum_le_sum fun i _ => hone i
    _ = n * (24 * C.card) := by simp

variable {ev : Event n}

/-- The claims a message brings are among `C` if it is a frame that was sent or registers
a claim of `C`. -/
theorem Closed.claims {c : Network n} (h : c.Closed C) (hun : c.Unforged ev)
    (hreg : ∀ claim, ev.input.msg = .register claim → claim ∈ C) :
    ∀ claim ∈ ev.input.msg.claims, claim ∈ C := by
  intro claim hclaim
  cases hmsg : ev.input.msg with
  | register x =>
    rw [hmsg] at hclaim
    obtain rfl := mem_singleton.mp hclaim
    exact hreg claim hmsg
  | gossip claims =>
    rw [hmsg] at hclaim
    exact h.sent claims (hun claims hmsg) claim hclaim
  | membership | resolve | resync | syncTo | watchRoutes | tick =>
    rw [hmsg] at hclaim
    simp [DirectoryIn.claims] at hclaim

theorem Closed.step {c : Network n} (h : c.Closed C) (hun : c.Unforged ev)
    (hreg : ∀ claim, ev.input.msg = .register claim → claim ∈ C) :
    (c.step verify ev).Closed C ∧
      c.cost verify ev + (c.step verify ev).potential C ≤
        c.potential C + charge C ev.input.msg := by
  obtain ⟨hwithin, hout, hpaid⟩ :=
    (h.actors ev.node).handle verify ev.input.env (h.claims hun hreg)
  refine ⟨⟨fun i => ?_, fun claims hclaims claim hclaim => ?_⟩, ?_⟩
  · by_cases hi : i = ev.node
    · subst hi
      simpa [Network.step, result] using hwithin
    · simpa [Network.step, hi] using h.actors i
  · rcases mem_append.mp hclaims with hclaims | hclaims
    · exact h.sent claims hclaims claim hclaim
    · obtain ⟨o, ho, rfl⟩ := mem_map.mp hclaims
      exact hout o ho claim hclaim
  · have hnew := Finset.add_sum_erase Finset.univ
      (fun i => ((c.step verify ev).actors i).potential C) (Finset.mem_univ ev.node)
    have hold := Finset.add_sum_erase Finset.univ
      (fun i => (c.actors i).potential C) (Finset.mem_univ ev.node)
    have hrest : ∑ i ∈ Finset.univ.erase ev.node, ((c.step verify ev).actors i).potential C =
        ∑ i ∈ Finset.univ.erase ev.node, (c.actors i).potential C := by
      refine Finset.sum_congr rfl fun i hi => ?_
      simp [Network.step, Finset.ne_of_mem_erase hi]
    have hself : (c.step verify ev).actors ev.node = (c.result verify ev).1 := by
      simp [Network.step]
    simp only [hself] at hnew
    simp only [potential, cost, result] at hnew hold hpaid ⊢
    omega

theorem sum_charge (C : Finset DirectoryEntry) (run : List (Event n)) :
    (run.map fun ev => charge C ev.input.msg).sum = 24 * C.card * disturbances run := by
  induction run with
  | nil => simp [disturbances]
  | cons ev run ih =>
    rw [map_cons, sum_cons, ih]
    unfold charge disturbances
    rw [countP_cons]
    by_cases h : ev.input.msg.disturbs = true
    · rw [if_pos h, if_pos h]
      ring
    · rw [if_neg h, if_neg h]
      ring

/-- The copies sent by the ticks of a run that registers claims of `C` only. -/
theorem total_copies_le (view pinned : Fin n → ExtTreeMap ActorAddress NodeId compare)
    {run : List (Event n)} (hrun : Guarded Unforged (step verify) (init self view pinned) run)
    (hreg : ∀ ev ∈ run, ∀ claim, ev.input.msg = .register claim → claim ∈ C) :
    total (cost verify) (step verify) (init self view pinned) run ≤
      24 * (n * C.card + C.card * disturbances run) := by
  have hok := hrun.and_forall_mem hreg
  have hpay (c : Network n) (ev : Event n) (hc : c.Closed C) (hev : c.Unforged ev ∧
      ∀ claim, ev.input.msg = .register claim → claim ∈ C) :
      c.cost verify ev + (c.step verify ev).potential C ≤
        c.potential C + charge C ev.input.msg :=
    (hc.step hev.1 hev.2).2
  have hpaid := hok.total_le (fun c ev hc hev => (hc.step hev.1 hev.2).1) hpay
    (closed_init self view pinned)
  have hinit : potential C (init self view pinned) ≤ _ := potential_init_le self view pinned
  rw [sum_charge] at hpaid
  have hform : 24 * (n * C.card + C.card * disturbances run) =
      n * (24 * C.card) + 24 * C.card * disturbances run := by ring
  omega

theorem mem_registered {run : List (Event n)} (hev : ev ∈ run) {claim : DirectoryEntry}
    (hmsg : ev.input.msg = .register claim) : claim ∈ registered run := by
  rw [registered, mem_toFinset, mem_filterMap]
  exact ⟨ev, hev, by rw [hmsg]⟩

/-- **A settled directory goes quiet.** In a run in which `c` distinct claims are
registered and `e` membership or Resync events happen, the ticks send at most
`24 * (n * c + c * e)` claim copies. So in an endless run with finitely many claims and
finitely many such events, no tick sends anything from some point on. -/
theorem goes_quiet (verify : DirectoryEntry → Bool) (self : Fin n → NodeId)
    (view pinned : Fin n → ExtTreeMap ActorAddress NodeId compare) :
    (∀ run : List (Event n), Guarded Unforged (step verify) (init self view pinned) run →
      total (cost verify) (step verify) (init self view pinned) run ≤
        24 * (n * (registered run).card + (registered run).card * disturbances run)) ∧
    (∀ σ : ℕ → Event n,
      (∀ m, Guarded Unforged (step verify) (init self view pinned) (upTo σ m)) →
      (∃ C : Finset DirectoryEntry, ∀ m claim, (σ m).input.msg = .register claim → claim ∈ C) →
      (∃ M, ∀ m ≥ M, (σ m).input.msg.disturbs = false) →
      ∃ N, ∀ m ≥ N, (σ m).input.msg = .tick →
        (((upTo σ m).foldl (step verify) (init self view pinned)).result verify (σ m)).2 = []) := by
  constructor
  · intro run hrun
    exact total_copies_le self view pinned hrun fun ev hev claim => mem_registered hev
  · rintro σ hσ ⟨C, hC⟩ ⟨M, hM⟩
    have hdist (m : ℕ) : disturbances (upTo σ m) ≤ min m M := by
      induction m with
      | zero => simp [upTo, disturbances]
      | succ m ih =>
        rw [disturbances, upTo_succ, countP_append, ← disturbances, countP_singleton]
        by_cases hm : M ≤ m
        · rw [hM m hm]
          simp only [Bool.false_eq_true, if_false]
          omega
        · split_ifs <;> omega
    have hbound (m : ℕ) : total (cost verify) (step verify) (init self view pinned) (upTo σ m) ≤
        24 * (n * C.card + C.card * M) := by
      have hreg : ∀ ev ∈ upTo σ m, ∀ claim, ev.input.msg = .register claim → claim ∈ C := by
        intro ev hev claim hmsg
        obtain ⟨k, -, rfl⟩ := mem_upTo.mp hev
        exact hC k claim hmsg
      have hle := total_copies_le self view pinned (hσ m) hreg
      have hmul := Nat.mul_le_mul_left C.card ((hdist m).trans (min_le_right m M))
      omega
    obtain ⟨N, hN⟩ := eventually_free (init self view pinned) σ hbound
    refine ⟨N, fun m hm htick => ?_⟩
    have hfree := hN m hm
    by_contra hne
    simp only [cost, copies, result, htick] at hfree hne
    have hpos := disseminate_copies_pos hne
    simp only [handle] at hfree
    omega

/-- One claim, registered at the first of two actors, is copied to the second, which the
first copy arms in turn. -/
theorem goes_quiet_pair :
    let env : Surroundings := ⟨some, [7], by simp⟩
    let claim : DirectoryEntry := ⟨7, 1, 1, 0⟩
    let start : Network 2 := init (fun i => if i = 0 then 1 else 2) (fun _ => ∅) fun _ => ∅
    let run : List (Event 2) := [⟨0, env, .membership 2 .alive⟩, ⟨0, env, .register claim⟩,
      ⟨0, env, .tick⟩, ⟨1, env, .gossip [claim]⟩, ⟨1, env, .gossip [claim]⟩]
    Guarded Unforged (step fun _ => true) start run ∧
      total (cost fun _ => true) (step fun _ => true) start run = 1 ∧
      total (cost fun _ => true) (step fun _ => true) start run ≤
        24 * (2 * (registered run).card + (registered run).card * disturbances run) := by
  intro env claim start run
  have hrun : Guarded Unforged (step fun _ => true) start run := by decide +kernel
  exact ⟨hrun, by decide +kernel, (goes_quiet (fun _ => true) _ _ _).1 run hrun⟩

end Network

end Swactor.Directory
