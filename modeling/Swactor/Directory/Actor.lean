import Swactor.Lib.LastWriter
import Swactor.Lib.Machine
import Swactor.Swim.MemberList

/-!
# The actor location directory

`DirectoryActor` holds one signed claim per actor, gossips armed claims on every tick
and publishes the routes of the actors whose host is reachable. The signature check is
a parameter. The order in which a call traverses a hash map, and the answers of the
peer directory, are given to `handle` by its surroundings; where the order cannot be
seen in the result the maps are traversed by key. The watchers, which only observe the
actor, are left out.

The claims stored are, per actor, maximal by generation and then host among the
verified claims delivered, whatever else the actor handles in between.
-/
namespace Swactor.Directory
open LastWriter Machine
open Std (ExtTreeMap ExtTreeSet)
open Swim (MemberState)

/-- A host's claim to run an actor. Only the signature check reads the signature. -/
structure DirectoryEntry where
  actorAddr : ActorAddress
  nodeId : NodeId
  generation : ℕ
  signature : ℕ
  deriving DecidableEq, Repr

inductive DirectoryIn
  | register (claim : DirectoryEntry)
  | gossip (claims : List DirectoryEntry)
  | membership (nodeId : NodeId) (state : MemberState)
  | resolve (actor reply : ActorAddress)
  | resync
  | syncTo (peer : NodeId)
  | watchRoutes
  | tick
  deriving DecidableEq, Repr

/-- What the actor sends, and its calls of the route binder. -/
inductive DirectoryOut
  | gossip (dest : ActorAddress) (claims : List DirectoryEntry)
  | located (reply actor : ActorAddress) (host : Option NodeId)
  | removeRoute (actor : ActorAddress)
  | ensureRoutable (actor : ActorAddress)
  deriving DecidableEq, Repr

/-- What a call of `handle` reads from outside the actor. -/
structure Surroundings where
  resolve : NodeId → Option ActorAddress
  iter : List ActorAddress
  nodup : iter.Nodup

structure DirectoryActor where
  selfId : NodeId
  map : ExtTreeMap ActorAddress DirectoryEntry compare
  alive : ExtTreeSet NodeId compare
  hot : ExtTreeMap ActorAddress ℕ compare
  cursor : ℕ
  routeView : ExtTreeMap ActorAddress NodeId compare
  boundRemote : ExtTreeSet ActorAddress compare
  pinnedRoutes : ExtTreeMap ActorAddress NodeId compare

def fanout : ℕ := 3

def maxRounds : ℕ := 8

def batch : ℕ := 16

namespace DirectoryActor

def withPinnedRoutes (selfId : NodeId) (routeView pinnedRoutes : ExtTreeMap ActorAddress NodeId) :
    DirectoryActor :=
  ⟨selfId, ∅, ∅, ∅, 0, routeView, ∅, pinnedRoutes⟩

variable (verify : DirectoryEntry → Bool) (a : DirectoryActor)

/-- The fan-out times the bit length of the cluster size, clamped. -/
def budget : ℕ :=
  max fanout (min (fanout * Nat.size ((a.alive.size + 1) % 2 ^ 32)) (fanout * maxRounds))

/-- Merge one claim and report whether it superseded the stored one. -/
def mergeOne (claim : DirectoryEntry) : DirectoryActor × Bool :=
  if !verify claim then (a, false)
  else
    let supersedes := a.map[claim.actorAddr]?.all fun cur =>
      claim.generation > cur.generation ||
        (claim.generation = cur.generation && claim.nodeId > cur.nodeId)
    if supersedes then
      ({ a with hot := a.hot.insert claim.actorAddr a.budget
                map := a.map.insert claim.actorAddr claim }, true)
    else (a, false)

/-- The loop body of `republish`: the view and the remotely hosted actors so far. -/
def publishClaim (selfId : NodeId) (alive : ExtTreeSet NodeId compare)
    (acc : ExtTreeMap ActorAddress NodeId compare × ExtTreeSet ActorAddress compare)
    (entry : ActorAddress × DirectoryEntry) :
    ExtTreeMap ActorAddress NodeId compare × ExtTreeSet ActorAddress compare :=
  if entry.1 ∈ acc.1 then acc
  else if entry.2.nodeId = selfId then (acc.1.insert entry.1 entry.2.nodeId, acc.2)
  else if entry.2.nodeId ∈ alive then
    (acc.1.insert entry.1 entry.2.nodeId, acc.2.insert entry.1)
  else acc

/-- The actors that are pinned to another node. -/
def pinnedRemote : ExtTreeSet ActorAddress compare :=
  ExtTreeSet.ofList (a.pinnedRoutes.toList.filterMap fun route =>
    if route.2 ≠ a.selfId then some route.1 else none) compare

/-- The next route view and the actors it routes to other nodes. -/
def nextView : ExtTreeMap ActorAddress NodeId compare × ExtTreeSet ActorAddress compare :=
  a.map.toList.foldl (publishClaim a.selfId a.alive) (a.pinnedRoutes, a.pinnedRemote)

/-- Publish the view, unbind the departed actors and bind the joined ones. -/
def republish : DirectoryActor × List DirectoryOut :=
  let next := a.nextView
  let departed := a.boundRemote.toList.filter fun actor => !next.2.contains actor
  let joined := next.2.toList.filter fun actor => !a.boundRemote.contains actor
  ({ a with routeView := next.1, boundRemote := next.2 },
    departed.map .removeRoute ++ joined.map .ensureRoutable)

def register (claim : DirectoryEntry) : DirectoryActor × List DirectoryOut :=
  (a.mergeOne verify claim).1.republish

def mergeBatch (claims : List DirectoryEntry) : DirectoryActor × List DirectoryOut :=
  (claims.foldl (fun a claim => (a.mergeOne verify claim).1) a).republish

/-- Arm every stored claim for dissemination. -/
def armAll : DirectoryActor :=
  { a with hot := a.map.keys.foldl (fun hot actor => hot.insert actor a.budget) a.hot }

def updateAlive (node : NodeId) : MemberState → DirectoryActor
  | .alive =>
      if node ≠ a.selfId ∧ node ∉ a.alive then
        { a with alive := a.alive.insert node }.armAll
      else a
  | .dead => { a with alive := a.alive.erase node }
  | .suspect => a

def onMembership (node : NodeId) (state : MemberState) : DirectoryActor × List DirectoryOut :=
  (a.updateAlive node state).republish

/-- Spend one unit of an actor's budget. -/
def spend (hot : ExtTreeMap ActorAddress ℕ compare) (actor : ActorAddress) :
    ExtTreeMap ActorAddress ℕ compare :=
  match hot[actor]? with
  | some left => if left - 1 = 0 then hot.erase actor else hot.insert actor (left - 1)
  | none => hot

/-- Take up to `limit` armed claims and spend one unit of each one's budget. -/
def takeHot (env : Surroundings) (limit : ℕ) : DirectoryActor × List DirectoryEntry :=
  let actors := (env.iter.filter fun actor => a.hot.contains actor).take limit
  ({ a with hot := actors.foldl spend a.hot }, actors.filterMap fun actor => a.map[actor]?)

/-- Send one batch of armed claims to one alive peer. -/
def disseminate (env : Surroundings) : DirectoryActor × List DirectoryOut :=
  let peers := a.alive.toList
  if peers.isEmpty || a.hot.isEmpty then (a, [])
  else
    let peer := peers[a.cursor % peers.length]?
    let taken := { a with cursor := wrappingAdd a.cursor 1 }.takeHot env batch
    if taken.2.isEmpty then (taken.1, [])
    else
      (taken.1, ((peer.bind env.resolve).map fun addr => .gossip addr taken.2).toList)

/-- Send all stored claims to a peer, a batch in a frame. -/
def syncTo (env : Surroundings) (peer : NodeId) : List DirectoryOut :=
  match env.resolve peer with
  | some addr =>
      (batches batch (env.iter.filterMap fun actor => a.map[actor]?)).map (.gossip addr)
  | none => []

def handle (env : Surroundings) :
    DirectoryIn → DirectoryActor × List DirectoryOut
  | .register claim => a.register verify claim
  | .gossip claims => a.mergeBatch verify claims
  | .membership node state => a.onMembership node state
  | .syncTo peer => (a, a.syncTo env peer)
  | .watchRoutes => (a, [])
  | .resync => a.armAll.republish
  | .tick => a.disseminate env
  | .resolve actor reply => (a, [.located reply actor a.routeView[actor]?])

end DirectoryActor

/-- The comparison key of a claim. -/
def key (c : DirectoryEntry) : ℕ ×ₗ NodeId :=
  toLex (c.generation, c.nodeId)

theorem key_lt_iff (a b : DirectoryEntry) :
    key a < key b ↔ a.generation < b.generation ∨
      (a.generation = b.generation ∧ a.nodeId < b.nodeId) :=
  Prod.Lex.toLex_lt_toLex

/-- The claims a message delivers. -/
def DirectoryIn.claims : DirectoryIn → List DirectoryEntry
  | .register claim => [claim]
  | .gossip claims => claims
  | .membership .. | .resolve .. | .resync | .syncTo _ | .watchRoutes | .tick => []

attribute [local simp] DirectoryIn.claims

/-- One message and what its handling reads from outside. -/
structure Input where
  env : Surroundings
  msg : DirectoryIn

/-- The claims a run delivers. -/
def delivered (run : List Input) : List DirectoryEntry :=
  run.flatMap fun input => input.msg.claims

namespace DirectoryActor

variable {verify : DirectoryEntry → Bool} {a : DirectoryActor} {claim : DirectoryEntry}

theorem mergeOne_of_forged (h : verify claim = false) : a.mergeOne verify claim = (a, false) := by
  simp [mergeOne, h]

theorem supersedes_iff :
    (a.map[claim.actorAddr]?.all fun cur => claim.generation > cur.generation ||
      (claim.generation = cur.generation && claim.nodeId > cur.nodeId)) = true ↔
      Raises key a.map[claim.actorAddr]? claim := by
  cases h : a.map[claim.actorAddr]? with
  | none => simp [Raises]
  | some cur =>
    simp only [Raises, Option.mem_def, Option.some.injEq, forall_eq', key_lt_iff, Option.all_some,
      Bool.or_eq_true, Bool.and_eq_true, decide_eq_true_eq, gt_iff_lt,
      @eq_comm _ claim.generation]

theorem mergeOne_of_not_raises (h : ¬ Raises key a.map[claim.actorAddr]? claim) :
    a.mergeOne verify claim = (a, false) := by
  simp only [mergeOne]
  split_ifs with hv hs
  · rfl
  · exact absurd (supersedes_iff.mp hs) h
  · rfl

theorem mergeOne_of_raises (hv : verify claim = true)
    (h : Raises key a.map[claim.actorAddr]? claim) :
    a.mergeOne verify claim =
      ({ a with hot := a.hot.insert claim.actorAddr a.budget
                map := a.map.insert claim.actorAddr claim }, true) := by
  simp only [mergeOne, hv, Bool.not_true, Bool.false_eq_true, if_false, supersedes_iff.mpr h,
    if_true]

/-- On its own actor a verified claim is one register delivery; all else is framed. -/
theorem mergeOne_map (actor : ActorAddress) :
    (a.mergeOne verify claim).1.map[actor]? =
      if verify claim ∧ claim.actorAddr = actor then LastWriter.keep key a.map[actor]? claim
      else a.map[actor]? := by
  by_cases hv : verify claim = true
  · by_cases hr : Raises key a.map[claim.actorAddr]? claim
    · rw [mergeOne_of_raises hv hr]
      simp only [Maps.getElem?_insert_ite, hv, true_and]
      split_ifs with hn
      · subst hn
        exact (keep_of_raises hr).symm
      · rfl
    · rw [mergeOne_of_not_raises hr]
      split_ifs with hn
      · obtain ⟨-, rfl⟩ := hn
        exact (keep_of_not_raises hr).symm
      · rfl
  · simp [mergeOne_of_forged (Bool.eq_false_iff.mpr hv), hv]

/-- The stored claims are, actor by actor, maximal among the claims `D` received. -/
def Holds (a : DirectoryActor) (D : DirectoryEntry → Prop) : Prop :=
  ∀ actor, IsWinner key (fun c => D c ∧ c.actorAddr = actor) a.map[actor]?

variable {D : DirectoryEntry → Prop}

theorem Holds.congr {E : DirectoryEntry → Prop} (h : a.Holds D) (hDE : ∀ c, D c ↔ E c) :
    a.Holds E :=
  fun actor => (h actor).congr fun c => and_congr_left fun _ => hDE c

theorem Holds.of_map_eq {b : DirectoryActor} (h : a.Holds D) (hb : b.map = a.map) : b.Holds D := by
  intro actor
  rw [hb]
  exact h actor

theorem Holds.mergeOne (h : a.Holds D) (claim : DirectoryEntry) :
    (a.mergeOne verify claim).1.Holds fun c => D c ∨ (c = claim ∧ verify c = true) := by
  intro actor
  rw [mergeOne_map]
  split_ifs with hn
  · refine ((h actor).keep claim).congr fun c => ?_
    constructor
    · rintro (⟨hc, hca⟩ | rfl)
      · exact ⟨Or.inl hc, hca⟩
      · exact ⟨Or.inr ⟨rfl, hn.1⟩, hn.2⟩
    · rintro ⟨hc | ⟨rfl, -⟩, hca⟩
      · exact Or.inl ⟨hc, hca⟩
      · exact Or.inr rfl
  · refine (h actor).congr fun c => ⟨fun hc => ⟨Or.inl hc.1, hc.2⟩, ?_⟩
    rintro ⟨hc | ⟨rfl, hv⟩, hca⟩
    · exact ⟨hc, hca⟩
    · exact absurd ⟨hv, hca⟩ hn

theorem Holds.mergeAll (h : a.Holds D) (claims : List DirectoryEntry) :
    (claims.foldl (fun a claim => (a.mergeOne verify claim).1) a).Holds fun c =>
      D c ∨ (c ∈ claims ∧ verify c = true) := by
  induction claims generalizing a D with
  | nil => exact h.congr fun c => by simp
  | cons claim claims ih =>
    exact (ih (h.mergeOne claim)).congr fun c => by
      simp only [List.mem_cons, or_and_right, or_assoc]

@[simp] theorem updateAlive_map (a : DirectoryActor) (node : NodeId) (state : MemberState) :
    (a.updateAlive node state).map = a.map := by
  cases state with
  | alive =>
    simp only [updateAlive]
    split_ifs <;> rfl
  | dead => rfl
  | suspect => rfl

@[simp] theorem disseminate_map (a : DirectoryActor) (env : Surroundings) :
    (a.disseminate env).1.map = a.map := by
  simp only [disseminate]
  split_ifs <;> rfl

/-- A message delivers its claims; nothing else writes the map. -/
theorem Holds.handle (h : a.Holds D) (env : Surroundings) (msg : DirectoryIn) :
    (a.handle verify env msg).1.Holds fun c => D c ∨ (c ∈ msg.claims ∧ verify c = true) := by
  cases msg with
  | register claim =>
    exact ((h.mergeOne claim).of_map_eq rfl).congr fun c => by simp
  | gossip claims => exact (h.mergeAll claims).of_map_eq rfl
  | membership node state =>
    exact (h.of_map_eq (updateAlive_map a node state)).congr fun c => by simp
  | tick => exact (h.of_map_eq (disseminate_map a env)).congr fun c => by simp
  | resync | resolve | syncTo | watchRoutes =>
    exact (h.of_map_eq rfl).congr fun c => by simp

/-- The state after a run. -/
def after (verify : DirectoryEntry → Bool) (a : DirectoryActor) (run : List Input) :
    DirectoryActor :=
  run.foldl (fun a input => (a.handle verify input.env input.msg).1) a

theorem Holds.after (h : a.Holds D) (run : List Input) :
    (a.after verify run).Holds fun c => D c ∨ (c ∈ delivered run ∧ verify c = true) := by
  induction run generalizing a D with
  | nil => exact h.congr fun c => by simp [delivered]
  | cons input run ih =>
    exact (ih (h.handle input.env input.msg)).congr fun c => by
      simp only [delivered, List.flatMap_cons, List.mem_append, or_and_right, or_assoc]

/-- A fresh actor holds, per actor, a maximum of the verified claims delivered to it. -/
theorem holds_delivered (verify : DirectoryEntry → Bool) (self : NodeId)
    (view pinned : ExtTreeMap ActorAddress NodeId) (run : List Input) :
    ((withPinnedRoutes self view pinned).after verify run).Holds fun c =>
      c ∈ delivered run ∧ verify c = true := by
  have h : (withPinnedRoutes self view pinned).Holds fun _ => False := by
    intro actor
    simp [withPinnedRoutes, IsWinner]
  exact (h.after run).congr fun c => by simp

/-- The host and the generation stored for an actor. -/
def location (a : DirectoryActor) (actor : ActorAddress) : Option (NodeId × ℕ) :=
  a.map[actor]?.map fun c => (c.nodeId, c.generation)

/-- Claims of one key, differently signed, give the same location. -/
theorem Holds.location_eq {b : DirectoryActor} (ha : a.Holds D) (hb : b.Holds D)
    (actor : ActorAddress) : a.location actor = b.location actor := by
  have ha := ha actor
  have hb := hb actor
  unfold location
  cases hx : a.map[actor]? with
  | none =>
    cases hy : b.map[actor]? with
    | none => rfl
    | some y => exact absurd (hy ▸ hb).1 ((hx ▸ ha) y)
  | some x =>
    rw [hx] at ha
    cases hy : b.map[actor]? with
    | none => exact absurd ha.1 ((hy ▸ hb) x)
    | some y =>
      rw [hy] at hb
      have hk : key x = key y := le_antisymm (hb.2 x ha.1) (ha.2 y hb.1)
      have hpair : (x.generation, x.nodeId) = (y.generation, y.nodeId) := hk
      simp only [Prod.mk.injEq] at hpair
      simp [hpair.1, hpair.2]

/-- **The directory converges to verified maxima.** Whatever a fresh actor handles, the
claim it stores for each actor is maximal by (generation, host) among the verified
claims delivered for it; two actors that were delivered the same verified claims, in any
order, batching and multiplicity, store the same locations; and a forged or
non-superseding claim changes neither the claims nor the budgets. -/
theorem converges_to_verified_maxima (verify : DirectoryEntry → Bool) (self : NodeId)
    (view pinned : ExtTreeMap ActorAddress NodeId) (run : List Input) :
    (∀ actor, IsWinner key
      (fun c => (c ∈ delivered run ∧ verify c = true) ∧ c.actorAddr = actor)
      ((withPinnedRoutes self view pinned).after verify run).map[actor]?) ∧
    (∀ (self' : NodeId) (view' pinned' : ExtTreeMap ActorAddress NodeId) (run' : List Input),
      (∀ c, verify c = true → (c ∈ delivered run' ↔ c ∈ delivered run)) → ∀ actor,
      ((withPinnedRoutes self' view' pinned').after verify run').location actor =
        ((withPinnedRoutes self view pinned).after verify run).location actor) ∧
    (∀ (a : DirectoryActor) (claim : DirectoryEntry),
      (verify claim = false ∨ ∃ cur ∈ a.map[claim.actorAddr]?, key claim ≤ key cur) →
      a.mergeOne verify claim = (a, false) ∧
      (a.register verify claim).1.map = a.map ∧ (a.register verify claim).1.hot = a.hot) := by
  have hrun := holds_delivered verify self view pinned run
  refine ⟨hrun, fun self' view' pinned' run' hdel actor => ?_, fun a claim hclaim => ?_⟩
  · have hother := holds_delivered verify self' view' pinned' run'
    refine hother.location_eq (hrun.congr fun c => ?_) actor
    constructor
    · rintro ⟨hc, hv⟩
      exact ⟨(hdel c hv).mpr hc, hv⟩
    · rintro ⟨hc, hv⟩
      exact ⟨(hdel c hv).mp hc, hv⟩
  · have hsame : a.mergeOne verify claim = (a, false) := by
      rcases hclaim with hforged | ⟨cur, hcur, hle⟩
      · exact mergeOne_of_forged hforged
      · exact mergeOne_of_not_raises fun h => absurd (h cur hcur) (not_lt.mpr hle)
    refine ⟨hsame, ?_, ?_⟩ <;> rw [register, hsame] <;> rfl

end DirectoryActor

end Swactor.Directory
