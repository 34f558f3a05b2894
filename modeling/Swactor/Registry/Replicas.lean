import Swactor.Registry.LocalWrites

/-!
# A cluster of registry replicas

Every replica writes under its own node id, except that `tombstone_node` writes
under the id of the node it buries. The state records, beside the replicas, every
entry ever written and every entry each replica has received; both are ghost data
that no operation reads. Gossip may carry any written entry to any replica, in any
order and any number of times.

Two authors that write under one node id without having seen each other's entries
can mint the same comparison key with different contents. If every author has seen
the entries already written under the id and name it writes, keys identify entries
and replicas that received the same entries agree.
-/
namespace Swactor.Registry
open LastWriter Machine Function List

structure Cluster where
  replica : NodeId → ClusterRegistry
  written : List RegistryEntry
  received : NodeId → List RegistryEntry

/-- An operation of the replica `i`. -/
inductive ClusterOp
  | register (i : NodeId) (name : String) (actorAddr : ActorAddress) (clusterSize : ℕ)
  | registerAt (i : NodeId) (name : String) (actorAddr : ActorAddress)
      (timestamp clusterSize : ℕ)
  | unregister (i : NodeId) (name : String) (clusterSize : ℕ)
  | tombstoneNode (i : NodeId) (iter : List String) (deadNodeId : NodeId) (clusterSize : ℕ)
  | mergeBatch (i : NodeId) (entries : List RegistryEntry) (clusterSize : ℕ)

namespace Cluster

def init (config : NodeId → RegistryConfig) : Cluster where
  replica i := .new (config i)
  written := []
  received _ := []

/-- One local write of replica `i`. -/
def write (c : Cluster) (i : NodeId) (clock : ℕ) (name : String) (addr : ActorAddress)
    (node : NodeId) (tombstone : Bool) (n : ℕ) : Cluster :=
  let e := (c.replica i).minted clock name addr node tombstone
  { replica := update c.replica i
      ((c.replica i).writeAt clock name addr node tombstone n)
    written := e :: c.written
    received := update c.received i (e :: c.received i) }

/-- One iteration of `tombstone_node` at replica `i`. -/
def tombstoneName (i deadNodeId : NodeId) (n : ℕ) (c : Cluster) (name : String) : Cluster :=
  c.write i (wrappingAdd (c.replica i).clock 1) name ((c.replica i).boundAddr name)
    deadNodeId true n

def step (c : Cluster) : ClusterOp → Cluster
  | .register i name addr n =>
      c.write i (wrappingAdd (c.replica i).clock 1) name addr i false n
  | .registerAt i name addr ts n =>
      c.write i (max (saturatingAdd (c.replica i).clock 1) ts) name addr i false n
  | .unregister i name n =>
      c.write i (wrappingAdd (c.replica i).clock 1) name ((c.replica i).boundAddr name) i true n
  | .tombstoneNode i iter dead n =>
      ((c.replica i).owned iter dead).foldl (tombstoneName i dead n) c
  | .mergeBatch i es n =>
      { c with
        replica := update c.replica i ((c.replica i).mergeBatch es n)
        received := update c.received i (es ++ c.received i) }

/-- The registry operation that a cluster operation runs at its replica. -/
def localOp : ClusterOp → NodeId × RegistryOp
  | .register i name addr n => (i, .register name addr i n)
  | .registerAt i name addr ts n => (i, .registerAt name addr i ts n)
  | .unregister i name n => (i, .unregister name i n)
  | .tombstoneNode i iter dead n => (i, .tombstoneNode iter dead n)
  | .mergeBatch i es n => (i, .mergeBatch es n)

/-- Gossip carries written entries, a traversal visits every key once, and no
timestamp reaches `u64::MAX`. -/
def Legal (c : Cluster) (op : ClusterOp) : Prop :=
  (c.replica (localOp op).1).BelowMax (localOp op).2 ∧
  match op with
  | .tombstoneNode i iter _ _ => iter.Perm (c.replica i).entries.keys
  | .mergeBatch _ es _ => ∀ e ∈ es, e ∈ c.written
  | _ => True

/-- Replica `i` has received every entry written so far under `node` for `name`. -/
def Seen (c : Cluster) (i : NodeId) (name : String) (node : NodeId) : Prop :=
  ∀ e ∈ c.written, e.name = name → e.nodeId = node → e ∈ c.received i

/-- The author of a write has seen the entries already written under the node id
and the name it writes. -/
def Informed (c : Cluster) : ClusterOp → Prop
  | .register i name _ _ | .registerAt i name _ _ _ | .unregister i name _ => c.Seen i name i
  | .tombstoneNode i iter dead _ => ∀ name ∈ (c.replica i).owned iter dead, c.Seen i name dead
  | .mergeBatch .. => True

instance (c : Cluster) (op : ClusterOp) : Decidable (c.Legal op) := by
  unfold Legal
  cases op <;> infer_instance

instance (c : Cluster) (i : NodeId) (name : String) (node : NodeId) :
    Decidable (c.Seen i name node) := by
  unfold Seen
  infer_instance

instance (c : Cluster) : ∀ op, Decidable (c.Informed op)
  | .register i name _ _ | .registerAt i name _ _ _ | .unregister i name _ =>
      inferInstanceAs (Decidable (c.Seen i name i))
  | .tombstoneNode i iter dead _ => inferInstanceAs
      (Decidable (∀ name ∈ (c.replica i).owned iter dead, c.Seen i name dead))
  | .mergeBatch .. => inferInstanceAs (Decidable True)

/-- The state invariant of informed runs. -/
structure Inv (c : Cluster) : Prop where
  holds : ∀ i, (c.replica i).Holds (· ∈ c.received i)
  bound : ∀ i, (c.replica i).ClockBound
  written : ∀ i, ∀ e ∈ c.received i, e ∈ c.written
  small : ∀ e ∈ c.written, e.timestamp < u64Max
  distinct : ∀ e ∈ c.written, ∀ e' ∈ c.written,
    e.name = e'.name → e.nodeId = e'.nodeId → e.timestamp = e'.timestamp → e = e'

theorem inv_init (config : NodeId → RegistryConfig) : (init config).Inv where
  holds i := (ClusterRegistry.holds_new (config i)).congr fun e => by simp [init]
  bound i := ClusterRegistry.clockBound_new (config i)
  written i e he := by simp [init] at he
  small e he := by simp [init] at he
  distinct e he := by simp [init] at he

variable {c : Cluster} {i : NodeId}

/-- A replica's clock bounds everything it has received, the losing entries too. -/
theorem Inv.timestamp_le (h : c.Inv) {e : RegistryEntry} (he : e ∈ c.received i) :
    e.timestamp ≤ (c.replica i).clock := by
  have hw := h.holds i e.name
  cases hx : (c.replica i).entries[e.name]? with
  | none => rw [hx] at hw; exact absurd ⟨he, rfl⟩ (hw e)
  | some x =>
    rw [hx] at hw
    exact (timestamp_le_of_key_le (hw.2 e ⟨he, rfl⟩)).trans (h.bound i e.name x hx)

/-- A write above the clock of an informed author keeps the invariant. -/
theorem Inv.write (h : c.Inv) {clock : ℕ} (hlt : (c.replica i).clock < clock) (hm : clock < u64Max)
    {name : String} {node : NodeId} (hseen : c.Seen i name node) (addr : ActorAddress) (t : Bool)
    (n : ℕ) : (c.write i clock name addr node t n).Inv := by
  let e := (c.replica i).minted clock name addr node t
  have hwr := (h.bound i).writeAt hlt hm name addr node t n
  have hraise : Raises key (c.replica i).entries[name]? e := by
    intro x hx
    exact key_lt_of_timestamp_lt ((h.bound i name x hx).trans_lt hlt)
  have hnew (x : RegistryEntry) (hx : x ∈ c.written) (hn : x.name = name)
      (hid : x.nodeId = node) : x.timestamp < clock :=
    (h.timestamp_le (hseen x hx hn hid)).trans_lt hlt
  constructor
  · intro j
    by_cases hj : j = i
    · subst hj
      simp only [Cluster.write, update_self]
      refine (((h.holds j).merge e).of_entries_eq ?_).congr fun x => by simp [e, or_comm]
      rw [hwr.2.1, ClusterRegistry.merge_of_raises hraise]
      rfl
    · simpa [Cluster.write, hj] using h.holds j
  · intro j
    by_cases hj : j = i
    · subst hj
      simpa [Cluster.write] using hwr.1
    · simpa [Cluster.write, hj] using h.bound j
  · intro j x hx
    by_cases hj : j = i
    · subst hj
      simp only [Cluster.write, update_self, mem_cons] at hx ⊢
      rcases hx with rfl | hx
      · exact Or.inl rfl
      · exact Or.inr (h.written j x hx)
    · simp only [Cluster.write, update_of_ne hj] at hx ⊢
      exact mem_cons_of_mem _ (h.written j x hx)
  · intro x hx
    rcases mem_cons.mp hx with rfl | hx
    · exact hm
    · exact h.small x hx
  · intro x hx y hy hn hid ht
    rcases mem_cons.mp hx with rfl | hx <;> rcases mem_cons.mp hy with rfl | hy
    · rfl
    · exact absurd ht (hnew y hy hn.symm hid.symm).ne'
    · exact absurd ht (hnew x hx hn hid).ne
    · exact h.distinct x hx y hy hn hid ht

theorem Inv.mergeBatch (h : c.Inv) (i : NodeId) (es : List RegistryEntry) (n : ℕ)
    (hes : ∀ e ∈ es, e ∈ c.written) : (c.step (.mergeBatch i es n)).Inv := by
  have hsmall : ∀ e ∈ es, e.timestamp < u64Max := fun e he => h.small e (hes e he)
  refine ⟨fun j => ?_, fun j => ?_, fun j x hx => ?_, h.small, h.distinct⟩
  · by_cases hj : j = i
    · subst hj
      simp only [step, update_self]
      exact ((h.holds j).mergeBatch es n).congr fun x => by simp [or_comm]
    · simpa [step, hj] using h.holds j
  · by_cases hj : j = i
    · subst hj
      simpa [step] using (h.bound j).mergeBatch es n hsmall
    · simpa [step, hj] using h.bound j
  · by_cases hj : j = i
    · subst hj
      simp only [step, update_self, mem_append] at hx
      exact hx.elim (hes x) (h.written j x)
    · simp only [step, update_of_ne hj] at hx
      exact h.written j x hx

/-- A tombstone for one name leaves the author as informed about the others. -/
theorem Seen.tombstoneName {dead node : NodeId} {n : ℕ} {name x : String} (h : c.Seen i x node) :
    (c.tombstoneName i dead n name).Seen i x node := by
  intro e he hn hid
  simp only [Cluster.tombstoneName, write, update_self, mem_cons] at he ⊢
  exact he.imp id fun he => h e he hn hid

theorem Inv.tombstoneNames {dead : NodeId} {n : ℕ} (names : List String) (h : c.Inv)
    (hseen : ∀ name ∈ names, c.Seen i name dead)
    (hm : Guarded (fun r _ => r.clock + 1 < u64Max) (ClusterRegistry.tombstoneName dead n)
      (c.replica i) names) : (names.foldl (Cluster.tombstoneName i dead n) c).Inv := by
  induction names generalizing c with
  | nil => exact h
  | cons name names ih =>
    obtain ⟨hlt, hmx⟩ := ClusterRegistry.nextClock_spec hm.1
    refine ih (h.write hlt hmx (hseen name (by simp)) _ true n)
      (fun x hx => (hseen x (by simp [hx])).tombstoneName) ?_
    have hr : (c.tombstoneName i dead n name).replica i =
        (c.replica i).tombstoneName dead n name := by
      simp [Cluster.tombstoneName, Cluster.write, ClusterRegistry.tombstoneName]
    exact hr ▸ hm.2

theorem Inv.step (h : c.Inv) (op : ClusterOp) (hl : c.Legal op) (hi : c.Informed op) :
    (c.step op).Inv := by
  cases op with
  | register i name addr n =>
    obtain ⟨hlt, hmx⟩ := ClusterRegistry.nextClock_spec hl.1
    exact h.write hlt hmx hi addr false n
  | registerAt i name addr ts n =>
    obtain ⟨hlt, hmx⟩ := ClusterRegistry.nextClockAt_spec hl.1
    exact h.write hlt hmx hi addr false n
  | unregister i name n =>
    obtain ⟨hlt, hmx⟩ := ClusterRegistry.nextClock_spec hl.1
    exact h.write hlt hmx hi _ true n
  | tombstoneNode i iter dead n => exact h.tombstoneNames _ hi hl.1
  | mergeBatch i es n => exact h.mergeBatch i es n hl.2

/-- Among the written entries of one name, the comparison key identifies the entry. -/
theorem Inv.identified (h : c.Inv) (name : String) :
    Identified key fun e => e ∈ c.written ∧ e.name = name := by
  rintro a b ⟨ha, hna⟩ ⟨hb, hnb⟩ hk
  have ht : a.timestamp = b.timestamp := congrArg (fun k => (ofLex k).1) hk
  have hid : a.nodeId = b.nodeId := congrArg (fun k => (ofLex (ofLex k).2).2) hk
  exact h.distinct a ha b hb (hna.trans hnb.symm) hid ht

end Cluster

open Cluster

/-- In every run whose writers are informed, equal keys identify entries, and two
replicas that have received the same entries hold the same winner of every name. -/
theorem informed_replicas_converge (config : NodeId → RegistryConfig) (ops : List ClusterOp)
    (hops : Guarded (fun c op => c.Legal op ∧ c.Informed op) step (init config) ops) :
    let c := ops.foldl step (init config)
    (∀ e ∈ c.written, ∀ e' ∈ c.written, e.name = e'.name → key e = key e' → e = e') ∧
    ∀ i j, (∀ e, e ∈ c.received i ↔ e ∈ c.received j) →
      ∀ name : String, (c.replica i).entries[name]? = (c.replica j).entries[name]? := by
  intro c
  have h : c.Inv := hops.invariant (P := Inv) (fun c op hc ho => hc.step op ho.1 ho.2)
    (inv_init config)
  refine ⟨fun e he e' he' hn hk => h.identified e'.name e e' ⟨he, hn⟩ ⟨he', rfl⟩ hk, ?_⟩
  intro i j hij name
  have hi := (h.holds i).congr hij name
  refine hi.unique (fun a b ha hb hk => ?_) (h.holds j name)
  exact h.identified name a b ⟨h.written j a ha.1, ha.2⟩ ⟨h.written j b hb.1, hb.2⟩ hk

/-- Node 2 buries node 1 after seeing its binding, and node 1 rebinds after the news. -/
theorem informed_replicas_converge_after_rebind :
    let bound : RegistryEntry := ⟨"db", 7, 1, 1, 1, false⟩
    let buried : RegistryEntry := ⟨"db", 7, 1, 3, 2, true⟩
    let rebound : RegistryEntry := ⟨"db", 8, 1, 5, 3, false⟩
    let ops : List ClusterOp :=
      [.register 1 "db" 7 2, .mergeBatch 2 [bound] 2, .tombstoneNode 2 ["db"] 1 1,
        .mergeBatch 1 [buried] 2, .register 1 "db" 8 2, .mergeBatch 2 [rebound] 2]
    let c := ops.foldl step (init fun _ => defaultConfig)
    Guarded (fun c op => c.Legal op ∧ c.Informed op) step (init fun _ => defaultConfig) ops ∧
    (c.replica 1).entries["db"]? = (c.replica 2).entries["db"]? := by
  intro bound buried rebound ops c
  have hops : Guarded (fun c op => c.Legal op ∧ c.Informed op) step
      (init fun _ => defaultConfig) ops := by decide
  refine ⟨hops, (informed_replicas_converge (fun _ => defaultConfig) ops hops).2 1 2 ?_ "db"⟩
  intro e
  have h1 : c.received 1 = [rebound, buried, bound] := by decide
  have h2 : c.received 2 = [rebound, buried, bound] := by decide
  exact h1 ▸ h2 ▸ Iff.rfl

/-- Node 1 binds a name and rebinds it while node 2, which has seen only the first
binding, buries node 1: both writes carry the key (3, 2, 1). After exchanging them
the two nodes have received the same entries and disagree for good. -/
theorem replicas_diverge :
    let bound : RegistryEntry := ⟨"db", 7, 1, 1, 1, false⟩
    let rebound : RegistryEntry := ⟨"db", 8, 1, 3, 2, false⟩
    let buried : RegistryEntry := ⟨"db", 7, 1, 3, 2, true⟩
    let ops : List ClusterOp :=
      [.register 1 "db" 7 2, .mergeBatch 2 [bound] 2, .register 1 "db" 8 2,
        .tombstoneNode 2 ["db"] 1 1, .mergeBatch 1 [buried] 2, .mergeBatch 2 [rebound] 2]
    let c := ops.foldl step (init fun _ => defaultConfig)
    Guarded Legal step (init fun _ => defaultConfig) ops ∧
    (rebound ∈ c.written ∧ buried ∈ c.written ∧ rebound.name = buried.name ∧
      key rebound = key buried ∧ rebound ≠ buried) ∧
    (∀ e, e ∈ c.received 1 ↔ e ∈ c.received 2) ∧
    (c.replica 1).entries["db"]? = some rebound ∧
    (c.replica 2).entries["db"]? = some buried := by
  intro bound rebound buried ops c
  have h1 : c.received 1 = [buried, rebound, bound] := by decide
  have h2 : c.received 2 = [rebound, buried, bound] := by decide
  refine ⟨by decide, ⟨by decide, by decide, rfl, rfl, by decide⟩, fun e => ?_, by decide,
    by decide⟩
  rw [h1, h2]
  simp only [mem_cons, not_mem_nil, or_false]
  tauto

end Swactor.Registry
