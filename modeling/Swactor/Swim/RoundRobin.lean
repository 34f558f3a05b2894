import Swactor.Swim.Probe

/-!
# Round-robin probing covers the members

The probe walks through a shuffled order of the non-dead members. Only a pick touches the order and
the index into it, and a pick reads nothing else of the machine but the step counter, so that two
picks in a row may have any other work of the machine between them. The order at hand may be left
over from other members: its length alone decides whether it is kept.
-/
namespace Swactor.Swim

open List
open Machine (collect collect_append Sequential)
open Std (ExtTreeMap)

namespace MemberList

theorem distinct_keys (l : MemberList) : l.members.toList.Pairwise fun a b => a.1 ≠ b.1 :=
  l.members.distinct_keys_toList.imp fun h heq => h (Std.compare_eq_iff_eq.mpr heq)

theorem aliveMembers_nodup (l : MemberList) : l.aliveMembers.Nodup :=
  pairwise_map.mpr (l.distinct_keys.sublist filter_sublist)

/-- Entries of nodes that the copy does not have are stored as they are. -/
theorem members_copy (entries : List (NodeId × MemberEntry)) (copy : MemberList)
    (hnew : ∀ m ∈ entries, m.1 ≠ copy.selfId ∧ copy.get m.1 = none)
    (hdistinct : entries.Pairwise fun a b => a.1 ≠ b.1) :
    (entries.foldl (fun copy m => (copy.apply m.1 m.2.state m.2.incarnation).1) copy).members =
      copy.members.insertMany entries := by
  induction entries generalizing copy with
  | nil => exact ExtTreeMap.insertMany_nil.symm
  | cons m entries ih =>
    obtain ⟨hself, hget⟩ := hnew m mem_cons_self
    obtain ⟨hm, hdistinct⟩ := pairwise_cons.mp hdistinct
    have happly : copy.apply m.1 m.2.state m.2.incarnation = (copy.put m.1 m.2 hself, true) :=
      copy.apply_of_beats (u := m.2.toRecord m.1) hself (by simp [MemberEntry.toRecord, hget])
    rw [foldl_cons, happly, ih _ (fun m' h' => ?_) hdistinct]
    · exact ExtTreeMap.insertMany_cons.symm
    · obtain ⟨hself', hget'⟩ := hnew m' (mem_cons_of_mem m h')
      exact ⟨hself', by rw [copy.get_put, if_neg (hm m' h'), hget']⟩

/-- The copy that a pick is made from has the members of the list. -/
theorem aliveMembers_cloneShallow (l : MemberList) :
    l.cloneShallow.aliveMembers = l.aliveMembers := by
  have hcopy : l.cloneShallow.members = (∅ : Members).insertMany l.members.toList := by
    refine members_copy _ (new l.selfId) (fun m hm => ⟨?_, get_new _ _⟩) l.distinct_keys
    exact l.ne_self_of_get (ExtTreeMap.mem_toList_iff_getElem?_eq_some.mp hm)
  have hsame : l.cloneShallow.members = l.members := by
    rw [hcopy]
    ext1 k
    cases hk : l.members[k]? with
    | none =>
      rw [ExtTreeMap.getElem?_insertMany_list_of_contains_eq_false, ExtTreeMap.getElem?_empty]
      simpa [ExtTreeMap.map_fst_toList_eq_keys] using hk
    | some e =>
      exact ExtTreeMap.getElem?_insertMany_list_of_mem Std.ReflCmp.compare_self
        l.members.distinct_keys_toList (ExtTreeMap.mem_toList_iff_getElem?_eq_some.mpr hk)
  rw [aliveMembers, hsame, aliveMembers]

end MemberList

namespace SwimProbe

variable {p : SwimProbe} {alive : List NodeId}

theorem swap_perm (order : List NodeId) (i j : ℕ) : (swap order i j).Perm order := by
  unfold swap
  split
  next a b ha hb =>
    obtain ⟨hi, rfl⟩ := List.getElem?_eq_some_iff.mp ha
    obtain ⟨hj, rfl⟩ := List.getElem?_eq_some_iff.mp hb
    exact set_set_perm hi hj
  next => exact .refl _

theorem shuffle_perm (stepCounter i : ℕ) (order : List NodeId) :
    (shuffle stepCounter i order).Perm order := by
  induction i generalizing order with
  | zero => exact .refl _
  | succ i ih => exact (ih _).trans (swap_perm order _ _)

section

variable (p : SwimProbe) (alive : List NodeId)

/-- The order is used up or of another length than the members. -/
def Stale : Prop :=
  p.probeIndex ≥ p.probeOrder.length ∨ p.probeOrder.length ≠ alive.length

instance (p : SwimProbe) (alive : List NodeId) : Decidable (p.Stale alive) :=
  inferInstanceAs (Decidable (_ ∨ _))

def rebuild : SwimProbe :=
  { p with probeOrder := shuffle p.stepCounter (alive.length - 1) alive, probeIndex := 0 }

def refreshed : SwimProbe :=
  if p.Stale alive then p.rebuild alive else p

/-- What a pick meets: the machine after whatever else it did, and the member list. -/
structure Turn where
  between : SwimProbe
  members : MemberList

/-- The machine at a pick, with the order and the index that the last pick left. -/
def resume (t : Turn) : SwimProbe :=
  { t.between with probeOrder := p.probeOrder, probeIndex := p.probeIndex }

def turn (t : Turn) : SwimProbe × List NodeId :=
  let picked := (p.resume t).pickProbeTarget t.members.cloneShallow
  (picked.1, picked.2.toList)

end

variable {t : Turn} {turns : List Turn}

theorem turn_eq (p : SwimProbe) (ht : t.members.aliveMembers = alive) (hne : alive ≠ []) :
    p.turn t =
      let q := (p.resume t).refreshed alive
      ({ q with probeIndex := q.probeIndex + 1 }, q.probeOrder[q.probeIndex]?.toList) := by
  simp only [turn, pickProbeTarget, MemberList.aliveMembers_cloneShallow, ht, if_neg hne]
  rfl

/-- A pick from a cached order moves on by one. -/
theorem turn_of_cached (ht : t.members.aliveMembers = alive)
    (hlen : p.probeOrder.length = alive.length) (h : p.probeIndex < p.probeOrder.length) :
    (p.turn t).2 = p.probeOrder[p.probeIndex]?.toList ∧
      (p.turn t).1.probeOrder = p.probeOrder ∧ (p.turn t).1.probeIndex = p.probeIndex + 1 := by
  have hs : ¬ (p.resume t).Stale alive := by
    rintro (hused | hother)
    · exact absurd h hused.not_gt
    · exact hother hlen
  rw [turn_eq p ht (ne_nil_of_length_pos (by omega)), refreshed, if_neg hs]
  exact ⟨rfl, rfl, rfl⟩

theorem length_rebuild (p : SwimProbe) (alive : List NodeId) :
    (p.rebuild alive).probeOrder.length = alive.length :=
  (shuffle_perm _ _ alive).length_eq

/-- A pick from a stale order is one from a new order. -/
theorem turn_of_stale (ht : t.members.aliveMembers = alive) (hne : alive ≠ [])
    (h : p.Stale alive) : p.turn t = (t.between.rebuild alive).turn t := by
  have hlen := t.between.length_rebuild alive
  have hpos := length_pos_of_ne_nil hne
  have hnew : ¬ (t.between.rebuild alive).Stale alive := by
    rintro (hused | hother)
    · change _ ≤ 0 at hused
      omega
    · exact hother hlen
  have hsame : (p.resume t).refreshed alive =
      ((t.between.rebuild alive).resume t).refreshed alive :=
    (if_pos h).trans (if_neg hnew).symm
  rw [turn_eq p ht hne, turn_eq _ ht hne, hsame]

section

variable (hturns : ∀ t ∈ turns, t.members.aliveMembers = alive)
include hturns

theorem collect_turn_of_cached (hlen : p.probeOrder.length = alive.length)
    (h : p.probeIndex + turns.length ≤ alive.length) :
    (collect turn p turns).2 = (p.probeOrder.drop p.probeIndex).take turns.length ∧
      (collect turn p turns).1.probeOrder = p.probeOrder ∧
      (collect turn p turns).1.probeIndex = p.probeIndex + turns.length := by
  induction turns generalizing p with
  | nil => simp [collect]
  | cons t ts ih =>
    obtain ⟨ht, hts⟩ := forall_mem_cons.mp hturns
    rw [length_cons] at h ⊢
    have hlt : p.probeIndex < p.probeOrder.length := by omega
    obtain ⟨hout, horder, hindex⟩ := turn_of_cached ht hlen hlt
    obtain ⟨hout', horder', hindex'⟩ := ih (p := (p.turn t).1) hts (by rw [horder, hlen])
      (by omega)
    refine ⟨?_, horder'.trans horder, hindex'.trans (by omega)⟩
    simp only [collect, Machine.andThen, hout, hout', horder, hindex]
    rw [getElem?_eq_getElem hlt, drop_eq_getElem_cons hlt, take_succ_cons]
    rfl

/-- A pass from a rebuild visits every member. -/
theorem pass_perm (hne : alive ≠ []) (h : p.Stale alive) (hlen : turns.length = alive.length) :
    (collect turn p turns).2.Perm alive := by
  cases turns with
  | nil => exact absurd (length_eq_zero_iff.mp hlen.symm) hne
  | cons t ts =>
    have hnew : collect turn p (t :: ts) = collect turn (t.between.rebuild alive) (t :: ts) := by
      simp only [collect, turn_of_stale (hturns t mem_cons_self) hne h]
    have hlen' := t.between.length_rebuild alive
    obtain ⟨hout, -, -⟩ := collect_turn_of_cached hturns hlen' ((Nat.zero_add _).trans hlen).le
    rw [hnew, hout, hlen, ← hlen']
    change (take _ (drop 0 _)).Perm _
    rw [drop_zero, take_length]
    exact shuffle_perm _ _ _

/-- A cached order that a pick has been made from is used up before a whole pass. -/
theorem exists_stale (hp : p.Started) (hlen : 2 * alive.length - 1 ≤ turns.length) :
    ∃ k, k + alive.length ≤ turns.length ∧ (collect turn p (turns.take k)).1.Stale alive := by
  by_cases hs : p.Stale alive
  · exact ⟨0, by omega, by simpa [collect] using hs⟩
  · unfold Stale at hs
    push Not at hs
    obtain ⟨hlt, heq⟩ := hs
    have hidx : 0 < p.probeIndex := hp.resolve_left (ne_nil_of_length_pos (by omega))
    have hk : (turns.take (alive.length - p.probeIndex)).length = alive.length - p.probeIndex := by
      rw [length_take]
      omega
    refine ⟨alive.length - p.probeIndex, by omega, ?_⟩
    have hfirst : ∀ t ∈ turns.take (alive.length - p.probeIndex), t.members.aliveMembers = alive :=
      fun t ht => hturns t (mem_of_mem_take ht)
    obtain ⟨-, horder, hindex⟩ := collect_turn_of_cached hfirst heq (by omega)
    left
    rw [horder, hindex, hk]
    omega

theorem mem_collect_turn (hne : alive ≠ []) (hp : p.Started)
    (hlen : 2 * alive.length - 1 ≤ turns.length) {id : NodeId} (hid : id ∈ alive) :
    id ∈ (collect turn p turns).2 := by
  obtain ⟨k, hk, hs⟩ := exists_stale hturns hp hlen
  have hpass : (collect turn (collect turn p (turns.take k)).1
      ((turns.drop k).take alive.length)).2.Perm alive := by
    refine pass_perm (fun t ht => ?_) hne hs ?_
    · exact hturns t (mem_of_mem_drop (mem_of_mem_take ht))
    · rw [length_take, length_drop]
      omega
  rw [← take_append_drop k turns, collect_append]
  refine mem_append_right _ ?_
  dsimp only
  rw [← take_append_drop alive.length (turns.drop k), collect_append]
  exact mem_append_left _ (hpass.mem_iff.mpr hid)

end

/-- A call on the machine by its owner. -/
inductive Call
  | step (now : ℕ) (event : SwimEvent) (members : MemberList)
  | enqueueDemandProbe (target : NodeId)

def call (p : SwimProbe) : Call → SwimProbe
  | .step now event members => (p.step now event members).1.1
  | .enqueueDemandProbe target => p.enqueueDemandProbe target

/-- Calls that keep a machine started. -/
def KeepsStarted (p : SwimProbe) (_ : List SwimAction) (q : SwimProbe) : Prop :=
  p.Started → q.Started

theorem keepsStarted_probing : Probing KeepsStarted where
  nil _ := id
  append h h' := h' ∘ h
  aside h := h.started
  start _ _ := id
  reprobe _ _ _ := id

theorem checkProbeTimeout_started (p : SwimProbe) (l : MemberList) :
    KeepsStarted p [] (p.checkProbeTimeout l).1 := by
  unfold checkProbeTimeout startSuspicionTimer
  split
  · split_ifs <;> exact id
  · split_ifs <;> exact id
  · exact id

theorem checkSuspicionTimeouts_started (p : SwimProbe) (l : MemberList) :
    KeepsStarted p [] (p.checkSuspicionTimeouts l).1.1 := by
  have hseq : Sequential fun (s : SwimProbe × MemberList) (_ : List SwimAction) s' =>
      KeepsStarted s.1 [] s'.1 :=
    ⟨fun _ => id, fun h h' => h' ∘ h⟩
  refine hseq.collect (fun s id => ?_) (p, l) _
  obtain ⟨-, he⟩ | ⟨i, phase, hg, he⟩ := expire_cases s.1 s.2 id <;> rw [he] <;> exact fun h => h

theorem Acked.started {id : NodeId} {sequence : ℕ} {out : SwimProbe × List SwimAction}
    (h : p.Acked id sequence out) (hp : p.Started) : out.1.Started := by
  cases h <;> exact hp

/-- No call leaves an order that nothing was picked from. -/
theorem call_started (hp : p.Started) (c : Call) : (p.call c).Started := by
  cases c with
  | enqueueDemandProbe target => exact (aside_demanded p target True).started hp
  | step now event l =>
    cases event with
    | tick =>
      have htimed := checkProbeTimeout_started
        { p with now := now, stepCounter := wrappingAdd p.stepCounter 1 } l hp
      exact keepsStarted_probing.tickProbes _ _ (checkSuspicionTimeouts_started _ l htimed)
    | ackReceived sender sequence =>
      exact (handleAck_acked { p with now := now } sender sequence).started hp
    | indirectAckReceived target sequence =>
      exact (handleIndirectAck_acked { p with now := now } target sequence).started hp
    | sendFailed dest => exact keepsStarted_probing.handleSendFailed { p with now := now } l dest hp

/-- While the non-dead members stay fixed, in whatever state a run has left the machine, any
`2 n - 1` picks in a row visit every member, and the `n` picks from a rebuild on visit each exactly
once. -/
theorem round_robin_covers (config : SwimConfig) (now : ℕ) (calls : List Call)
    (turns : List Turn) (l : MemberList) (hne : l.aliveMembers ≠ [])
    (hturns : ∀ t ∈ turns, t.members.aliveMembers = l.aliveMembers) :
    let p := calls.foldl call (new config now)
    (2 * l.aliveMembers.length - 1 ≤ turns.length →
      ∀ id ∈ l.aliveMembers, id ∈ (collect turn p turns).2) ∧
    (p.Stale l.aliveMembers → turns.length = l.aliveMembers.length →
      (collect turn p turns).2.Perm l.aliveMembers ∧ (collect turn p turns).2.Nodup) := by
  intro p
  have hp : p.Started := foldlRecOn (motive := Started) calls _ (Or.inl rfl)
    fun p h c _ => call_started h c
  refine ⟨fun hlen id hid => mem_collect_turn hturns hne hp hlen hid, fun hs hlen => ?_⟩
  have hpass := pass_perm hturns hne hs hlen
  exact ⟨hpass, hpass.nodup_iff.mpr l.aliveMembers_nodup⟩

/-- A machine that has probed one of three other nodes finishes their order first, since it is as
long as the one of the new members, and then visits the new members. -/
theorem leftover_order_covered :
    let others := ([7, 8, 9] : List NodeId).foldl (fun l id => (l.apply id .alive 0).1)
      (MemberList.new 0)
    let l := ([1, 2, 3] : List NodeId).foldl (fun l id => (l.apply id .alive 0).1)
      (MemberList.new 0)
    let config := SwimConfig.default
    let p := [Call.step config.probeInterval .tick others].foldl call (new config 0)
    let turns := (List.range 5).map fun k => ⟨{ new config 0 with stepCounter := k * k }, l⟩
    l.aliveMembers = [1, 2, 3] ∧ p.probeOrder = [8, 9, 7] ∧ p.probeIndex = 1 ∧
      (collect turn p turns).2 = [9, 7, 3, 2, 1] ∧
      (∀ id ∈ l.aliveMembers, id ∈ (collect turn p turns).2) ∧
      (collect turn (new config 0) (turns.take 3)).2.Perm l.aliveMembers := by
  intro others l config p turns
  have hl : l.aliveMembers = [1, 2, 3] := by decide +kernel
  have hturns : ∀ t ∈ turns, t.members.aliveMembers = l.aliveMembers := by simp [turns]
  have hne : l.aliveMembers ≠ [] := by simp [hl]
  refine ⟨hl, by decide +kernel, by decide +kernel, by decide +kernel, ?_, ?_⟩
  · exact (round_robin_covers config 0 _ turns l hne hturns).1 (by simp [hl, turns])
  · exact ((round_robin_covers config 0 [] (turns.take 3) l hne
      fun t ht => hturns t (mem_of_mem_take ht)).2 (Or.inl le_rfl) (by simp [hl, turns])).1

end SwimProbe
end Swactor.Swim
