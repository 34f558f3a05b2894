import Swactor.DataPlane.Arena

/-!
# The arena is partitioned

The free ranges and the ranges of the live leases tile the arena. Serving a request cuts a
free range and moves the cut to the live leases, a release moves it back and joins it with
its neighbours; neither changes how often a byte is covered. The one exception is a request
that is served when the ring ids are used up: its range is cut out of the free ranges and no
lease gets it.
-/
namespace Swactor.DataPlane

open Tiling Machine ArenaManager Function RingLease ArenaEvent
open List hiding Disjoint span

/-- The layout lies where the alignments ask for and has room for header and data. -/
structure RingLayout.Serves (layout : RingLayout) (config : ArenaConfig) (spec : RingSpec) :
    Prop where
  base : config.baseAlignment ∣ layout.startOffset
  requested : spec.alignment ∣ layout.startOffset
  header : layout.headerOffset = layout.startOffset
  room : layout.headerOffset + spec.headerBytes ≤ layout.dataOffset
  data : layout.dataOffset + spec.dataBytes = layout.endOffset
  bytes : layout.dataBytes = spec.dataBytes
  ceiling : layout.endOffset ≤ config.reservationCeiling

variable {value alignment aligned : ℕ} {layout : RingLayout} {range : FreeRange}
  {free : List FreeRange} {leases : List RingLease}

section

variable (h : alignUp value alignment = some aligned)
include h

theorem le_of_alignUp : value ≤ aligned := by
  unfold alignUp at h
  split_ifs at h with h0 hrem
  · exact (Option.some.inj h).le
  · have := (checkedAdd_eq_some.mp h).2
    omega

theorem dvd_of_alignUp : alignment ∣ aligned := by
  unfold alignUp at h
  split_ifs at h with h0 hrem
  · obtain rfl := Option.some.inj h
    exact Nat.dvd_of_mod_eq_zero hrem
  · obtain rfl := (checkedAdd_eq_some.mp h).2
    have hlt : value % alignment < alignment := Nat.mod_lt _ (by omega)
    have hsum : value + (alignment - value % alignment) = alignment * (value / alignment + 1) := by
      have := Nat.div_add_mod value alignment
      rw [Nat.mul_add]
      omega
    exact hsum ▸ dvd_mul_right _ _

theorem alignUp_mono {smaller : ℕ} (hle : smaller ≤ value) (hmax : aligned ≤ u64Max) :
    ∃ aligned' ≤ aligned, alignUp smaller alignment = some aligned' := by
  have hvalue := le_of_alignUp h
  obtain ⟨k, rfl⟩ := dvd_of_alignUp h
  unfold alignUp at h ⊢
  split_ifs at h ⊢ with h0 hrem hrem'
  all_goals try exact ⟨smaller, hle.trans hvalue, rfl⟩
  all_goals
    have hdiv := Nat.div_add_mod smaller alignment
    have hk : smaller / alignment < k := by
      by_contra hk
      have := Nat.mul_le_mul_left alignment (not_lt.mp hk)
      omega
    have hnext := Nat.mul_le_mul_left alignment hk
    rw [Nat.mul_succ] at hnext
    exact ⟨smaller + (alignment - smaller % alignment), by omega,
      checkedAdd_eq_some.mpr ⟨by omega, rfl⟩⟩

end

theorem dvd_of_lcm {left right multiple : ℕ} (h : lcm left right = some multiple) :
    left ∣ multiple ∧ right ∣ multiple := by
  unfold lcm checkedMul at h
  split_ifs at h with h0 hmul
  obtain rfl := Option.some.inj h
  refine ⟨?_, dvd_mul_left _ _⟩
  obtain ⟨k, hk⟩ := Nat.gcd_dvd_right left right
  have hleft : left / left.gcd right * left.gcd right = left :=
    Nat.div_mul_cancel (Nat.gcd_dvd_left left right)
  refine ⟨k, ?_⟩
  calc left / left.gcd right * right
      = left / left.gcd right * (left.gcd right * k) := by rw [← hk]
    _ = left * k := by rw [← mul_assoc, hleft]

namespace ArenaConfig

variable {config : ArenaConfig} {spec : RingSpec} {layout : RingLayout}

theorem requestLayoutAt_eq_some {rangeStart : ℕ}
    (h : config.requestLayoutAt spec rangeStart = some layout) :
    layout.Serves config spec ∧ rangeStart ≤ layout.startOffset := by
  simp only [requestLayoutAt, Option.bind_eq_bind, Option.bind_eq_some_iff] at h
  obtain ⟨alignment, halign, start, hstart, afterHeader, hheader, dataOffset, hdata, stop, hstop,
    hlayout⟩ := h
  split_ifs at hlayout with hceiling
  obtain rfl := Option.some.inj hlayout
  obtain ⟨hbase, hrequested⟩ := dvd_of_lcm halign
  have hheader' := (checkedAdd_eq_some.mp hheader).2
  have hdata' := le_of_alignUp hdata
  exact ⟨⟨hbase.trans (dvd_of_alignUp hstart), hrequested.trans (dvd_of_alignUp hstart), rfl,
    hheader'.trans_le hdata', (checkedAdd_eq_some.mp hstop).2, rfl, not_lt.mp hceiling⟩,
    le_of_alignUp hstart⟩

/-- What fits behind an offset fits at the start of the arena. -/
theorem requestLayoutAt_zero {rangeStart : ℕ}
    (h : config.requestLayoutAt spec rangeStart = some layout) :
    (config.requestLayoutAt spec 0).isSome := by
  simp only [requestLayoutAt, Option.bind_eq_bind, Option.bind_eq_some_iff] at h
  obtain ⟨alignment, halign, start, hstart, afterHeader, hheader, dataOffset, hdata, stop, hstop,
    hlayout⟩ := h
  split_ifs at hlayout with hceiling
  obtain ⟨hheader, rfl⟩ := checkedAdd_eq_some.mp hheader
  obtain ⟨hstop, rfl⟩ := checkedAdd_eq_some.mp hstop
  obtain ⟨start', hstart', heq⟩ := alignUp_mono hstart (Nat.zero_le _) (by omega)
  have hsmaller : start' + spec.headerBytes ≤ start + spec.headerBytes := by omega
  obtain ⟨data', hdata', heq'⟩ := alignUp_mono hdata hsmaller (by omega)
  have hafter : checkedAdd start' spec.headerBytes = some (start' + spec.headerBytes) :=
    checkedAdd_eq_some.mpr ⟨by omega, rfl⟩
  have hend : checkedAdd data' spec.dataBytes = some (data' + spec.dataBytes) :=
    checkedAdd_eq_some.mpr ⟨by omega, rfl⟩
  have hfits : ¬ data' + spec.dataBytes > config.reservationCeiling := by omega
  simp [requestLayoutAt, halign, heq, hafter, heq', hend, hfits]

theorem fitIn_eq_some {range : FreeRange} (h : config.fitIn spec range = some layout) :
    layout.Serves config spec ∧ range.start ≤ layout.startOffset ∧
      layout.endOffset ≤ range.stop := by
  obtain ⟨hlayout, hstop⟩ := Option.filter_eq_some_iff.mp h
  obtain ⟨hserves, hstart⟩ := requestLayoutAt_eq_some hlayout
  exact ⟨hserves, hstart, by simpa using hstop⟩

end ArenaConfig

theorem RingLayout.Serves.le {config : ArenaConfig} {spec : RingSpec}
    (h : layout.Serves config spec) : layout.startOffset ≤ layout.endOffset := by
  have := h.header
  have := h.room
  have := h.data
  omega

/-- A layout and what it leaves of its range cover what the range covers. -/
theorem depth_remainders (hstart : range.start ≤ layout.startOffset)
    (hle : layout.startOffset ≤ layout.endOffset) (hstop : layout.endOffset ≤ range.stop) (x : ℕ) :
    depth (FreeRange.remainders range layout) x + depth [⟨layout.startOffset, layout.endOffset⟩] x =
      depth [range] x := by
  obtain ⟨lo, hi⟩ := range
  dsimp only at hstart hstop
  have hleading : depth (if lo < layout.startOffset then
      [⟨lo, layout.startOffset⟩] else []) x = depth [⟨lo, layout.startOffset⟩] x := by
    split_ifs with h
    · rfl
    · exact (depth_of_stop_le (not_lt.mp h) x).symm
  have htrailing : depth (if layout.endOffset < hi then
      [⟨layout.endOffset, hi⟩] else []) x = depth [⟨layout.endOffset, hi⟩] x := by
    split_ifs with h
    · rfl
    · exact (depth_of_stop_le (not_lt.mp h) x).symm
  rw [FreeRange.remainders, depth_append, hleading, htrailing]
  have h1 := depth_cut hstart (hle.trans hstop) x
  have h2 := depth_cut hle hstop x
  omega

theorem ordered_remainders {r : FreeRange} (h : r ∈ FreeRange.remainders range layout) :
    r.start ≤ r.stop := by
  rcases mem_append.mp h with h | h
  · split_ifs at h with hlt
    · obtain rfl := mem_singleton.mp h
      exact hlt.le
    · cases h
  · split_ifs at h with hlt
    · obtain rfl := mem_singleton.mp h
      exact hlt.le
    · cases h

namespace ArenaConfig

variable {config : ArenaConfig} {spec : RingSpec}

/-- What carving a layout out of the free ranges does. -/
structure Carved (config : ArenaConfig) (spec : RingSpec) (free : List FreeRange)
    (layout : RingLayout) (free' : List FreeRange) : Prop where
  serves : layout.Serves config spec
  depth : ∀ x, depth free' x + depth [⟨layout.startOffset, layout.endOffset⟩] x = depth free x
  ordered : (∀ r ∈ free, r.start ≤ r.stop) → ∀ r ∈ free', r.start ≤ r.stop

variable {free : List FreeRange}

theorem carved_of_carve {free' : List FreeRange} {layout : RingLayout}
    (h : config.carve spec free = some (layout, free')) : Carved config spec free layout free' := by
  induction free generalizing free' with
  | nil => cases h
  | cons range rest ih =>
    unfold carve at h
    cases hfit : config.fitIn spec range with
    | some found =>
      rw [hfit] at h
      obtain ⟨rfl, rfl⟩ : found = layout ∧ FreeRange.remainders range found ++ rest = free' := by
        simpa using h
      obtain ⟨hserves, hstart, hstop⟩ := fitIn_eq_some hfit
      refine ⟨hserves, fun x => ?_, fun hordered r hr => ?_⟩
      · have := depth_remainders hstart hserves.le hstop x
        rw [depth_append, depth_cons range]
        omega
      · rcases mem_append.mp hr with hr | hr
        · exact ordered_remainders hr
        · exact hordered r (mem_cons_of_mem range hr)
    | none =>
      rw [hfit] at h
      obtain ⟨⟨found, rest'⟩, hrest, heq⟩ := Option.map_eq_some_iff.mp h
      obtain ⟨rfl, rfl⟩ : found = layout ∧ range :: rest' = free' := by simpa using heq
      obtain ⟨hserves, hdepth, hordered⟩ := ih hrest
      refine ⟨hserves, fun x => ?_, fun hle => ?_⟩
      · have := hdepth x
        rw [depth_cons range rest', depth_cons range rest]
        omega
      · obtain ⟨hrange, hle⟩ := forall_mem_cons.mp hle
        exact forall_mem_cons.mpr ⟨hrange, hordered hle⟩

theorem carve_eq_none :
    config.carve spec free = none ↔ ∀ range ∈ free, config.fitIn spec range = none := by
  induction free with
  | nil => simp [carve]
  | cons range rest ih =>
    unfold carve
    cases hfit : config.fitIn spec range with
    | some layout => simp [hfit]
    | none => simp [hfit, ih]

theorem requestLayoutAt_zero_of_carve {found : RingLayout × List FreeRange}
    (h : config.carve spec free = some found) : (config.requestLayoutAt spec 0).isSome := by
  have hfit : ¬ ∀ range ∈ free, config.fitIn spec range = none := by
    rw [← carve_eq_none, h]
    simp
  push Not at hfit
  obtain ⟨range, -, hne⟩ := hfit
  obtain ⟨layout, hlayout⟩ := Option.ne_none_iff_exists'.mp hne
  exact requestLayoutAt_zero (Option.filter_eq_some_iff.mp hlayout).1

end ArenaConfig

/-- Joining neighbours in a sorted list of ranges that nowhere overlap keeps the depth. -/
theorem depth_coalesceFrom {last : FreeRange} (hlast : last.start < last.stop)
    (hordered : ∀ r ∈ free, r.start ≤ r.stop)
    (hsorted : (last :: free).Pairwise fun r r' => r.start ≤ r'.start)
    (hdepth : ∀ x, depth (last :: free) x ≤ 1) (x : ℕ) :
    depth (coalesceFrom last free) x = depth (last :: free) x := by
  induction free generalizing last with
  | nil => rfl
  | cons range rest ih =>
    obtain ⟨hle, hrest⟩ := forall_mem_cons.mp hordered
    obtain ⟨hbehind, hsorted'⟩ := pairwise_cons.mp hsorted
    have hstart : last.start ≤ range.start := hbehind range mem_cons_self
    have hcons (y : ℕ) := depth_cons last (range :: rest) y
    have hcons' (y : ℕ) := depth_cons range rest y
    unfold coalesceFrom
    split_ifs with hempty htouch
    · have hzero (y : ℕ) : depth [range] y = 0 := depth_of_stop_le hempty.ge y
      rw [ih hlast hrest, depth_cons last rest]
      · have := hzero x
        have := hcons x
        have := hcons' x
        omega
      · exact pairwise_cons.mpr ⟨fun r hr => hbehind r (mem_cons_of_mem range hr),
          (pairwise_cons.mp hsorted').2⟩
      · intro y
        have := hcons y
        have := hcons' y
        have := hdepth y
        rw [depth_cons last rest]
        omega
    · have hlt : range.start < range.stop := lt_of_le_of_ne hle hempty
      have hend : last.stop = range.start := by
        by_contra hne
        have h1 : depth [last] range.start = 1 := by
          rw [depth_singleton, if_pos ⟨hstart, by omega⟩]
        have h2 : depth [range] range.start = 1 := by
          rw [depth_singleton, if_pos ⟨le_rfl, hlt⟩]
        have := hdepth range.start
        have := hcons range.start
        have := hcons' range.start
        omega
      have hjoin (y : ℕ) : depth [{ last with stop := max last.stop range.stop }] y =
          depth [last] y + depth [range] y := by
        have hmax : max last.stop range.stop = range.stop := max_eq_right (by omega)
        rw [hmax, depth_join hlast.le hle hend]
      rw [ih (by simp; omega) hrest]
      · rw [depth_cons, hjoin, hcons x, hcons' x]
        omega
      · exact pairwise_cons.mpr ⟨fun r hr => hbehind r (mem_cons_of_mem range hr),
          (pairwise_cons.mp hsorted').2⟩
      · intro y
        have := hdepth y
        rw [depth_cons, hjoin]
        rw [hcons y, hcons' y] at this
        omega
    · have hlt : range.start < range.stop := lt_of_le_of_ne hle hempty
      rw [depth_cons last, hcons x, ih hlt hrest hsorted']
      intro y
      have := hdepth y
      rw [hcons y] at this
      omega

theorem depth_coalesce (hordered : ∀ r ∈ free, r.start ≤ r.stop)
    (hsorted : free.Pairwise fun r r' => r.start ≤ r'.start) (hdepth : ∀ x, depth free x ≤ 1)
    (x : ℕ) : depth (coalesce free) x = depth free x := by
  induction free with
  | nil => rfl
  | cons range rest ih =>
    obtain ⟨hle, hrest⟩ := forall_mem_cons.mp hordered
    unfold coalesce
    split_ifs with hempty
    · have hzero (y : ℕ) : depth [range] y = 0 := depth_of_stop_le hempty.ge y
      rw [depth_cons range rest, hzero x, zero_add]
      refine ih hrest (pairwise_cons.mp hsorted).2 fun y => ?_
      have := hdepth y
      rw [depth_cons, hzero y] at this
      omega
    · exact depth_coalesceFrom (lt_of_le_of_ne hle hempty) hrest hsorted hdepth x

theorem ordered_coalesceFrom {last : FreeRange} (hlast : last.start ≤ last.stop)
    (hordered : ∀ r ∈ free, r.start ≤ r.stop) : ∀ r ∈ coalesceFrom last free, r.start ≤ r.stop := by
  induction free generalizing last with
  | nil => simpa [coalesceFrom] using hlast
  | cons range rest ih =>
    obtain ⟨hle, hrest⟩ := forall_mem_cons.mp hordered
    unfold coalesceFrom
    split_ifs with hempty htouch
    · exact ih hlast hrest
    · exact ih (hlast.trans (le_max_left _ _)) hrest
    · exact forall_mem_cons.mpr ⟨hlast, ih hle hrest⟩

theorem ordered_coalesce (hordered : ∀ r ∈ free, r.start ≤ r.stop) :
    ∀ r ∈ coalesce free, r.start ≤ r.stop := by
  induction free with
  | nil => simp [coalesce]
  | cons range rest ih =>
    obtain ⟨hle, hrest⟩ := forall_mem_cons.mp hordered
    unfold coalesce
    split_ifs with hempty
    · exact ih hrest
    · exact ordered_coalesceFrom hle hrest

/-- Putting a range back that nowhere overlaps the free ones adds its points. -/
theorem depth_insertFreeRange (hordered : ∀ r ∈ free ++ [range], r.start ≤ r.stop)
    (hdepth : ∀ x, depth (free ++ [range]) x ≤ 1) (x : ℕ) :
    depth (insertFreeRange free range) x = depth (free ++ [range]) x := by
  have hperm := perm_insertionSort (fun r r' : FreeRange => r.start ≤ r'.start)
    (free ++ [range])
  have hsame (y : ℕ) := depth_perm hperm y
  rw [← hsame x]
  refine depth_coalesce (fun r hr => hordered r (hperm.mem_iff.mp hr)) ?_ (fun y => ?_) x
  · exact pairwise_insertionSort _ _
  · rw [hsame y]
    exact hdepth y

theorem ordered_insertFreeRange (hordered : ∀ r ∈ free ++ [range], r.start ≤ r.stop) :
    ∀ r ∈ insertFreeRange free range, r.start ≤ r.stop :=
  ordered_coalesce fun r hr => hordered r ((perm_insertionSort _ _).mem_iff.mp hr)

/-- The index holds the position of every lease and nothing else. -/
def Indexes (index : ℕ → Option ℕ) (leases : List RingLease) : Prop :=
  ∀ ringId i, index ringId = some i ↔ leases[i]?.map RingLease.ringId = some ringId

variable {index : ℕ → Option ℕ}

theorem Indexes.nodup (h : Indexes index leases) : (leases.map RingLease.ringId).Nodup := by
  refine nodup_iff_getElem?_ne_getElem?.mpr fun i j hij hj heq => ?_
  obtain ⟨ringId, hid⟩ : ∃ ringId, (leases.map RingLease.ringId)[j]? = some ringId :=
    ⟨_, getElem?_eq_getElem hj⟩
  have hi : index ringId = some i :=
    (h ringId i).mpr (by rw [← getElem?_map, heq, hid])
  have hj : index ringId = some j := (h ringId j).mpr (by rw [← getElem?_map, hid])
  have : i = j := Option.some.inj (hi.symm.trans hj)
  omega

theorem Indexes.append {lease : RingLease} (h : Indexes index leases)
    (hnew : ∀ l ∈ leases, l.ringId ≠ lease.ringId) :
    Indexes (update index lease.ringId (some leases.length)) (leases ++ [lease]) := by
  intro ringId i
  have hold : leases[i]?.map RingLease.ringId = some lease.ringId → False := by
    intro hi
    obtain ⟨l, hl, hid⟩ := Option.map_eq_some_iff.mp hi
    exact hnew l (mem_of_getElem? hl) hid
  rcases lt_trichotomy i leases.length with hi | hi | hi
  · rw [getElem?_append_left hi]
    by_cases hid : ringId = lease.ringId
    · subst hid
      simp only [update_self, Option.some_inj]
      constructor
      · omega
      · exact fun hi => (hold hi).elim
    · rw [update_of_ne hid]
      exact h ringId i
  · subst hi
    rw [getElem?_concat_length, Option.map_some, Option.some_inj]
    by_cases hid : ringId = lease.ringId
    · simp [hid]
    · rw [update_of_ne hid, h ringId]
      simp [Ne.symm hid]
  · rw [getElem?_eq_none (by simp; omega)]
    by_cases hid : ringId = lease.ringId
    · subst hid
      simp only [update_self, Option.some_inj, Option.map_none, reduceCtorEq, iff_false]
      omega
    · rw [update_of_ne hid, h ringId, getElem?_eq_none (by omega)]

theorem rebuildLiveIndex_append (leases : List RingLease) (lease : RingLease) :
    rebuildLiveIndex (leases ++ [lease]) =
      update (rebuildLiveIndex leases) lease.ringId (some leases.length) := by
  simp [rebuildLiveIndex, zipIdx_append]

theorem indexes_rebuildLiveIndex (hids : (leases.map ringId).Nodup) :
    Indexes (rebuildLiveIndex leases) leases := by
  induction leases using reverseRecOn with
  | nil => simp [Indexes, rebuildLiveIndex]
  | append_singleton leases lease ih =>
    obtain ⟨hids', hnew⟩ : (leases.map ringId).Nodup ∧
        ∀ l ∈ leases, l.ringId ≠ lease.ringId := by
      simpa [nodup_append] using hids
    rw [rebuildLiveIndex_append]
    exact (ih hids').append hnew

/-- The lease is for the request. -/
structure RingLease.Serves (lease : RingLease) (config : ArenaConfig) (request : LeaseRing) :
    Prop where
  requestId : lease.requestId = request.requestId
  requestedAlignment : lease.requestedAlignment = request.ringSpec.alignment
  layout : lease.layout.Serves config request.ringSpec

namespace ArenaManager

/-- The free ranges and the ranges of the live leases. -/
def regions (m : ArenaManager) : List (Span ℕ) := m.freeRanges ++ m.liveOrder.map span

/-- What holds as long as the ring ids last. `asked` are the requests made so far. -/
structure Partitioned (asked : LeaseRing → Prop) (m : ArenaManager) : Prop where
  tiles : Tiles ⟨0, m.config.reservationCeiling⟩ m.regions
  ordered : ∀ s ∈ m.regions, s.start ≤ s.stop
  index : Indexes m.liveIndex m.liveOrder
  fresh : ∀ lease ∈ m.liveOrder, lease.ringId < m.nextRingId
  served : ∀ lease ∈ m.liveOrder, ∃ request, asked request ∧ lease.Serves m.config request
  queued : ∀ queued ∈ m.pending, asked queued.request

/-- The ring ids suffice for what the request can be served. -/
def Fair (m : ArenaManager) : ArenaRequest → Prop
  | .leaseRing _ => m.pending = [] → m.nextRingId < u64Max
  | .releaseRing _ _ => m.nextRingId + m.pending.length ≤ u64Max
  | .cancelLease _ | .shutdown => True

instance fair_decidable (m : ArenaManager) : ∀ r, Decidable (m.Fair r)
  | .leaseRing _ => inferInstanceAs (Decidable (m.pending = [] → m.nextRingId < u64Max))
  | .releaseRing _ _ => inferInstanceAs (Decidable (m.nextRingId + m.pending.length ≤ u64Max))
  | .cancelLease _ => inferInstanceAs (Decidable True)
  | .shutdown => inferInstanceAs (Decidable True)

/-- The manager after a request was given a layout. -/
def grant (m : ArenaManager) (request : LeaseRing) (layout : RingLayout)
    (freeRanges : List FreeRange) : ArenaManager :=
  { m with
    freeRanges := freeRanges
    nextRingId := m.nextRingId + 1
    liveIndex := update m.liveIndex m.nextRingId (some m.liveOrder.length)
    liveOrder := m.liveOrder ++ [m.newLease request layout] }

variable {m : ArenaManager} {request : LeaseRing} {asked : LeaseRing → Prop}

/-- With a ring id left, a request either fits no free range or is granted. -/
theorem tryAllocate_cases (m : ArenaManager) (request : LeaseRing) (hid : m.nextRingId < u64Max) :
    (∀ range ∈ m.freeRanges, m.config.fitIn request.ringSpec range = none) ∧
        m.tryAllocate request = (none, m) ∨
      ∃ layout free, m.config.Carved request.ringSpec m.freeRanges layout free ∧
        m.tryAllocate request =
          (some (m.newLease request layout), m.grant request layout free) := by
  unfold tryAllocate
  cases hcarve : m.config.carve request.ringSpec m.freeRanges with
  | none => exact Or.inl ⟨ArenaConfig.carve_eq_none.mp hcarve, rfl⟩
  | some found =>
    obtain ⟨layout, free⟩ := found
    have hnext : checkedAdd m.nextRingId 1 = some (m.nextRingId + 1) :=
      checkedAdd_eq_some.mpr ⟨hid, rfl⟩
    refine Or.inr ⟨layout, free, ArenaConfig.carved_of_carve hcarve, ?_⟩
    simp only [hnext]
    rfl

/-- What a lease request does to the live leases, and what it answers. -/
theorem leaseRing_cases (m : ArenaManager) (request : LeaseRing) :
    (m.leaseRing request).1.liveOrder = m.liveOrder ∧
        ((m.leaseRing request).2 = [.ringLeaseQueued request.requestId] ∨
          ∃ reason, (m.leaseRing request).2 = [.ringLeaseRejected request.requestId reason]) ∨
      ∃ lease, (m.leaseRing request).1.liveOrder = m.liveOrder ++ [lease] ∧
        (m.leaseRing request).2 = [.ringLeased lease] ∧ lease.requestId = request.requestId := by
  unfold leaseRing
  split
  · exact .inl ⟨rfl, .inr ⟨_, rfl⟩⟩
  split
  · exact .inl ⟨rfl, .inr ⟨_, rfl⟩⟩
  by_cases hpending : m.pending.isEmpty = true
  · rw [if_pos hpending]
    unfold tryAllocate
    cases m.config.carve request.ringSpec m.freeRanges with
    | none => exact .inl ⟨rfl, .inl rfl⟩
    | some carved =>
      cases checkedAdd m.nextRingId 1 with
      | none => exact .inl ⟨rfl, .inl rfl⟩
      | some next => exact .inr ⟨_, rfl, rfl, rfl⟩
  · rw [if_neg hpending]
    exact .inl ⟨rfl, .inl rfl⟩

/-- A request that fits a free range of an idle queue is granted at once. -/
theorem leaseRing_of_carve (hready : m.state = .ready) (hpending : m.pending = [])
    (hid : m.nextRingId < u64Max) {layout : RingLayout} {free : List FreeRange}
    (hcarve : m.config.carve request.ringSpec m.freeRanges = some (layout, free)) :
    m.leaseRing request =
      (m.grant request layout free, [.ringLeased (m.newLease request layout)]) := by
  have hnext : checkedAdd m.nextRingId 1 = some (m.nextRingId + 1) :=
    checkedAdd_eq_some.mpr ⟨hid, rfl⟩
  have hlayout : (m.config.requestLayoutAt request.ringSpec 0).isSome :=
    ArenaConfig.requestLayoutAt_zero_of_carve hcarve
  unfold leaseRing
  rw [if_neg (by simp [hready]), if_neg (by simpa using Option.isSome_iff_ne_none.mp hlayout),
    if_pos (by simp [hpending])]
  simp only [tryAllocate, hcarve, hnext]
  rfl

section

variable (h : m.Partitioned asked)
include h

theorem Partitioned.grant (hasked : asked request) {layout : RingLayout} {free : List FreeRange}
    (hcarved : m.config.Carved request.ringSpec m.freeRanges layout free) :
    (m.grant request layout free).Partitioned asked where
  tiles x := by
    have hold := h.tiles x
    have hdepth := hcarved.depth x
    simp only [regions, ArenaManager.grant, map_append, depth_append, map_cons,
      map_nil] at hold ⊢
    have hspan : depth [(m.newLease request layout).span] x =
        depth [⟨layout.startOffset, layout.endOffset⟩] x := rfl
    omega
  ordered s hs := by
    have hfree : ∀ r ∈ m.freeRanges, r.start ≤ r.stop :=
      fun r hr => h.ordered r (mem_append_left _ hr)
    simp only [regions, ArenaManager.grant, map_append, map_cons, map_nil,
      mem_append, mem_singleton] at hs
    rcases hs with hs | hs | rfl
    · exact hcarved.ordered hfree s hs
    · exact h.ordered s (mem_append_right _ hs)
    · exact hcarved.serves.le
  index := @Indexes.append _ _ (m.newLease request layout) h.index fun l hl => (h.fresh l hl).ne
  fresh lease hlease := by
    rcases mem_append.mp hlease with hlease | hlease
    · exact (h.fresh lease hlease).trans (Nat.lt_succ_self _)
    · obtain rfl := mem_singleton.mp hlease
      exact Nat.lt_succ_self _
  served lease hlease := by
    rcases mem_append.mp hlease with hlease | hlease
    · exact h.served lease hlease
    · obtain rfl := mem_singleton.mp hlease
      exact ⟨request, hasked, rfl, rfl, hcarved.serves⟩
  queued := h.queued

theorem Partitioned.tryAllocate (hasked : asked request) (hid : m.nextRingId < u64Max) :
    (m.tryAllocate request).2.Partitioned asked ∧
      (m.tryAllocate request).2.nextRingId ≤ m.nextRingId + 1 := by
  rcases m.tryAllocate_cases request hid with ⟨-, heq⟩ | ⟨layout, free, hcarved, heq⟩
  · rw [heq]
    exact ⟨h, Nat.le_succ _⟩
  · rw [heq]
    exact ⟨h.grant hasked hcarved, le_rfl⟩

variable {pending : List QueuedLease}

/-- A change of the queue, the counters or the mode. -/
theorem Partitioned.withPending (hpending : ∀ queued ∈ pending, asked queued.request)
    (state : ArenaState) (a r : ℕ) :
    Partitioned asked { m with
      pending := pending, state := state, allocationFailuresTotal := a,
      releaseFailuresTotal := r } :=
  { h with queued := hpending }

theorem Partitioned.retryPendingLeases (hpending : ∀ queued ∈ pending, asked queued.request)
    (hids : m.nextRingId + pending.length ≤ u64Max) :
    (m.retryPendingLeases pending).1.Partitioned asked := by
  induction pending generalizing m with
  | nil => exact h.withPending (by simp) _ _ _
  | cons queued rest ih =>
    obtain ⟨hqueued, hrest⟩ := forall_mem_cons.mp hpending
    rw [length_cons] at hids
    unfold retryPendingLeases
    split_ifs with hcancelled
    · exact ih h hrest (by omega)
    · have halloc := h.tryAllocate hqueued (by omega)
      rcases heq : m.tryAllocate queued.request with ⟨_ | lease, m'⟩
      · rw [heq] at halloc
        exact halloc.1.withPending hpending _ _ _
      · rw [heq] at halloc
        obtain ⟨hpart, hnext⟩ := halloc
        dsimp only at hpart hnext
        exact ih hpart hrest (by omega)

theorem Partitioned.unlease {index : ℕ} {lease : RingLease}
    (hlease : m.liveOrder[index]? = some lease) : (m.unlease index lease).Partitioned asked := by
  have hmem : ∀ l ∈ m.liveOrder.eraseIdx index, l ∈ m.liveOrder :=
    fun l hl => mem_of_mem_eraseIdx hl
  have hperm : m.liveOrder.Perm (lease :: m.liveOrder.eraseIdx index) := by
    obtain ⟨hi, rfl⟩ := List.getElem?_eq_some_iff.mp hlease
    exact (getElem_cons_eraseIdx_perm hi).symm
  have hspans := hperm.map span
  have hsplit (x : ℕ) : depth m.regions x = depth (m.freeRanges ++ [lease.span]) x +
      depth ((m.liveOrder.eraseIdx index).map span) x := by
    rw [regions, depth_append, depth_append, depth_perm hspans, map_cons, depth_cons]
    omega
  have hordered : ∀ r ∈ m.freeRanges ++ [lease.span], r.start ≤ r.stop := by
    intro r hr
    refine h.ordered r ?_
    rcases mem_append.mp hr with hr | hr
    · exact mem_append_left _ hr
    · obtain rfl := mem_singleton.mp hr
      exact mem_append_right _ (mem_map_of_mem (mem_of_getElem? hlease))
  have hdepth (x : ℕ) : depth (m.freeRanges ++ [lease.span]) x ≤ 1 := by
    have := h.tiles.depth_le x
    rw [hsplit] at this
    omega
  refine ⟨fun x => ?_, fun s hs => ?_, ?_, fun l hl => h.fresh l (hmem l hl),
    fun l hl => h.served l (hmem l hl), h.queued⟩
  · have := h.tiles x
    rw [hsplit] at this
    simp only [regions, ArenaManager.unlease]
    rw [depth_append, depth_insertFreeRange hordered hdepth]
    exact this
  · rcases mem_append.mp hs with hs | hs
    · exact ordered_insertFreeRange hordered s hs
    · obtain ⟨l, hl, rfl⟩ := mem_map.mp hs
      exact h.ordered _ (mem_append_right _ (mem_map_of_mem (hmem l hl)))
  · exact indexes_rebuildLiveIndex
      (h.index.nodup.sublist ((eraseIdx_sublist _ _).map ringId))

end

theorem unlease_state (m : ArenaManager) (index : ℕ) (lease : RingLease) :
    (m.unlease index lease).state = m.state := rfl

/-- What a release does: it is refused, or the lease leaves and the queue is served. -/
theorem releaseRing_cases (h : m.Partitioned asked) (ringId : ℕ) (proof : Bool) :
    (∃ reason, m.releaseRing ringId proof = m.refuseRelease ringId reason) ∨
      ∃ index lease, m.liveIndex ringId = some index ∧ m.liveOrder[index]? = some lease ∧
        lease.ringId = ringId ∧ proof = true ∧
        let released := .ringReleased ringId lease.layout.startOffset lease.layout.endOffset
        (m.state ≠ .ready ∧ m.releaseRing ringId proof = (m.unlease index lease, [released]) ∨
          m.state = .ready ∧ m.releaseRing ringId proof =
            (((m.unlease index lease).retryPendingLeases m.pending).1,
              released :: ((m.unlease index lease).retryPendingLeases m.pending).2)) := by
  unfold releaseRing
  cases hindex : m.liveIndex ringId with
  | none => exact Or.inl ⟨_, rfl⟩
  | some index =>
    cases proof with
    | false => exact Or.inl ⟨_, rfl⟩
    | true =>
      obtain ⟨lease, hlease, hid⟩ := Option.map_eq_some_iff.mp ((h.index ringId index).mp hindex)
      refine Or.inr ⟨index, lease, rfl, hlease, hid, rfl, ?_⟩
      by_cases hready : m.state = .ready
      · refine Or.inr ⟨hready, ?_⟩
        simp only [hlease, unlease_state, hready, Bool.true_eq_false, if_true, if_false]
        rfl
      · refine Or.inl ⟨hready, ?_⟩
        simp only [hlease, unlease_state, hready, Bool.true_eq_false, if_false]

theorem Partitioned.step (h : m.Partitioned asked) (r : ArenaRequest) (hfair : m.Fair r)
    (hasked : ∀ request, r = .leaseRing request → asked request) :
    (m.step r).Partitioned asked := by
  cases r with
  | leaseRing request =>
    have hasked := hasked request rfl
    have hqueue {m' : ArenaManager} (h' : m'.Partitioned asked) : Partitioned asked
        { m' with pending := m'.pending ++ [⟨request, false⟩] } :=
      h'.withPending (forall_mem_append.mpr ⟨h'.queued, by simpa using hasked⟩) _ _ _
    simp only [ArenaManager.step, ArenaManager.request, leaseRing]
    split_ifs with hdown hlayout hempty
    · exact h.withPending h.queued _ _ _
    · exact h.withPending h.queued _ _ _
    · have halloc := (h.tryAllocate hasked (hfair (by simpa using hempty))).1
      rcases heq : m.tryAllocate request with ⟨_ | lease, m'⟩
      · rw [heq] at halloc
        exact hqueue halloc
      · rw [heq] at halloc
        exact halloc
    · exact hqueue h
  | cancelLease requestId =>
    refine h.withPending (fun queued hqueued => ?_) _ _ _
    obtain ⟨q, hq, rfl⟩ := mem_map.mp hqueued
    split_ifs
    · exact h.queued q hq
    · exact h.queued q hq
  | releaseRing ringId proof =>
    simp only [ArenaManager.step, ArenaManager.request]
    rcases releaseRing_cases h ringId proof with
      ⟨reason, heq⟩ | ⟨index, lease, -, hlease, -, -, ⟨-, heq⟩ | ⟨-, heq⟩⟩
    · rw [heq]
      exact h.withPending h.queued _ _ _
    · rw [heq]
      exact h.unlease hlease
    · rw [heq]
      exact (h.unlease hlease).retryPendingLeases h.queued hfair
  | shutdown => exact h.withPending (by simp) _ _ _

end ArenaManager

/-- The ring id an event announces. -/
def ArenaEvent.leasedId : ArenaEvent → Option ℕ
  | .ringLeased lease => some lease.ringId
  | _ => none

namespace ArenaManager

variable {m : ArenaManager} {asked : LeaseRing → Prop}

/-- The ring ids announced between two states are new and increase. -/
structure Issues (m : ArenaManager) (events : List ArenaEvent) (m' : ArenaManager) : Prop where
  le : m.nextRingId ≤ m'.nextRingId
  increasing : (events.filterMap leasedId).Pairwise (· < ·)
  new : ∀ id ∈ events.filterMap leasedId, m.nextRingId ≤ id ∧ id < m'.nextRingId

variable {m : ArenaManager}

theorem issues_silent {m' : ArenaManager} {events : List ArenaEvent}
    (hle : m.nextRingId ≤ m'.nextRingId) (h : events.filterMap leasedId = []) :
    Issues m events m' := by
  refine ⟨hle, ?_, ?_⟩
  · rw [h]
    exact List.Pairwise.nil
  · simp [h]

theorem issues_sequential : Sequential Issues where
  nil m := issues_silent le_rfl rfl
  append h h' := by
    refine ⟨h.le.trans h'.le, ?_, fun id hid => ?_⟩
    · rw [filterMap_append]
      refine pairwise_append.mpr ⟨h.increasing, h'.increasing, fun id hid id' hid' => ?_⟩
      exact (h.new id hid).2.trans_le (h'.new id' hid').1
    · rw [filterMap_append, mem_append] at hid
      rcases hid with hid | hid
      · exact ⟨(h.new id hid).1, (h.new id hid).2.trans_le h'.le⟩
      · exact ⟨h.le.trans (h'.new id hid).1, (h'.new id hid).2⟩

section

variable (m : ArenaManager)

theorem issues_tryAllocate (request : LeaseRing) :
    Issues m ((m.tryAllocate request).1.toList.map ringLeased)
      (m.tryAllocate request).2 := by
  unfold tryAllocate
  cases m.config.carve request.ringSpec m.freeRanges with
  | none => exact issues_silent le_rfl rfl
  | some found =>
    cases hnext : checkedAdd m.nextRingId 1 with
    | none => exact issues_silent le_rfl rfl
    | some next =>
      obtain rfl := (checkedAdd_eq_some.mp hnext).2
      refine ⟨Nat.le_succ _, pairwise_singleton _ _, fun id hid => ?_⟩
      obtain rfl : id = m.nextRingId := by simpa [leasedId, newLease] using hid
      exact ⟨le_rfl, Nat.lt_succ_self _⟩

theorem issues_retryPendingLeases (pending : List QueuedLease) :
    Issues m (m.retryPendingLeases pending).2 (m.retryPendingLeases pending).1 := by
  induction pending generalizing m with
  | nil => exact issues_silent le_rfl rfl
  | cons queued rest ih =>
    unfold retryPendingLeases
    split_ifs with hcancelled
    · have hcancel : Issues m [.cancelledFreshLeaseReleased queued.request.requestId] m :=
        issues_silent le_rfl rfl
      exact issues_sequential.append hcancel (ih m)
    · have halloc := issues_tryAllocate m queued.request
      rcases heq : m.tryAllocate queued.request with ⟨_ | lease, m'⟩
      · rw [heq] at halloc
        exact issues_silent halloc.le rfl
      · rw [heq] at halloc
        exact issues_sequential.append halloc (ih m')

theorem issues_request (r : ArenaRequest) : Issues m (m.request r).2 (m.request r).1 := by
  cases r with
  | leaseRing request =>
    simp only [ArenaManager.request, leaseRing]
    split_ifs with hdown hlayout hempty
    · exact issues_silent le_rfl rfl
    · exact issues_silent le_rfl rfl
    · have halloc := issues_tryAllocate m request
      rcases heq : m.tryAllocate request with ⟨_ | lease, m'⟩
      · rw [heq] at halloc
        exact issues_silent halloc.le rfl
      · rw [heq] at halloc
        exact halloc
    · exact issues_silent le_rfl rfl
  | cancelLease requestId => exact issues_silent le_rfl rfl
  | releaseRing ringId proof =>
    simp only [request, releaseRing]
    split
    · exact issues_silent le_rfl rfl
    · rename_i index _
      split_ifs
      · exact issues_silent le_rfl rfl
      · split
        · exact issues_silent le_rfl rfl
        · rename_i lease _
          have hrelease : Issues m
              [.ringReleased ringId lease.layout.startOffset lease.layout.endOffset]
              (m.unlease index lease) := issues_silent le_rfl rfl
          split_ifs
          · exact issues_sequential.append hrelease (issues_retryPendingLeases _ _)
          · exact hrelease
  | shutdown =>
    refine issues_silent le_rfl (filterMap_eq_nil_iff.mpr fun event hevent => ?_)
    obtain ⟨queued, -, rfl⟩ := mem_map.mp hevent
    split_ifs <;> rfl

theorem config_tryAllocate (request : LeaseRing) : (m.tryAllocate request).2.config = m.config := by
  unfold tryAllocate
  split
  · rfl
  · split <;> rfl

end

/-- The retries keep what the queue does not enter and the single allocations keep. -/
theorem keeps_retryPendingLeases {A : Type} {f : ArenaManager → A}
    (hqueue : ∀ (m : ArenaManager) pending, f { m with pending := pending } = f m)
    (hf : ∀ m request, f (tryAllocate m request).2 = f m) (m : ArenaManager)
    (pending : List QueuedLease) : f (m.retryPendingLeases pending).1 = f m := by
  induction pending generalizing m with
  | nil => exact hqueue m []
  | cons queued rest ih =>
    unfold retryPendingLeases
    split_ifs
    · exact ih m
    · have halloc := hf m queued.request
      rcases heq : m.tryAllocate queued.request with ⟨_ | lease, m'⟩
      · rw [heq] at halloc
        exact (hqueue m' _).trans halloc
      · rw [heq] at halloc
        exact (ih m').trans halloc

theorem config_step (m : ArenaManager) (r : ArenaRequest) : (m.step r).config = m.config := by
  cases r with
  | leaseRing request =>
    simp only [ArenaManager.step, ArenaManager.request, leaseRing]
    split_ifs
    · rfl
    · rfl
    · have halloc := config_tryAllocate m request
      rcases heq : m.tryAllocate request with ⟨_ | lease, m'⟩
      · rw [heq] at halloc
        exact halloc
      · rw [heq] at halloc
        exact halloc
    · rfl
  | cancelLease requestId => rfl
  | releaseRing ringId proof =>
    simp only [step, request, releaseRing]
    split
    · rfl
    · split_ifs
      · rfl
      · split
        · rfl
        · split_ifs
          · exact keeps_retryPendingLeases (fun _ _ => rfl) config_tryAllocate _ _
          · rfl
  | shutdown => rfl

variable {config : ArenaConfig}

theorem boot_eq_ok (h : boot config = .ok m) :
    0 < config.reservationCeiling ∧ 0 < config.baseAlignment ∧
      m = { config := config, freeRanges := [⟨0, config.reservationCeiling⟩] } := by
  unfold boot at h
  split_ifs at h with hceiling halignment
  exact ⟨Nat.pos_of_ne_zero hceiling, Nat.pos_of_ne_zero halignment, (Except.ok.inj h).symm⟩

theorem partitioned_boot (h : boot config = .ok m) : m.Partitioned asked := by
  obtain ⟨-, -, rfl⟩ := boot_eq_ok h
  exact ⟨fun x => by simp [regions], by simp [regions], by simp [Indexes], by simp, by simp,
    by simp⟩

/-- The live leases of a partitioned arena take what the free ranges leave. -/
theorem Partitioned.liveBytes (h : m.Partitioned asked) :
    m.sample.liveBytes = (m.liveOrder.map fun lease => lease.span.length).sum ∧
      m.sample.liveBytes + m.sample.freeBytes = m.sample.capacityBytes := by
  have htotal : (m.freeRanges.map Span.length).sum +
      (m.liveOrder.map fun lease => lease.span.length).sum = m.config.reservationCeiling := by
    simpa [regions, comp_def, Span.length] using h.tiles.sum_length
  simp only [sample]
  omega

/-- What a refused request changes: one of the two counters. -/
theorem step_of_leaseRejected {request : LeaseRing} {reason : RingLeaseRejection}
    (h : (m.request (.leaseRing request)).2 = [.ringLeaseRejected request.requestId reason]) :
    m.step (.leaseRing request) =
      { m with allocationFailuresTotal := saturatingAdd m.allocationFailuresTotal 1 } := by
  simp only [step, ArenaManager.request, leaseRing] at h ⊢
  split_ifs at h ⊢ with hdown hlayout hempty
  · rfl
  · rfl
  · rcases heq : m.tryAllocate request with ⟨_ | lease, m'⟩ <;> simp [heq] at h
  · simp at h

theorem step_of_releaseRejected {ringId : ℕ} {proof : Bool} {reason : RingReleaseRejection}
    (h : (m.request (.releaseRing ringId proof)).2 = [.ringReleaseRejected ringId reason]) :
    m.step (.releaseRing ringId proof) =
      { m with releaseFailuresTotal := saturatingAdd m.releaseFailuresTotal 1 } := by
  simp only [step, request, releaseRing] at h ⊢
  split at h
  · rfl
  · split_ifs at h ⊢ with hproof
    · rfl
    · split at h
      · simp at h
      · split_ifs at h <;> simp at h

/-- The arena is partitioned: in every run that does not use up the ring ids, free ranges and
live leases are disjoint and cover the arena, every live lease serves one of the requests, no
ring id is given out twice, the index and the sample agree with the live leases, and a
rejected request changes nothing but a counter. -/
theorem partitioned {config : ArenaConfig} {boot : ArenaManager}
    (hboot : ArenaManager.boot config = .ok boot) (requests : List ArenaRequest)
    (hfair : Guarded Fair step boot requests) :
    let run := collect request boot requests
    let m := run.1
    m.regions.Pairwise (fun s t => Disjoint s.points t.points) ∧
      (∀ x, (∃ s ∈ m.regions, x ∈ s.points) ↔ x < config.reservationCeiling) ∧
      (∀ lease ∈ m.liveOrder, ∃ request, .leaseRing request ∈ requests ∧
        lease.Serves config request) ∧
      (run.2.filterMap leasedId).Nodup ∧
      (∀ ringId lease, m.lookupLease ringId = some lease ↔
        lease ∈ m.liveOrder ∧ lease.ringId = ringId) ∧
      (m.sample.liveBytes = (m.liveOrder.map fun lease => lease.span.length).sum ∧
        m.sample.freeBytes = (m.freeRanges.map Span.length).sum ∧
        m.sample.liveBytes + m.sample.freeBytes = config.reservationCeiling ∧
        m.sample.activeLeases = m.liveOrder.length) ∧
      (∀ request reason,
        (m.request (.leaseRing request)).2 = [.ringLeaseRejected request.requestId reason] →
        m.step (.leaseRing request) =
          { m with allocationFailuresTotal := saturatingAdd m.allocationFailuresTotal 1 }) ∧
      ∀ ringId proof reason,
        (m.request (.releaseRing ringId proof)).2 = [.ringReleaseRejected ringId reason] →
        m.step (.releaseRing ringId proof) =
          { m with releaseFailuresTotal := saturatingAdd m.releaseFailuresTotal 1 } := by
  intro run m
  have hm : m = requests.foldl step boot := collect_fst _ _ _
  have hinv : m.Partitioned (fun request => .leaseRing request ∈ requests) ∧
      m.config = config := by
    rw [hm]
    refine (hfair.and_forall_mem fun r hr => hr).invariant
      (P := fun m => m.Partitioned (fun request => .leaseRing request ∈ requests) ∧
        m.config = config) (fun m r hm hr => ?_) ⟨partitioned_boot hboot, ?_⟩
    · exact ⟨hm.1.step r hr.1 fun request heq => heq ▸ hr.2, (config_step m r).trans hm.2⟩
    · obtain ⟨-, -, rfl⟩ := boot_eq_ok hboot
      rfl
  obtain ⟨hpart, hconfig⟩ := hinv
  have hids : Issues boot run.2 m := issues_sequential.collect issues_request boot requests
  obtain ⟨hlive, htotal⟩ := hpart.liveBytes
  refine ⟨hpart.tiles.pairwise_disjoint, fun x => ?_, ?_, hids.increasing.imp fun hlt => hlt.ne,
    fun ringId lease => ?_, ⟨hlive, rfl, hconfig ▸ htotal, rfl⟩,
    fun _ _ => step_of_leaseRejected, fun _ _ _ => step_of_releaseRejected⟩
  · rw [hpart.tiles.mem_iff, Span.mem_points, hconfig]
    exact ⟨fun h => h.2, fun h => ⟨Nat.zero_le x, h⟩⟩
  · exact hconfig ▸ hpart.served
  · unfold lookupLease
    constructor
    · intro h
      obtain ⟨index, hindex, hlease⟩ := Option.bind_eq_some_iff.mp h
      have hid := (hpart.index ringId index).mp hindex
      rw [hlease] at hid
      exact ⟨mem_of_getElem? hlease, Option.some.inj hid⟩
    · rintro ⟨hmem, rfl⟩
      obtain ⟨index, hindex⟩ := getElem?_of_mem hmem
      have hid : m.liveIndex lease.ringId = some index :=
        (hpart.index _ _).mpr (by rw [hindex, Option.map_some])
      rw [hid, Option.bind_some, hindex]

/-- Two rings are leased, a third request waits until the first ring is released. -/
theorem partitioned_waiting :
    let config : ArenaConfig := ⟨7, 64, 8⟩
    let boot : ArenaManager := { config := config, freeRanges := [⟨0, 64⟩] }
    let requests : List ArenaRequest := [.leaseRing ⟨1, ⟨10, 20, 4⟩⟩, .leaseRing ⟨2, ⟨0, 16, 6⟩⟩,
      .leaseRing ⟨3, ⟨8, 20, 1⟩⟩, .releaseRing 1 true]
    let m := (collect request boot requests).1
    m.liveOrder.map RingLease.span = [⟨48, 64⟩, ⟨0, 28⟩] ∧
      ∀ x, (∃ s ∈ m.regions, x ∈ s.points) ↔ x < 64 := by
  intro config boot requests m
  have hboot : ArenaManager.boot config = .ok boot := rfl
  exact ⟨by decide +kernel, (partitioned hboot requests (by decide +kernel)).2.1⟩

section Exhaustion

/-- An arena of eight bytes, all of them free. -/
def eightFree (nextRingId : ℕ) : ArenaManager :=
  { config := ⟨0, 8, 1⟩, freeRanges := [⟨0, 8⟩], nextRingId := nextRingId }

def eightBytes : LeaseRing := ⟨1, ⟨0, 8, 1⟩⟩

/-- The whole arena is leased and released, again and again. -/
def rounds (n : ℕ) : List ArenaRequest :=
  (List.range n).flatMap fun k => [.leaseRing eightBytes, .releaseRing (k + 1) true]

theorem round_trip {n : ℕ} (h : n < u64Max) :
    ((eightFree n).step (.leaseRing eightBytes)).step (.releaseRing n true) =
      eightFree (n + 1) := by
  have hcarve : (⟨0, 8, 1⟩ : ArenaConfig).carve eightBytes.ringSpec [⟨0, 8⟩] =
      some (⟨0, 0, 0, 8, 8, 1⟩, []) := by decide +kernel
  have hlease : (eightFree n).step (.leaseRing eightBytes) =
      (eightFree n).grant eightBytes ⟨0, 0, 0, 8, 8, 1⟩ [] :=
    congrArg Prod.fst (leaseRing_of_carve rfl rfl h hcarve)
  have hindex : ((eightFree n).grant eightBytes ⟨0, 0, 0, 8, 8, 1⟩ []).liveIndex n = some 0 :=
    update_self _ _ _
  rw [hlease]
  simp only [step, request, releaseRing, hindex]
  rfl

theorem rounds_run {n : ℕ} (h : n < u64Max) :
    (rounds n).foldl step (eightFree 1) = eightFree (n + 1) := by
  induction n with
  | zero => rfl
  | succ n ih =>
    rw [rounds, range_succ, flatMap_append, foldl_append]
    rw [rounds] at ih
    rw [ih (by omega)]
    exact round_trip h

/-- After `2 ^ 64 - 2` leases the next request cuts its range out of the free ones and gets
no lease: no byte of the arena is free or leased any more. -/
theorem exhausted_ids_lose_space :
    let m := (rounds (2 ^ 64 - 2) ++ [ArenaRequest.leaseRing eightBytes]).foldl step (eightFree 1)
    boot ⟨0, 8, 1⟩ = .ok (eightFree 1) ∧ m.regions = [] ∧ m.config.reservationCeiling = 8 := by
  have hrun : (rounds (2 ^ 64 - 2)).foldl step (eightFree 1) = eightFree (2 ^ 64 - 2 + 1) :=
    rounds_run (by decide)
  rw [foldl_append, hrun]
  exact ⟨rfl, by decide +kernel, rfl⟩

end Exhaustion

end ArenaManager

end Swactor.DataPlane
