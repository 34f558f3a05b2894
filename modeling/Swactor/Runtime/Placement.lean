import Swactor.Runtime.Spec

/-!
# Every actor has one place

An address is spawned once and on one worker, its home. While the address map routes
it, its home holds it in exactly one of the queued spawns, the pool and the list of
actors that are being removed; once it is no longer routed it has been removed.
-/
namespace Swactor.Runtime.Spec

open State Function List

variable {W : Type} {budget : ℕ} {gate : Gate}

attribute [local simp] Desk.setSlot

/-- The addresses that a worker holds are the addresses routed to it. -/
structure DeskPlaced (route : ActorAddress → Option W) (w : W) (d : Desk) : Prop where
  held : ∀ a, route a = some w ↔ (d.pool a).isSome = true ∨ a ∈ d.spawns ∨ a ∈ d.dying
  nodup : (d.spawns ++ d.dying).Nodup
  absent : ∀ a, a ∈ d.spawns ++ d.dying → d.pool a = none

structure Placed (s : State W) : Prop where
  home : ∀ {a w v}, .spawned a w ∈ s.trace → .spawned a v ∈ s.trace → w = v
  routed : ∀ {a w}, s.route a = some w → .spawned a w ∈ s.trace
  gone : ∀ {a w}, .spawned a w ∈ s.trace → s.route a = some w ∨ .removed a w ∈ s.trace
  removed : ∀ {a w}, .removed a w ∈ s.trace →
    .spawned a w ∈ s.trace ∧ (s.route a = none ∨ a ∈ (s.desk w).dying)
  reaped : ∀ {a w}, a ∈ (s.desk w).dying → .removed a w ∈ s.trace
  desk : ∀ w, DeskPlaced s.route w (s.desk w)

/-- Nothing is spawned, installed or removed. -/
structure SameActors (d d' : Desk) : Prop where
  pool : ∀ a, (d'.pool a).isSome = (d.pool a).isSome
  spawns : d'.spawns = d.spawns
  dying : d'.dying = d.dying

/-- The event does not move an actor. -/
def Event.still : Event W → Bool
  | .spawned _ _ => false
  | .removed _ _ => false
  | _ => true

attribute [local simp] Event.still

variable {route : ActorAddress → Option W} {w : W} {d d' : Desk} {a : ActorAddress} {x y : Slot}
  {es : List (Event W)} {rest : List ActorAddress}

theorem DeskPlaced.of_sameActors (h : DeskPlaced route w d) (hsame : SameActors d d') :
    DeskPlaced route w d' := by
  refine ⟨fun a => ?_, ?_, fun a ha => ?_⟩
  · rw [hsame.pool, hsame.spawns, hsame.dying]
    exact h.held a
  · rw [hsame.spawns, hsame.dying]
    exact h.nodup
  · rw [hsame.spawns, hsame.dying] at ha
    have hnone := hsame.pool a
    rw [h.absent a ha] at hnone
    simpa using hnone

theorem sameActors_setSlot (hx : d.pool a = some x) : SameActors d (d.setSlot a y) := by
  refine ⟨fun b => ?_, rfl, rfl⟩
  by_cases hb : b = a
  · subst hb
    simp [hx]
  · simp [update_of_ne hb]

theorem setSlot_eq_some {b : ActorAddress} {z : Slot} (h : (d.setSlot a y).pool b = some z) :
    b = a ∧ y = z ∨ b ≠ a ∧ d.pool b = some z := by
  by_cases hb : b = a
  · subst hb
    exact Or.inl ⟨rfl, by simpa using h⟩
  · exact Or.inr ⟨hb, by simpa [update_of_ne hb] using h⟩

theorem isSome_setSlot {b : ActorAddress} (h : (d.pool b).isSome = true) :
    ((d.setSlot a y).pool b).isSome = true := by
  by_cases hb : b = a
  · simp [hb]
  · simpa [update_of_ne hb] using h

theorem Placing.sameActors {here : ActorAddress → Prop} {e : Envelope}
    (h : Placing here e d es d') : SameActors d d' := by
  cases h with
  | deliver hx _ => exact sameActors_setSlot hx
  | defer hx hhere | drop hx hhere => exact ⟨fun _ => rfl, rfl, rfl⟩

theorem still_discards (a : ActorAddress) (ps : List Payload) :
    ∀ e ∈ (discards a ps : List (Event W)), Event.still e = true := by
  intro e he
  obtain ⟨m, rfl⟩ := eq_discarded_of_mem he
  rfl

theorem SlotStep.still (h : SlotStep a x es y) : ∀ e ∈ es, Event.still e = true := by
  cases h with
  | start => simp
  | take typed => cases typed <;> simp
  | halt cause | poison => simpa using still_discards a x.mailbox
  | clear => exact still_discards a x.mailbox

theorem Delivery.still {msg : Payload} (h : Delivery a msg x es y) :
    ∀ e ∈ es, Event.still e = true := by
  cases h with
  | push => cases msg <;> simp [arrivals]
  | resume => simp
  | halt => simpa using still_discards a x.mailbox

theorem Placing.still {here : ActorAddress → Prop} {e : Envelope} (h : Placing here e d es d') :
    ∀ ev ∈ es, Event.still ev = true := by
  cases h with
  | deliver hx hd => exact hd.still
  | defer => simp
  | drop => exact still_discards _ _

theorem DeskPlaced.install (h : DeskPlaced route w d) (hspawns : d.spawns = a :: rest) :
    DeskPlaced route w { d.setSlot a {} with spawns := rest } := by
  have hnodup := h.nodup
  rw [hspawns, cons_append, nodup_cons] at hnodup
  refine ⟨fun b => ?_, hnodup.2, fun b hb => ?_⟩
  · rw [h.held b, hspawns]
    by_cases hb : b = a
    · subst hb
      simp
    · simp [hb]
  · have hne : b ≠ a := by
      rintro rfl
      exact hnodup.1 hb
    have hmem : b ∈ d.spawns ++ d.dying := by
      rw [hspawns]
      exact mem_cons_of_mem a hb
    simpa [update_of_ne hne] using h.absent b hmem

theorem DeskPlaced.reap (h : DeskPlaced route w d) (hx : d.pool a = some x) :
    DeskPlaced route w
      { d with pool := update d.pool a none, dying := d.dying ++ [a] } := by
  have hfree : a ∉ d.spawns ++ d.dying := fun hmem => by
    rw [h.absent a hmem] at hx
    cases hx
  refine ⟨fun b => ?_, ?_, fun b hb => ?_⟩
  · rw [h.held b]
    by_cases hb : b = a
    · subst hb
      simp [hx]
    · simp [hb]
  · rw [← append_assoc, nodup_append]
    refine ⟨h.nodup, nodup_singleton a, fun b hb c hc hbc => ?_⟩
    rw [mem_singleton] at hc
    subst hbc hc
    exact hfree hb
  · by_cases hba : b = a
    · subst hba
      simp
    · have hmem : b ∈ d.spawns ++ d.dying := by
        simpa [hba] using hb
      simpa [update_of_ne hba] using h.absent b hmem

/-- A route that changes at one address only concerns the worker that holds it. -/
theorem DeskPlaced.reroute {v : W} {target : Option W} (h : DeskPlaced route v d)
    (hold : route a ≠ some v) (hnew : target ≠ some v) :
    DeskPlaced (update route a target) v d := by
  refine ⟨fun b => ?_, h.nodup, h.absent⟩
  by_cases hb : b = a
  · subst hb
    rw [update_self]
    exact ⟨fun hr => absurd hr hnew, fun hr => absurd ((h.held b).mpr hr) hold⟩
  · rw [update_of_ne hb]
    exact h.held b

/-- The worker that takes a spawn request is where the route points. -/
theorem DeskPlaced.spawn (h : DeskPlaced route w d) (hnone : route a = none) :
    DeskPlaced (update route a (some w)) w { d with spawns := d.spawns ++ [a] } := by
  have hheld : ¬(d.pool a).isSome = true ∧ a ∉ d.spawns ∧ a ∉ d.dying := by
    simpa [hnone, not_or] using h.held a
  have hlist : a ∉ d.spawns ++ d.dying := by simpa using hheld.2
  refine ⟨fun b => ?_, ?_, fun b hb => ?_⟩
  · by_cases hba : b = a
    · subst hba
      simp
    · simpa [hba] using h.held b
  · have hperm : (d.spawns ++ [a] ++ d.dying).Perm (a :: (d.spawns ++ d.dying)) := by simp
    exact hperm.nodup_iff.mpr (nodup_cons.mpr ⟨hlist, h.nodup⟩)
  · by_cases hba : b = a
    · subst hba
      simpa using hheld.1
    · exact h.absent b (by simpa [hba] using hb)

/-- An actor whose route is removed was the next one to go. -/
theorem DeskPlaced.unmap (h : DeskPlaced route w d) (hdying : d.dying = a :: rest) :
    DeskPlaced (update route a none) w { d with dying := rest } := by
  have hnodup := h.nodup
  rw [hdying] at hnodup
  obtain ⟨hfree, hrest⟩ := nodup_cons.mp (perm_middle.nodup_iff.mp hnodup)
  have hpool : d.pool a = none := h.absent a (by simp [hdying])
  refine ⟨fun b => ?_, hrest, fun b hb => h.absent b ?_⟩
  · by_cases hba : b = a
    · subst hba
      have hno : b ∉ d.spawns ∧ b ∉ rest := by simpa using hfree
      simp [hpool, hno]
    · simpa [hba, hdying] using h.held b
  · rw [hdying]
    rcases mem_append.mp hb with hb | hb
    · exact mem_append_left _ hb
    · exact mem_append_right _ (mem_cons_of_mem a hb)

variable {s : State W}

theorem Placed.accept (h : Placed s) (sender : Sender) (dest : ActorAddress) :
    Placed (s.accept sender dest) := by
  have hmem : ∀ e : Event W, Event.still e = false →
      (e ∈ (s.accept sender dest).trace ↔ e ∈ s.trace) := by
    intro e he
    simp only [State.accept, mem_append, mem_singleton, or_iff_left_iff_imp]
    rintro rfl
    cases he
  refine ⟨fun ha hb => ?_, fun hr => ?_, fun ha => ?_, fun ha => ?_, fun ha => ?_, h.desk⟩
  · exact h.home ((hmem _ rfl).mp ha) ((hmem _ rfl).mp hb)
  · exact (hmem _ rfl).mpr (h.routed hr)
  · rw [hmem _ rfl]
    exact h.gone ((hmem _ rfl).mp ha)
  · rw [hmem _ rfl]
    exact h.removed ((hmem _ rfl).mp ha)
  · exact (hmem _ rfl).mpr (h.reaped ha)

theorem placed_init : Placed ({} : State W) :=
  ⟨by simp, by simp, by simp, by simp, by simp, fun _ => ⟨by simp, nodup_nil, fun _ _ => rfl⟩⟩

/-- Of the events of a removal only the first one moves an actor. -/
theorem eq_removed_of_mem_reap {e : Event W} (he : e ∈ .removed a w :: discards a x.mailbox ++
      if isOnStopEligible x.stopping x.poisoned then [.stopCalled a] else [])
    (hmoves : Event.still e = false) : e = .removed a w := by
  rcases mem_append.mp he with he | he
  · refine (mem_cons.mp he).resolve_right fun he => ?_
    rw [still_discards a x.mailbox e he] at hmoves
    cases hmoves
  · split_ifs at he
    · rw [mem_singleton.mp he] at hmoves
      cases hmoves
    · exact absurd he not_mem_nil

variable [DecidableEq W]

theorem State.put_desk_self (s : State W) (w : W) (d : Desk) (es : List (Event W)) :
    (s.put w d es).desk w = d := by
  simp [put]

theorem State.put_desk_cases (s : State W) (w : W) (d : Desk) (es : List (Event W)) (v : W) :
    v = w ∧ (s.put w d es).desk v = d ∨ v ≠ w ∧ (s.put w d es).desk v = s.desk v := by
  by_cases hv : v = w
  · subst hv
    exact Or.inl ⟨rfl, s.put_desk_self v d es⟩
  · exact Or.inr ⟨hv, by simp [put, update_of_ne hv]⟩

section

variable (h : Placed s)
include h

/-- One worker changes, and with it the route of actors that it gets or gives up. -/
theorem Placed.change (hd : DeskPlaced route w d)
    (hothers : ∀ v, v ≠ w → DeskPlaced route v (s.desk v))
    (hspawned : ∀ b v, .spawned b v ∈ es →
      v = w ∧ route b = some w ∧ ∀ u, .spawned b u ∉ s.trace)
    (hrouted : ∀ b v, route b = some v → s.route b = some v ∨ .spawned b v ∈ es)
    (hgone : ∀ b v, s.route b = some v → route b = some v ∨ .removed b v ∈ s.trace)
    (hremoved : ∀ b v, .removed b v ∈ es → v = w ∧ .spawned b w ∈ s.trace ∧ b ∈ d.dying)
    (hkeep : ∀ b ∈ (s.desk w).dying, route b = none ∨ b ∈ d.dying)
    (hreaped : ∀ b ∈ d.dying, b ∈ (s.desk w).dying ∨ .removed b w ∈ es) :
    Placed { s.put w d es with route := route } := by
  have hold : ∀ e ∈ s.trace, e ∈ s.trace ++ es := fun e he => mem_append_left es he
  refine ⟨fun {b v u} hv hu => ?_, fun {b v} hr => ?_, fun {b v} hb => ?_, fun {b v} hb => ?_,
    fun {b v} hb => ?_, fun v => ?_⟩
  · rcases mem_append.mp hv with hv | hv <;> rcases mem_append.mp hu with hu | hu
    · exact h.home hv hu
    · exact absurd hv ((hspawned b u hu).2.2 v)
    · exact absurd hu ((hspawned b v hv).2.2 u)
    · exact (hspawned b v hv).1.trans (hspawned b u hu).1.symm
  · exact mem_append.mpr ((hrouted b v hr).imp_left h.routed)
  · rcases mem_append.mp hb with hb | hb
    · rcases h.gone hb with hr | hr
      · exact (hgone b v hr).imp_right (hold _)
      · exact Or.inr (hold _ hr)
    · obtain ⟨rfl, hr, -⟩ := hspawned b v hb
      exact Or.inl hr
  · rcases mem_append.mp hb with hb | hb
    · obtain ⟨hhome, hwhere⟩ := h.removed hb
      refine ⟨hold _ hhome, ?_⟩
      rcases hwhere with hnone | hdying
      · refine Or.inl (Option.eq_none_iff_forall_ne_some.mpr fun u hr => ?_)
        rcases hrouted b u hr with hr | hr
        · simp [hnone] at hr
        · exact (hspawned b u hr).2.2 v hhome
      · dsimp only
        obtain ⟨rfl, hv⟩ | ⟨-, hv⟩ := s.put_desk_cases w d es v <;> rw [hv]
        · exact hkeep b hdying
        · exact Or.inr hdying
    · obtain ⟨rfl, hhome, hdying⟩ := hremoved b v hb
      exact ⟨hold _ hhome, Or.inr (by simpa [State.put] using hdying)⟩
  · dsimp only at hb
    obtain ⟨rfl, hv⟩ | ⟨-, hv⟩ := s.put_desk_cases w d es v <;> rw [hv] at hb
    · exact mem_append.mpr ((hreaped b hb).imp_left h.reaped)
    · exact hold _ (h.reaped hb)
  · dsimp only
    obtain ⟨rfl, hv⟩ | ⟨hne, hv⟩ := s.put_desk_cases w d es v <;> rw [hv]
    · exact hd
    · exact hothers v hne

/-- One worker changes; the addresses routed to it stay the same. -/
theorem Placed.put (hd : DeskPlaced s.route w d) (hspawned : ∀ a v, .spawned a v ∉ es)
    (hremoved : ∀ a v, .removed a v ∈ es → v = w ∧ .spawned a w ∈ s.trace)
    (hdying : ∀ a, a ∈ d.dying ↔ a ∈ (s.desk w).dying ∨ .removed a w ∈ es) :
    Placed (s.put w d es) := by
  refine h.change hd (fun v _ => h.desk v) (fun b v hb => absurd hb (hspawned b v))
    (fun _ _ => Or.inl) (fun _ _ => Or.inl) (fun b v hb => ?_)
    (fun b hb => Or.inr ((hdying b).mpr (Or.inl hb))) fun b => (hdying b).mp
  obtain ⟨rfl, hhome⟩ := hremoved b v hb
  exact ⟨rfl, hhome, (hdying b).mpr (Or.inr hb)⟩

/-- One worker changes without moving an actor. -/
theorem Placed.put_still (hsame : SameActors (s.desk w) d) (hes : ∀ e ∈ es, Event.still e = true) :
    Placed (s.put w d es) := by
  have hremoved : ∀ a v, .removed a v ∉ es := fun a v hmem =>
    absurd (hes _ hmem) Bool.false_ne_true
  refine h.put ((h.desk w).of_sameActors hsame) (fun a v hmem => ?_) (fun a v hmem => ?_)
    fun a => ?_
  · exact absurd (hes _ hmem) Bool.false_ne_true
  · exact absurd hmem (hremoved a v)
  · rw [hsame.dying]
    simp [hremoved a w]

theorem Placed.spawn (hfresh : ∀ v, .spawned a v ∉ s.trace) :
    Placed { s.put w { s.desk w with spawns := (s.desk w).spawns ++ [a] } [.spawned a w] with
      route := update s.route a (some w) } := by
  have hnone : s.route a = none :=
    Option.eq_none_iff_forall_ne_some.mpr fun v hr => hfresh v (h.routed hr)
  refine h.change ((h.desk w).spawn hnone)
    (fun v hv => (h.desk v).reroute (by simp [hnone]) fun hw => hv (by simpa using hw.symm))
    (fun b v hb => ?_) (fun b v hr => ?_) (fun b v hr => ?_) (by simp) (fun _ => Or.inr)
    fun _ => Or.inl
  · obtain ⟨rfl, rfl⟩ : b = a ∧ v = w := by simpa using hb
    exact ⟨rfl, by simp, hfresh⟩
  · by_cases hba : b = a
    · subst hba
      obtain rfl : w = v := by simpa using hr
      simp
    · exact Or.inl (by simpa [hba] using hr)
  · have hba : b ≠ a := fun hba => hfresh v (hba ▸ h.routed hr)
    exact Or.inl (by simpa [hba] using hr)

theorem Placed.unmap (hdying : (s.desk w).dying = a :: rest) :
    Placed { s.put w { s.desk w with dying := rest } [] with
      route := update s.route a none } := by
  have hmem : a ∈ (s.desk w).dying := by simp [hdying]
  have hroute : s.route a = some w := ((h.desk w).held a).mpr (Or.inr (Or.inr hmem))
  refine h.change ((h.desk w).unmap hdying)
    (fun v hv => (h.desk v).reroute (fun hr => hv (by simpa [hroute] using hr.symm)) (by simp))
    (by simp) (fun b v hr => ?_) (fun b v hr => ?_) (by simp) (fun b hb => ?_)
    fun b hb => Or.inl (hdying ▸ mem_cons_of_mem a hb)
  · have hba : b ≠ a := by
      rintro rfl
      simp at hr
    exact Or.inl (by simpa [hba] using hr)
  · by_cases hba : b = a
    · subst hba
      obtain rfl : w = v := by simpa [hroute] using hr
      exact Or.inr (h.reaped hmem)
    · exact Or.inl (by simpa [hba] using hr)
  · by_cases hba : b = a
    · exact Or.inl (by simp [hba])
    · exact Or.inr (by simpa [hdying, hba] using hb)

theorem DeskStep.placed
    (hstep : DeskStep budget gate (fun a => s.route a = some w) w (s.desk w) es d) :
    Placed (s.put w d es) := by
  have hnil : ∀ e ∈ ([] : List (Event W)), Event.still e = true := by simp
  cases hstep with
  | slot hx hslot => exact h.put_still (sameActors_setSlot hx) hslot.still
  | install hdrain hspawns =>
    exact h.put ((h.desk w).install hspawns) (by simp) (by simp) (by simp)
  | enterDrain | leaveDeferred | leaveTransfers => exact h.put_still ⟨fun _ => rfl, rfl, rfl⟩ hnil
  | drainDeferred hdrain hbudget hqueue hplace | drainTransfers hdrain hbudget hqueue hplace
  | drainPending hdrain hqueue hgate hplace =>
    obtain ⟨hpool, hspawns, hdying⟩ := hplace.sameActors
    exact h.put_still ⟨hpool, hspawns, hdying⟩ hplace.still
  | @reap a x hdrain hx hdead =>
    refine h.put ((h.desk w).reap hx) (fun b v hmem => ?_) (fun b v hmem => ?_) fun b => ?_
    · cases eq_removed_of_mem_reap hmem rfl
    · cases eq_removed_of_mem_reap hmem rfl
      exact ⟨rfl, h.routed (((h.desk w).held a).mpr (Or.inl (by simp [hx])))⟩
    · rw [mem_append, mem_singleton]
      refine or_congr_right ⟨fun hb => by simp [hb], fun hmem => ?_⟩
      cases eq_removed_of_mem_reap hmem rfl
      rfl

theorem Step.placed {s' : State W} (hstep : Step budget gate s s') : Placed s' := by
  have hnil : ∀ e ∈ ([] : List (Event W)), Event.still e = true := by simp
  cases hstep with
  | desk w hd => exact hd.placed h
  | spawn w a hfresh => exact h.spawn hfresh
  | unmap w hdying => exact h.unmap hdying
  | post w sender hroute hsender =>
    exact (h.accept _ _).put_still ⟨fun _ => rfl, rfl, rfl⟩ hnil
  | stage w hroute hsender => exact (h.accept _ _).put_still ⟨fun _ => rfl, rfl, rfl⟩ hnil
  | signalTransfer w he | signalPending w he => exact h.put_still ⟨fun _ => rfl, rfl, rfl⟩ hnil
  | inject w hx => exact (h.accept _ _).put_still (sameActors_setSlot hx) (by simp)

end

end Swactor.Runtime.Spec
