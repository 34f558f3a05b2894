import Swactor.Namespace.Displacements

/-!
# What a replacement fence guards

A fence stands at its path until both ends of the generation that was displaced have
acknowledged: an end that has not is awaited and named by the fence. While it stands, the opens of
the path are held, or answered from the old generation. The node of the path keeps the revision of
that generation in memory and in the file, and no other generation with this revision is to be
acknowledged; this is what the fence is rebuilt from.
-/
namespace Swactor.Namespace

open DataDirectory NamespaceSnapshot Maps List
open Std (ExtTreeMap)

variable {owner : ActorAddress → OperationId} {acked : ActorAddress → StreamIncarnation → Prop}
  {ended known : DataPath → StreamMatch → Prop} {scope scope' : Scope} {d d' : DataDirectory}
  {next : NamespaceSnapshot}

section Sound

/-- The scope in which no open is made and no stream has left its path. -/
def Scope.idle : Scope := ⟨.retryRetirements, fun _ => False, fun _ => False⟩

theorem Sound.rescope (h : Sound owner scope d)
    (hgone : ∀ active, scope'.gone active → d.Fresh active.binding.incarnation) :
    Sound owner scope' d :=
  { h with gone := hgone }

/-- Outside the handlers no stream has left its path. -/
theorem Sound.gentle (h : Sound owner .idle d) (hgentle : scope.Gentle owner)
    (hmove : Move scope d d') : Sound owner .idle d' := by
  have hstart : Sound owner scope d := h.rescope fun active hleft =>
    absurd hleft (hgentle.gone active)
  exact (hstart.move hgentle.own hmove).rescope fun _ => False.elim

theorem Sound.lifted (h : Sound owner scope d) (path : DataPath) :
    Sound owner scope (d.liftedFence path) := by
  refine h.frame (stable_consistent.lift path h.consistent) .rfl
    (.of_streams rfl le_rfl fun _ _ => id) exists_same_entry h.memory h.file ?_
  exact fun known fence hfence => h.held known fence (getElem?_erase_eq_some.mp hfence).2

theorem Sound.liftFence (h : Sound owner scope d) (path : DataPath) :
    Sound owner scope (d.liftFence path) := by
  let own : Scope := ⟨scope.message, Owned owner, scope.gone⟩
  have hmoves : Moves (own.at path) (d.liftedFence path) (d.liftFence path) :=
    moves_liftFence path h.held
  have hlifted : Sound owner (own.at path) (d.liftedFence path) := (h.lifted path).rescope h.gone
  have hopened := hlifted.moves (fun _ hown => hown.2) hmoves
  exact hopened.rescope hopened.gone

theorem Sound.resume (h : Sound owner scope d) :
    Sound owner scope d.resumeStreamReplacementFences :=
  foldlRecOn _ _ h fun _ hd path _ => hd.liftFence path

variable {message : DataDirectoryIn}

theorem Sound.confirms (h : Sound owner scope d) (hconfirms : Confirms message d d') :
    Sound owner scope d' := by
  have hconsistent := stable_consistent.confirm hconfirms h.consistent
  obtain rfl | ⟨endpoint, incarnation, acknowledged, -, -, rfl⟩ := hconfirms
  · exact h
  · exact h.frame hconsistent .rfl
      (.of_streams rfl le_rfl fun _ _ => id) exists_same_entry h.memory h.file h.held

theorem Sound.rebind (h : Sound owner scope d) (hrebind : Rebind message d next d')
    (fates : List CommitFate) : Sound owner scope { d' with store := ⟨next, next, fates⟩ } := by
  have hconsistent := stable_consistent.rebind fates hrebind h.consistent
  have hretirements : ∀ entry ∈ next.streamRetirements, d.Fresh entry.2 := by
    rw [hrebind.streamRetirements]
    exact h.memory
  have hextends := hrebind.extends
  have hnext := hrebind.nextRevision_le
  have hstreams : ∀ (path : DataPath) (entry : RuntimeStream), d'.streams[path]? = some entry →
      d.streams[path]? = some entry := by
    intro path entry hentry
    cases hrebind with
    | registered => exact (getElem?_erase_eq_some.mp hentry).2
    | unregistered | renamed => exact hentry
  have hheld : d'.HeldOwn (Owned owner) := by
    cases hrebind <;> exact h.held
  have hepoch : d'.authorityEpoch = d.authorityEpoch := by
    cases hrebind <;> rfl
  exact h.frame hconsistent hextends (.of_streams hepoch hnext hstreams)
    (fun path entry hentry => exists_same_entry path entry (hstreams path entry hentry))
    hretirements hretirements hheld

theorem Sound.refuse {d₁ d₂ : DataDirectory} (h : Sound owner scope d)
    (hrebind : Rebind message d₁ next d₂) (hstore : d₁.store = d.store) (fates : List CommitFate) :
    Sound owner scope { d with store := ⟨next, d.snapshot, fates⟩ } := by
  refine h.frame (stable_consistent.refuse fates hrebind hstore h.consistent)
    .rfl (.of_streams rfl le_rfl fun _ _ => id) exists_same_entry
    h.memory ?_ h.held
  have hsame : next.streamRetirements = d.snapshot.streamRetirements := by
    rw [hrebind.streamRetirements, snapshot, hstore]
  rw [hsame]
  exact h.memory

/-- As a message begins to be handled. -/
theorem Sound.begin (h : Sound owner .idle d) (m : DataDirectoryIn)
    (own : StreamOpenRequest → Prop) : Sound owner (d.scope m own) d := by
  refine h.rescope ?_
  rintro active ⟨_, registration, _, -, hactive⟩
  exact h.fresh hactive

theorem Sound.handle (h : Sound owner .idle d) (env : Surroundings) (m : DataDirectoryIn)
    (hown : ∀ request, m = .openStream request → Owned owner request) :
    Sound owner .idle (d.handle env m) := by
  have hstart := h.begin m (Owned owner)
  have hhandled := handled_handle (d := d) env m (Owned owner) hown
  have hend : Sound owner (d.scope m (Owned owner)) (d.handle env m) := by
    have hmoves {d₁ d₂ : DataDirectory} (hd : Sound owner (d.scope m (Owned owner)) d₁)
        (hmoves : Moves (d.scope m (Owned owner)) d₁ d₂) :
        Sound owner (d.scope m (Owned owner)) d₂ := hd.moves (fun _ => id) hmoves
    generalize d.handle env m = d' at hhandled
    cases hhandled with
    | moved hmoved => exact hmoves hstart hmoved
    | resumed hconfirms hbefore hafter =>
      exact hmoves (hmoves (hstart.confirms hconfirms) hbefore).resume hafter
    | rebound fates hbefore hrebind hafter =>
      exact hmoves ((hmoves hstart hbefore).rebind hrebind fates) hafter
    | refused fates target out hrebind hstore =>
      exact hmoves (hstart.refuse hrebind hstore fates) (.single (.said (.reply target out) nofun))
  exact hend.rescope fun _ => False.elim

theorem Rebind.later (h : Rebind message d next d') (fates : List CommitFate) :
    Later d { d' with store := ⟨next, next, fates⟩ } := by
  have hnext := h.nextRevision_le
  cases h with
  | registered =>
    exact .of_streams rfl hnext fun _ _ hentry => (getElem?_erase_eq_some.mp hentry).2
  | unregistered | renamed => exact .of_streams rfl hnext fun _ _ => id

end Sound

section Waits

/-- Both ends of the generation have acknowledged. -/
def Released (acked : ActorAddress → StreamIncarnation → Prop) (binding : StreamMatch) : Prop :=
  ∀ endpoint, endpoint = binding.source ∨ endpoint = binding.sink →
    acked endpoint binding.incarnation

/-- A fence for the generation stands at the path and waits for the ends that have not
acknowledged. -/
def Guards (acked : ActorAddress → StreamIncarnation → Prop) (path : DataPath)
    (binding : StreamMatch) (d : DataDirectory) : Prop :=
  ∃ fence, d.streamReplacementFences[path]? = some fence ∧
    fence.incarnation = binding.incarnation ∧
    (∀ old, fence.old = some old → old.binding = binding) ∧
    ∀ endpoint, endpoint = binding.source ∨ endpoint = binding.sink →
      acked endpoint binding.incarnation ∨
        endpoint ∈ fence.endpoints ∧ d.Awaits endpoint binding.incarnation

/-- No other generation of this revision is to be acknowledged, and if `marked`, the node of the
path has the revision. -/
structure Carries (path : DataPath) (incarnation : StreamIncarnation) (marked : Prop)
    (snapshot : NamespaceSnapshot) : Prop where
  node : marked → snapshot.streamNodes[path]? = some incarnation.revision
  alone : ∀ entry ∈ snapshot.streamRetirements, entry.2.revision = incarnation.revision →
    entry.2 = incarnation

/-- What the directory and its file have of a generation that is replaced. If `marked`, the path
still has the node of the generation; if `quiet`, no match of another generation has been sent for
the path. -/
structure Stands (acked : ActorAddress → StreamIncarnation → Prop) (path : DataPath)
    (binding : StreamMatch) (marked quiet : Prop) (d : DataDirectory) : Prop where
  guards : Guards acked path binding d
  past : binding.incarnation.revision < d.snapshot.nextRevision
  unused : ∀ (known : DataPath) (entry : RuntimeStream), d.streams[known]? = some entry →
    entry.revision ≠ binding.incarnation.revision
  memory : Carries path binding.incarnation marked d.snapshot
  file : Carries path binding.incarnation marked d.store.file
  sent : quiet → ∀ opening target requestId epoch other,
    .opened opening target requestId epoch (.ok other) ∈ d.sent → opening.path = path →
      other.incarnation = binding.incarnation

/-- The replacement of a generation between two messages. -/
structure Waits (owner : ActorAddress → OperationId)
    (acked : ActorAddress → StreamIncarnation → Prop) (path : DataPath) (binding : StreamMatch)
    (marked quiet : Prop) (d : DataDirectory) : Prop
    extends Stands acked path binding marked quiet d where
  tracked : Tracked owner acked (fun _ _ => True) (fun _ _ => False) d
  sound : Sound owner .idle d

/-- The streams that have left their paths, and those that an open can displace, are of other
generations, and none of their ends is awaited for this one. -/
structure Clears (scope : Scope) (binding : StreamMatch) (d : DataDirectory) : Prop where
  revision : ∀ active, scope.gone active →
    active.binding.incarnation.revision ≠ binding.incarnation.revision
  gone : ∀ active, scope.gone active → ∀ endpoint ∈ active.endpoints,
    ¬d.Awaits endpoint binding.incarnation
  fenced : ∀ (request : StreamOpenRequest) (active : ActiveStream), scope.own request →
    d.streams[request.path]? = some (.active active) → ∀ endpoint ∈ active.endpoints,
      ¬d.Awaits endpoint binding.incarnation

/-- A part of a handler that leaves the fences alone. -/
structure Beside (path : DataPath) (incarnation : StreamIncarnation) (marked : Prop)
    (d d' : DataDirectory) : Prop where
  fences : d'.streamReplacementFences = d.streamReplacementFences
  awaits : ∀ endpoint, d.Awaits endpoint incarnation → d'.Awaits endpoint incarnation
  carries : Carries path incarnation marked d.snapshot →
    Carries path incarnation marked d.store.file →
      Carries path incarnation marked d'.snapshot ∧ Carries path incarnation marked d'.store.file
  sent : ∀ opening target requestId epoch other,
    .opened opening target requestId epoch (.ok other) ∈ d'.sent →
      .opened opening target requestId epoch (.ok other) ∈ d.sent

variable {path : DataPath} {binding : StreamMatch} {marked quiet : Prop}

theorem Guards.frame (h : Guards acked path binding d)
    (hfence : d'.streamReplacementFences[path]? = d.streamReplacementFences[path]?)
    (hawaits : ∀ endpoint, endpoint = binding.source ∨ endpoint = binding.sink →
      d.Awaits endpoint binding.incarnation → acked endpoint binding.incarnation ∨
        d'.Awaits endpoint binding.incarnation) : Guards acked path binding d' := by
  obtain ⟨fence, hknown, hincarnation, hold, hends⟩ := h
  refine ⟨fence, hfence.trans hknown, hincarnation, hold, fun endpoint hend => ?_⟩
  rcases hends endpoint hend with hacked | ⟨hmem, hawaited⟩
  · exact .inl hacked
  · exact (hawaits endpoint hend hawaited).imp_right fun hawaits => ⟨hmem, hawaits⟩

/-- The fence holds other requests. -/
theorem Guards.hold (h : Guards acked path binding d) {known : DataPath}
    {fence : StreamReplacementFence} (hfence : d.streamReplacementFences[known]? = some fence)
    (requests : List StreamOpenRequest) :
    Guards acked path binding { d with
      streamReplacementFences := d.streamReplacementFences.insert known
        { fence with requests := requests } } := by
  by_cases hsame : known = path
  · subst hsame
    obtain ⟨found, hfound, hincarnation, hold, hends⟩ := h
    obtain rfl : fence = found := by simpa [hfence] using hfound
    exact ⟨{ fence with requests := requests }, getElem?_insert_eq_some.mpr (.inl ⟨rfl, rfl⟩),
      hincarnation, hold, hends⟩
  · refine h.frame ?_ fun _ _ => .inr
    rw [getElem?_insert_ite, if_neg hsame]

variable {incarnation : StreamIncarnation}

theorem Carries.congr {snapshot : NamespaceSnapshot}
    (h : Carries path incarnation marked snapshot)
    (hnode : marked → next.streamNodes[path]? = snapshot.streamNodes[path]?)
    (hretirements : ∀ entry ∈ next.streamRetirements, entry ∈ snapshot.streamRetirements ∨
      entry.2.revision ≠ incarnation.revision) :
    Carries path incarnation marked next := by
  refine ⟨fun hmarked => (hnode hmarked).trans (h.node hmarked), fun entry hentry hrevision => ?_⟩
  rcases hretirements entry hentry with hold | hother
  · exact h.alone entry hold hrevision
  · exact absurd hrevision hother

section Stands

variable (h : Stands acked path binding marked quiet d)

include h

theorem Stands.fence_ne_none : d.streamReplacementFences[path]? ≠ none := by
  obtain ⟨fence, hfence, -⟩ := h.guards
  rw [hfence]
  exact nofun

theorem Stands.unused_later (hlater : Later d d') (known : DataPath) (entry : RuntimeStream)
    (hentry : d'.streams[known]? = some entry) : entry.revision ≠ binding.incarnation.revision := by
  have hpast := h.past
  rcases hlater.entries known entry hentry with ⟨before, old, hold, hsame⟩ | hnew
  · rw [← hsame]
    exact h.unused before old hold
  · omega

/-- The fence of the path and the sent matches are as they were. -/
theorem Stands.frame (hlater : Later d d')
    (hfence : d'.streamReplacementFences[path]? = d.streamReplacementFences[path]?)
    (hawaits : ∀ endpoint, endpoint = binding.source ∨ endpoint = binding.sink →
      d.Awaits endpoint binding.incarnation → acked endpoint binding.incarnation ∨
        d'.Awaits endpoint binding.incarnation)
    (hmemory : Carries path binding.incarnation marked d'.snapshot)
    (hfile : Carries path binding.incarnation marked d'.store.file)
    (hsent : ∀ opening target requestId epoch other,
      .opened opening target requestId epoch (.ok other) ∈ d'.sent →
        .opened opening target requestId epoch (.ok other) ∈ d.sent ∨ opening.path ≠ path) :
    Stands acked path binding marked quiet d' := by
  refine ⟨h.guards.frame hfence hawaits, h.past.trans_le hlater.next, h.unused_later hlater,
    hmemory, hfile, ?_⟩
  intro hquiet opening target requestId epoch other hmem hpath
  exact h.sent hquiet _ _ _ _ _ ((hsent _ _ _ _ _ hmem).resolve_right (not_not.mpr hpath)) hpath

theorem Stands.beside (hlater : Later d d')
    (hbeside : Beside path binding.incarnation marked d d') :
    Stands acked path binding marked quiet d' := by
  obtain ⟨hmemory, hfile⟩ := hbeside.carries h.memory h.file
  exact h.frame hlater (by rw [hbeside.fences])
    (fun endpoint _ hawaits => .inr (hbeside.awaits endpoint hawaits)) hmemory hfile
    fun _ _ _ _ _ hmem => .inl (hbeside.sent _ _ _ _ _ hmem)

theorem Stands.said {message : Sent} (hother : ∀ opening target requestId epoch binding,
      message ≠ .opened opening target requestId epoch (.ok binding)) :
    Stands acked path binding marked quiet (d.send message) := by
  refine h.beside (.of_streams rfl le_rfl fun _ _ => id)
    ⟨rfl, fun _ => id, .intro, fun opening target requestId epoch other hmem => ?_⟩
  rcases mem_append.mp hmem with hmem | hmem
  · exact hmem
  · exact absurd (mem_singleton.mp hmem).symm (hother _ _ _ _ _)

section

variable (hsound : Sound owner scope d)

include hsound

theorem Stands.vacant : d.streams[path]? = none := by
  obtain ⟨fence, hfence, -⟩ := h.guards
  exact ExtTreeMap.getElem?_eq_none (hsound.consistent.vacant_of_fence hfence)

/-- No active stream has the revision of the generation. -/
theorem Stands.revision_ne {known : DataPath} {active : ActiveStream}
    (hactive : d.streams[known]? = some (.active active)) :
    active.binding.incarnation.revision ≠ binding.incarnation.revision := by
  rw [hsound.epoch known active hactive]
  exact h.unused known _ hactive

variable (hclears : Clears scope binding d)

include hclears

/-- The next snapshot of a commit that is made while the fence stands. -/
theorem Stands.carries (hupdate : Update scope d next d') :
    Carries path binding.incarnation marked next := by
  have hretirements : ∀ entry ∈ next.streamRetirements, entry ∈ d.snapshot.streamRetirements ∨
      entry.2.revision ≠ binding.incarnation.revision := by
    intro entry hentry
    rcases hupdate.retirements entry hentry with hold | ⟨active, hleft, hsame⟩ |
      ⟨known, active, hactive, hsame⟩
    · exact .inl hold
    · rw [hsame]
      exact .inr (hclears.revision active hleft)
    · rw [hsame]
      exact .inr (h.revision_ne hsound hactive)
  cases hupdate with
  | recorded | retired | settled | joined => exact h.memory.congr (fun _ => rfl) hretirements
  | displaced | fenced =>
    refine h.memory.congr (fun _ => ?_) hretirements
    rw [(samePaths_displaceAll _ _ _).streamNodes]
  | bound request retired hown hvacant hfence =>
    refine h.memory.congr (fun _ => ?_) hretirements
    have hstands := h.fence_ne_none
    grind [streamBound]

/-- A successful commit. -/
theorem Stands.updated {fates : List CommitFate} (hupdate : Update scope d next d') :
    Stands acked path binding marked quiet { d' with store := ⟨next, next, fates⟩ } := by
  have hcarries := h.carries hsound hclears hupdate
  have hlater := hupdate.later fates
  cases hupdate with
  | recorded | retired | bound =>
    exact h.beside hlater ⟨rfl, fun _ => id, fun _ _ => ⟨hcarries, hcarries⟩, fun _ _ _ _ _ => id⟩
  | displaced active endpoint hleft hend =>
    refine h.beside hlater ⟨rfl, fun other hawaits => ?_, fun _ _ => ⟨hcarries, hcarries⟩,
      fun _ _ _ _ _ => id⟩
    refine getElem?_insert_eq_some.mpr (.inr ⟨?_, hawaits⟩)
    rintro rfl
    exact hclears.gone active hleft endpoint (mem_endpoints.mpr hend) hawaits
  | settled endpoint incarnation hack =>
    refine h.beside hlater ⟨rfl, fun other hawaits => ?_, fun _ _ => ⟨hcarries, hcarries⟩,
      fun _ _ _ _ _ => id⟩
    refine getElem?_erase_eq_some.mpr ⟨?_, hawaits⟩
    rintro rfl
    cases hack.symm.trans hawaits
  | fenced request active hown hactive hfence =>
    refine h.frame hlater ?_ (fun endpoint hend hawaits => .inr ?_) hcarries
      hcarries fun _ _ _ _ _ hmem => .inl (by simpa using hmem)
    · rw [getElem?_insert_ite, if_neg]
      rintro rfl
      exact h.fence_ne_none hfence
    · show (awaitAll d.pendingStreamDisplacements active.endpoints
        active.binding.incarnation)[endpoint]? = _
      rw [getElem?_awaitAll, if_neg]
      · exact hawaits
      · exact fun hmem => hclears.fenced request active hown hactive endpoint hmem hawaits
  | joined request pending hown hpending hfence =>
    refine h.frame hlater rfl (fun _ _ => .inr) hcarries hcarries ?_
    intro opening target requestId epoch other hmem
    have hother : request.path ≠ path := by
      rintro rfl
      exact h.fence_ne_none hfence
    rcases mem_append.mp hmem with hmem | hmem
    · exact .inl hmem
    · right
      rcases mem_cons.mp hmem with hsame | hmem
      · cases hsame
        exact hother
      · cases mem_singleton.mp hmem
        exact hother

theorem Stands.move (hmove : Move scope d d') : Stands acked path binding marked quiet d' := by
  have hlater := hmove.later
  cases hmove with
  | failed | renewed | dropped | reserved | unreserved | retiring =>
    exact h.beside hlater ⟨rfl, fun _ => id, .intro, fun _ _ _ _ _ => id⟩
  | tried fates hupdate =>
    exact h.beside hlater ⟨rfl, fun _ => id,
      fun hmemory _ => ⟨hmemory, h.carries hsound hclears hupdate⟩, fun _ _ _ _ _ => id⟩
  | committed fates hupdate => exact h.updated hsound hclears hupdate
  | said message hother => exact h.said hother
  | opened opening target requestId active hserved =>
    refine ⟨h.guards.frame rfl fun _ _ => .inr, h.past, h.unused, h.memory, h.file, ?_⟩
    intro hquiet opening' target' requestId' epoch other hmem hpath
    rcases mem_append.mp hmem with hmem | hmem
    · exact h.sent hquiet _ _ _ _ _ hmem hpath
    · cases mem_singleton.mp hmem
      subst hpath
      rcases hserved with hactive | ⟨fence, hfence, hold⟩
      · rw [h.vacant hsound] at hactive
        cases hactive
      · obtain ⟨found, hfound, -, hmatch, -⟩ := h.guards
        obtain rfl : fence = found := by simpa [hfence] using hfound
        rw [hmatch active hold]
  | held request fence hown hfence | withdrawn known operationId fence hm hfence =>
    exact { h with guards := h.guards.hold hfence _ }

end

end Stands

section Plain

variable (hown : ∀ request, ¬scope.own request)

include hown

theorem Clears.move (h : Clears scope binding d) (hmove : Move scope d d') :
    Clears scope binding d' := by
  refine ⟨h.revision, fun active hleft endpoint hend hawaits => ?_,
    fun request _ hopen => absurd hopen (hown request)⟩
  have hfree := h.gone active hleft endpoint hend
  cases hmove with
  | committed fates hupdate =>
    cases hupdate with
    | displaced other known hother =>
      rcases getElem?_insert_eq_some.mp hawaits with ⟨-, hsame⟩ | ⟨-, hawaits⟩
      · exact h.revision other hother (by rw [(PendingStreamDisplacement.mk.inj hsame).1])
      · exact hfree hawaits
    | settled other => exact hfree (getElem?_erase_eq_some.mp hawaits).2
    | fenced request other hopen => exact hown request hopen
    | _ => exact hfree hawaits
  | _ => exact hfree hawaits

/-- Moves that make no open. -/
theorem Stands.moves (h : Stands acked path binding marked quiet d) (hsound : Sound owner scope d)
    (hclears : Clears scope binding d) (hmoves : Moves scope d d') :
    Stands acked path binding marked quiet d' ∧ Sound owner scope d' ∧
      Clears scope binding d' := by
  induction hmoves with
  | refl => exact ⟨h, hsound, hclears⟩
  | tail _ hmove ih =>
    obtain ⟨hstands, hsound, hclears⟩ := ih
    exact ⟨hstands.move hsound hclears hmove,
      hsound.move (fun request hopen => absurd hopen (hown request)) hmove,
      hclears.move hown hmove⟩

end Plain

section

variable (h : Waits owner acked path binding marked quiet d)

include h

theorem Waits.move (hgentle : scope.Gentle owner) (hmove : Move scope d d') :
    Waits owner acked path binding marked quiet d' := by
  have hgone (active : ActiveStream) {P : Prop} (hleft : scope.gone active) : P :=
    absurd hleft (hgentle.gone active)
  have hclears : Clears scope binding d := by
    refine ⟨fun active => hgone active, fun active => hgone active, ?_⟩
    intro request active _ hactive endpoint hend hawaits
    cases (h.tracked.free hactive endpoint hend).1.symm.trans hawaits
  have hsound : Sound owner scope d := h.sound.rescope fun active => hgone active
  exact ⟨h.toStands.move hsound hclears hmove, h.tracked.move hgentle hmove,
    h.sound.gentle hgentle hmove⟩

theorem Waits.moves (hgentle : scope.Gentle owner) (hmoves : Moves scope d d') :
    Waits owner acked path binding marked quiet d' := by
  induction hmoves with
  | refl => exact h
  | tail _ hmove ih => exact ih.move hgentle hmove

theorem Waits.lifted {other : DataPath} (hother : other ≠ path) :
    Waits owner acked path binding marked quiet (d.liftedFence other) := by
  refine ⟨h.toStands.frame (.of_streams rfl le_rfl fun _ _ => id) ?_
    (fun _ _ => .inr) h.memory h.file fun _ _ _ _ _ => .inl, h.tracked.lifted other,
    h.sound.lifted other⟩
  show (d.streamReplacementFences.erase other)[path]? = _
  rw [getElem?_erase_ite, if_neg hother]

/-- A fence at another path is lifted. -/
theorem Waits.liftFence {other : DataPath} (hother : other ≠ path) :
    Waits owner acked path binding marked quiet (d.liftFence other) := by
  obtain ⟨scope, hgentle, hmoves⟩ := gentle_liftFence h.sound.held other
  exact (h.lifted hother).moves hgentle hmoves

/-- The fence is not ready while an end has not acknowledged. -/
theorem Waits.released_of_ready (hready : path ∈ d.readyPaths) : Released acked binding := by
  obtain ⟨fence, hfence, hincarnation, -, hends⟩ := h.guards
  intro endpoint hend
  rcases hends endpoint hend with hacked | ⟨hmem, hawaits⟩
  · exact hacked
  · simp only [readyPaths, mem_map, mem_filter] at hready
    obtain ⟨⟨known, other⟩, ⟨hknown, hall⟩, rfl⟩ := hready
    have hother := ExtTreeMap.mem_toList_iff_getElem?_eq_some.mp hknown
    obtain rfl : fence = other := by simpa [hfence] using hother
    have hsettled := all_eq_true.mp hall endpoint hmem
    rw [show d.pendingStreamDisplacements[endpoint]? = some ⟨binding.incarnation, false⟩
      from hawaits, hincarnation] at hsettled
    simp at hsettled

/-- The fence stands after the ready ones have been lifted, unless both ends have
acknowledged. -/
theorem Waits.resume :
    Released acked binding ∨
      Waits owner acked path binding marked quiet d.resumeStreamReplacementFences := by
  by_cases hready : path ∈ d.readyPaths
  · exact .inl (h.released_of_ready hready)
  · refine .inr (foldlRecOn _ _ h fun _ hd other hmem => hd.liftFence ?_)
    rintro rfl
    exact hready hmem

/-- The endpoint of the message has acknowledged. -/
theorem Waits.confirms {message : DataDirectoryIn} (hacked : Notes acked d message)
    (hconfirms : Confirms message d d') : Waits owner acked path binding marked quiet d' := by
  have htracked := h.tracked.confirms hacked hconfirms
  have hsound := h.sound.confirms hconfirms
  obtain rfl | ⟨endpoint, incarnation, acknowledged, hm, hpending, rfl⟩ := hconfirms
  · exact h
  · refine ⟨h.toStands.frame (.of_streams rfl le_rfl fun _ _ => id) rfl
      (fun other hend hawaits => ?_) h.memory h.file fun _ _ _ _ _ => .inl, htracked, hsound⟩
    by_cases hsame : endpoint = other
    · subst hsame
      cases hpending.symm.trans hawaits
      exact .inl (hacked _ _ _ hm hpending)
    · exact .inr (getElem?_insert_eq_some.mpr (.inr ⟨hsame, hawaits⟩))

end

/-- The message registers, unregisters or renames the path. -/
def DataDirectoryIn.rebinds (path : DataPath) : DataDirectoryIn → Prop
  | .register _ registration _ => registration.path = path
  | .unregister _ unbound _ _ => unbound = path
  | .rename _ source destination _ _ _ => source = path ∨ destination = path
  | _ => False

/-- The mutation of another path. -/
theorem Rebind.carries {message : DataDirectoryIn} (hrebind : Rebind message d next d')
    (hmarked : marked → ¬message.rebinds path) (hconsistent : d.snapshot.Consistent)
    (h : Carries path incarnation marked d.snapshot) : Carries path incarnation marked next := by
  refine h.congr (fun hm => ?_) fun entry hentry => .inl (hrebind.streamRetirements ▸ hentry)
  have hother := hmarked hm
  cases hrebind with
  | registered requestId registration replyTo retired hm =>
    subst hm
    have hne : registration.path ≠ path := hother
    grind [BlobRegistration.edit, blobBound]
  | unregistered requestId unbound operationId replyTo retired hm =>
    subst hm
    have hne : unbound ≠ path := hother
    grind [unbound]
  | renamed requestId source destination replace operationId replyTo retired hm =>
    subst hm
    obtain ⟨hsource, hdestination⟩ := not_or.mp hother
    grind [getElem?_streamNodes_moved hconsistent]

/-- A message that neither opens a stream nor lifts a fence. -/
theorem Stands.mutates (h : Stands acked path binding marked quiet d)
    (hown : ∀ request, ¬scope.own request) (hsound : Sound owner scope d)
    (hclears : Clears scope binding d) (hmarked : marked → ¬scope.message.rebinds path)
    (hmutates : Mutates scope d d') : Stands acked path binding marked quiet d' := by
  cases hmutates with
  | moved hmoves => exact (h.moves hown hsound hclears hmoves).1
  | rebound fates hbefore hrebind hafter =>
    obtain ⟨hmoved, hsound, hclears⟩ := h.moves hown hsound hclears hbefore
    have hcarries := hrebind.carries hmarked hsound.consistent.memory hmoved.memory
    have hlater := hrebind.later fates
    refine (Stands.moves hown ?_ (hsound.rebind hrebind fates) ⟨hclears.revision, ?_,
      fun request _ hopen => absurd hopen (hown request)⟩ hafter).1
    · cases hrebind <;>
        exact hmoved.beside hlater ⟨rfl, fun _ => id, fun _ _ => ⟨hcarries, hcarries⟩,
          fun _ _ _ _ _ => id⟩
    · cases hrebind <;> exact hclears.gone
  | @refused d₁ d₂ next fates target out hrebind hstore =>
    have hmemory : d₁.snapshot = d.snapshot := by rw [snapshot, hstore]
    have hcarries : Carries path binding.incarnation marked next := by
      refine hrebind.carries hmarked ?_ ?_
      · rw [hmemory]
        exact hsound.consistent.memory
      · rw [hmemory]
        exact h.memory
    have hrefused : Stands acked path binding marked quiet
        { d with store := ⟨next, d.snapshot, fates⟩ } :=
      h.beside (.of_streams rfl le_rfl fun _ _ => id)
        ⟨rfl, fun _ => id, fun hmemory _ => ⟨hmemory, hcarries⟩, fun _ _ _ _ _ => id⟩
    exact hrefused.said (by simp)

/-- The messages that open a stream or can lift a fence displace and close no stream. -/
theorem gentle_of_not_plain {m : DataDirectoryIn} (hm : ¬m.plain) :
    (d.scope m (Owned owner)).Gentle owner := by
  refine ⟨fun _ => id, ?_, ?_⟩
  · rintro active ⟨_, _, _, rfl, -⟩
    exact hm trivial
  · rintro _ _ _ _ rfl
    exact hm trivial

/-- The fence stands after every message, unless both ends have acknowledged. -/
theorem Waits.handle (h : Waits owner acked path binding marked quiet d) (env : Surroundings)
    (m : DataDirectoryIn) (hown : ∀ request, m = .openStream request → Owned owner request)
    (hacked : Notes acked d m)
    (hmarked : marked → ¬m.rebinds path) :
    Released acked binding ∨ Waits owner acked path binding marked quiet (d.handle env m) := by
  by_cases hm : m.plain
  · have htracked := h.tracked.handle env m hown (.inl fun _ _ => trivial)
      (fun _ _ _ _ _ _ => trivial) hacked
    have hclears : Clears (d.scope m fun _ => False) binding d := by
      refine ⟨?_, ?_, fun _ _ => False.elim⟩
      · rintro active ⟨_, _, _, -, hactive⟩
        exact h.toStands.revision_ne h.sound hactive
      · rintro active ⟨_, _, _, -, hactive⟩ endpoint hend hawaits
        cases (h.tracked.free hactive endpoint hend).1.symm.trans hawaits
    have hstands := h.toStands.mutates (fun _ => id) (h.sound.begin m _) hclears hmarked
      (mutates_handle env _ hm)
    exact .inr ⟨hstands, htracked, h.sound.handle env m hown⟩
  · have hgentle : (d.scope m (Owned owner)).Gentle owner := gentle_of_not_plain hm
    have hhandled := handled_handle (d := d) env m (Owned owner) hown
    generalize d.handle env m = d' at hhandled
    cases hhandled with
    | moved hmoves => exact .inr (h.moves hgentle hmoves)
    | resumed hconfirms hbefore hafter =>
      have hmoved := (h.confirms hacked hconfirms).moves hgentle hbefore
      exact hmoved.resume.imp_right fun hresumed => hresumed.moves hgentle hafter
    | rebound fates hbefore hrebind => exact absurd hrebind.plain hm
    | refused fates target out hrebind => exact absurd hrebind.plain hm

end Waits

end Swactor.Namespace
