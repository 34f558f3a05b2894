import Swactor.Namespace.Fences
import Swactor.Namespace.HeldOpens
import Swactor.Namespace.Reminders

/-!
# The replacement of a stream along a run

A fence that is raised waits, from the step in which it is raised on. A restart rebuilds it from
the ends that have not acknowledged, which the file has, and from the node of the path. So until
both ends have acknowledged no other generation of the path is announced, unless the path itself
is bound anew.
-/
namespace Swactor.Namespace

open DataDirectory Machine Maps List
open Std (ExtTreeMap)

variable {owner : ActorAddress → OperationId}
  {acked acked' : ActorAddress → StreamIncarnation → Prop} {scope : Scope}
  {d₀ d d' : DataDirectory} {path : DataPath} {binding : StreamMatch} {marked quiet : Prop}

section Raises

/-- Every fence that was not there before waits. -/
structure Raises (owner : ActorAddress → OperationId)
    (acked : ActorAddress → StreamIncarnation → Prop) (d₀ d : DataDirectory) : Prop where
  tracked : Tracked owner acked (fun _ _ => True) (fun _ _ => False) d
  sound : Sound owner .idle d
  raised : ∀ (path : DataPath) (fence : StreamReplacementFence) (old : ActiveStream),
    d.streamReplacementFences[path]? = some fence → fence.old = some old →
      (∃ known, d₀.streamReplacementFences[path]? = some known ∧ known.old = some old) ∨
        Waits owner acked path old.binding True False d

/-- The fence of an active stream that has just been displaced. -/
theorem waits_fenced (hsound : Sound owner .idle d) {request : StreamOpenRequest}
    {active : ActiveStream}
    (hactive : d.streams[request.path]? = some (.active active))
    (htracked' : Tracked owner acked (fun _ _ => True) (fun _ _ => False) d')
    (hsound' : Sound owner .idle d')
    (hstreams : d'.streams = d.streams.erase request.path)
    (hpending : d'.pendingStreamDisplacements = awaitAll
      d.pendingStreamDisplacements active.endpoints active.binding.incarnation)
    (hfence : d'.streamReplacementFences[request.path]? =
      some ⟨active.binding.incarnation, active.endpoints, some active, [request]⟩)
    (hstore : ∃ fates, d'.store = ⟨d.snapshot.displaceAll active.endpoints
      active.binding.incarnation, d.snapshot.displaceAll active.endpoints
      active.binding.incarnation, fates⟩) :
    Waits owner acked request.path active.binding True False d' := by
  obtain ⟨fates, hstore⟩ := hstore
  have hincarnation := hsound.epoch _ _ hactive
  have hnode := hsound.consistent.streams _ _ hactive
  have hpaths := d.snapshot.samePaths_displaceAll active.endpoints active.binding.incarnation
  have hcarries : Carries request.path active.binding.incarnation True
      (d.snapshot.displaceAll active.endpoints active.binding.incarnation) := by
    refine ⟨fun _ => ?_, fun entry hentry hrevision => ?_⟩
    · rw [hpaths.streamNodes, hnode, hincarnation]
      rfl
    · rcases mem_streamRetirements_displaceAll.mp hentry with ⟨-, hsame⟩ | ⟨-, hold⟩
      · exact hsame
      · have hepoch := (hsound.memory entry hold).2 _ _ hactive (by
          rw [hrevision, hincarnation]
          rfl)
        rw [hincarnation] at hrevision ⊢
        cases entry with
        | mk endpoint incarnation =>
          cases incarnation
          simp only [StreamIncarnation.mk.injEq] at hepoch hrevision ⊢
          exact ⟨hepoch, hrevision⟩
  refine ⟨?_, htracked', hsound'⟩
  constructor
  · refine ⟨_, hfence, rfl, fun old hold => ?_, fun endpoint hend => .inr ⟨?_, ?_⟩⟩
    · cases hold
      rfl
    · exact mem_endpoints.mpr hend
    · rw [DataDirectory.Awaits, hpending, getElem?_awaitAll, if_pos (mem_endpoints.mpr hend)]
  · rw [snapshot, hstore, hpaths.nextRevision]
    exact (hsound.fresh hactive).1
  · intro known entry hentry hrevision
    rw [hstreams] at hentry
    obtain ⟨hne, hentry⟩ := getElem?_erase_eq_some.mp hentry
    have hother := hsound.consistent.streams known entry hentry
    rw [hrevision, hincarnation] at hother
    exact hne (hsound.consistent.memory.unique (.inr hnode) (.inr hother))
  · rw [snapshot, hstore]
    exact hcarries
  · rw [hstore]
    exact hcarries
  · exact fun hfalse => hfalse.elim

section

variable (h : Raises owner acked d₀ d) (hgentle : scope.Gentle owner)

include h hgentle

theorem Raises.move (hmove : Move scope d d') : Raises owner acked d₀ d' := by
  have htracked := h.tracked.move hgentle hmove
  have hsound := h.sound.gentle hgentle hmove
  refine ⟨htracked, hsound, fun path fence old hfence hold => ?_⟩
  have hkept (known : StreamReplacementFence)
      (hknown : d.streamReplacementFences[path]? = some known) (hsame : known.old = some old) :
      (∃ known, d₀.streamReplacementFences[path]? = some known ∧ known.old = some old) ∨
        Waits owner acked path old.binding True False d' :=
    (h.raised path known old hknown hsame).imp_right fun hwaits =>
      hwaits.move hgentle hmove
  cases hmove with
  | committed fates hupdate =>
    cases hupdate with
    | fenced request active hown hactive hvacant =>
      by_cases hpath : request.path = path
      · subst hpath
        have hraised := (getElem?_insert_eq_some.mp hfence)
        rcases hraised with ⟨-, rfl⟩ | ⟨hne, -⟩
        · cases hold
          exact .inr (waits_fenced h.sound hactive htracked hsound rfl rfl hfence
            ⟨fates, rfl⟩)
        · exact absurd rfl hne
      · rcases getElem?_insert_eq_some.mp hfence with ⟨hsame, -⟩ | ⟨-, hfence⟩
        · exact absurd hsame hpath
        · exact hkept fence hfence hold
    | _ => exact hkept fence hfence hold
  | held request known hown hknown | withdrawn other operationId known hm hknown =>
    rcases getElem?_insert_eq_some.mp hfence with ⟨rfl, rfl⟩ | ⟨-, hfence⟩
    · exact hkept known hknown hold
    · exact hkept fence hfence hold
  | _ => exact hkept fence hfence hold

theorem Raises.moves (hmoves : Moves scope d d') : Raises owner acked d₀ d' := by
  induction hmoves with
  | refl => exact h
  | tail _ hmove ih => exact ih.move hgentle hmove

end

theorem Raises.liftFence (h : Raises owner acked d₀ d) (path : DataPath) :
    Raises owner acked d₀ (d.liftFence path) := by
  have hlifted : Raises owner acked d₀ (d.liftedFence path) := by
    refine ⟨h.tracked.lifted path, h.sound.lifted path, fun known fence old hfence hold => ?_⟩
    obtain ⟨hne, hfence⟩ := getElem?_erase_eq_some.mp hfence
    exact (h.raised known fence old hfence hold).imp_right fun hwaits => hwaits.lifted hne
  obtain ⟨scope, hgentle, hmoves⟩ := gentle_liftFence h.sound.held path
  exact hlifted.moves hgentle hmoves

theorem Raises.resume (h : Raises owner acked d₀ d) :
    Raises owner acked d₀ d.resumeStreamReplacementFences :=
  foldlRecOn _ _ h fun _ hd path _ => hd.liftFence path

section Plain

variable (hown : ∀ request, ¬scope.own request)

include hown

theorem Moves.fences (h : Moves scope d d') {fence : StreamReplacementFence}
    (hfence : d'.streamReplacementFences[path]? = some fence) :
    ∃ known, d.streamReplacementFences[path]? = some known ∧ known.old = fence.old := by
  induction h generalizing fence with
  | refl => exact ⟨fence, hfence, rfl⟩
  | tail _ hmove ih =>
    cases hmove with
    | committed fates hupdate =>
      cases hupdate with
      | fenced request active hopen => exact absurd hopen (hown request)
      | _ => exact ih hfence
    | held request known hopen => exact absurd hopen (hown request)
    | withdrawn other operationId known hm hknown =>
      rcases getElem?_insert_eq_some.mp hfence with ⟨rfl, rfl⟩ | ⟨-, hfence⟩
      · have hbefore := ih hknown
        exact hbefore
      · exact ih hfence
    | _ => exact ih hfence

/-- No fence is raised when nothing is opened. -/
theorem Mutates.fences (h : Mutates scope d d') {fence : StreamReplacementFence}
    (hfence : d'.streamReplacementFences[path]? = some fence) :
    ∃ known, d.streamReplacementFences[path]? = some known ∧ known.old = fence.old := by
  cases h with
  | moved hmoves => exact hmoves.fences hown hfence
  | rebound fates hbefore hrebind hafter =>
    obtain ⟨known, hknown, hsame⟩ := hafter.fences hown hfence
    rw [← hsame]
    cases hrebind <;> exact hbefore.fences hown hknown
  | refused => exact ⟨fence, hfence, rfl⟩

end Plain

/-- The fences that the handling of a message raises. -/
theorem raises_handle (htracked : Tracked owner acked (fun _ _ => True) (fun _ _ => False) d)
    (hsound : Sound owner .idle d) (env : Surroundings) (m : DataDirectoryIn)
    (hown : ∀ request, m = .openStream request → Owned owner request)
    (hacked : Notes acked d m) :
    Raises owner acked d (d.handle env m) := by
  by_cases hm : m.plain
  · refine ⟨htracked.handle env m hown (.inl fun _ _ => trivial) (fun _ _ _ _ _ _ => trivial)
      hacked, hsound.handle env m hown, fun path fence old hfence hold => .inl ?_⟩
    obtain ⟨known, hknown, hsame⟩ :=
      (mutates_handle env (fun _ => False) hm).fences (fun _ => id) hfence
    exact ⟨known, hknown, hsame.trans hold⟩
  · have hgentle : (d.scope m (Owned owner)).Gentle owner := gentle_of_not_plain hm
    have hstart : Raises owner acked d d :=
      ⟨htracked, hsound, fun path fence old hfence hold => .inl ⟨fence, hfence, hold⟩⟩
    have hhandled := handled_handle (d := d) env m (Owned owner) hown
    generalize d.handle env m = d' at hhandled
    cases hhandled with
    | moved hmoved => exact hstart.moves hgentle hmoved
    | resumed hconfirms hbefore hafter =>
      refine (Raises.moves ?_ hgentle hbefore).resume.moves hgentle hafter
      have hconfirmed := htracked.confirms hacked hconfirms
      have hsettled := hsound.confirms hconfirms
      obtain rfl | ⟨_, _, _, -, -, rfl⟩ := hconfirms
      · exact hstart
      · exact ⟨hconfirmed, hsettled, fun path fence old hfence hold =>
          .inl ⟨fence, hfence, hold⟩⟩
    | rebound fates hbefore hrebind => exact absurd hrebind.plain hm
    | refused fates target out hrebind => exact absurd hrebind.plain hm

end Raises

section Rebuild

variable {file : NamespaceSnapshot}

/-- What the handlers keep, whatever is fenced. -/
structure Orderly (owner : ActorAddress → OperationId)
    (acked : ActorAddress → StreamIncarnation → Prop) (d : DataDirectory) : Prop where
  tracked : Tracked owner acked (fun _ _ => True) (fun _ _ => False) d
  sound : Sound owner .idle d

/-- What the file keeps while the directory is down. -/
structure Kept (owner : ActorAddress → OperationId)
    (acked : ActorAddress → StreamIncarnation → Prop) (file : NamespaceSnapshot) : Prop where
  remembered : Remembered owner acked (fun _ _ => True) (fun _ _ => False) file
  consistent : file.Consistent
  past : ∀ entry ∈ file.streamRetirements, entry.2.revision < file.nextRevision

theorem Orderly.kept (h : Orderly owner acked d) : Kept owner acked d.store.file := by
  refine ⟨h.tracked.remembered fun _ _ _ => trivial, h.sound.consistent.file, ?_⟩
  exact fun entry hentry => (h.sound.file entry hentry).1.trans_le h.sound.consistent.ahead

theorem Kept.rebuild (h : Kept owner acked file) (env : Surroundings) (epoch : ℕ)
    (fates : List CommitFate) :
    Orderly owner acked (restarted env file epoch fates) := by
  have htracked := h.remembered.rebuild env epoch fates
  have hfresh (entry : ActorAddress × StreamIncarnation) (hentry : entry ∈ file.streamRetirements) :
      (restarted env file epoch fates).Fresh entry.2 := by
    refine ⟨h.past entry hentry, fun path entry hentry => ?_⟩
    simp [DataDirectory.rebuild] at hentry
  refine ⟨htracked, consistent_rebuild h.consistent env epoch fates,
    htracked.members, fun path active hactive => ?_, hfresh, hfresh, fun _ => False.elim,
    htracked.held⟩
  simp [DataDirectory.rebuild] at hactive

/-- A node of the file is found by its revision. -/
theorem find?_streamNodes (hconsistent : file.Consistent) {revision : ℕ}
    (hnode : file.streamNodes[path]? = some revision) (other : ℕ) :
    ((file.streamNodes.toList.find? fun node => node.2 = other).map Prod.fst = some path ↔
      other = revision) := by
  constructor
  · intro hfound
    obtain ⟨⟨found, known⟩, hfind, rfl⟩ := Option.map_eq_some_iff.mp hfound
    have hmem := ExtTreeMap.mem_toList_iff_getElem?_eq_some.mp (mem_of_find?_eq_some hfind)
    have hknown : known = other := by simpa using find?_some hfind
    rw [hnode] at hmem
    rw [← hknown]
    exact (Option.some_inj.mp hmem).symm
  · rintro rfl
    have hmem := ExtTreeMap.mem_toList_iff_getElem?_eq_some.mpr hnode
    cases hfind : file.streamNodes.toList.find? fun node => node.2 = other with
    | none =>
      have hnone := find?_eq_none.mp hfind _ hmem
      simp at hnone
    | some node =>
      obtain ⟨found, known⟩ := node
      have hfound := ExtTreeMap.mem_toList_iff_getElem?_eq_some.mp
        (mem_of_find?_eq_some hfind)
      have hknown : known = other := by simpa using find?_some hfind
      rw [hknown] at hfound
      rw [Option.map_some, hconsistent.unique (.inr hfound) (.inr hnode)]

/-- The fence that is rebuilt for a node names the endpoints of its generation. -/
theorem rebuilt_guard {nodes : ExtTreeMap DataPath ℕ compare} {incarnation : StreamIncarnation}
    {entries : List (ActorAddress × StreamIncarnation)}
    {fences : ExtTreeMap DataPath StreamReplacementFence compare}
    (hfind : ∀ revision, (nodes.toList.find? fun node => node.2 = revision).map Prod.fst =
      some path ↔ revision = incarnation.revision)
    (halone : ∀ entry ∈ entries, entry.2.revision = incarnation.revision →
      entry.2 = incarnation)
    (hfences : ∀ fence, fences[path]? = some fence → fence.incarnation = incarnation) :
    (∀ fence, (entries.foldl (rebuildFence nodes) fences)[path]? = some fence →
        fence.incarnation = incarnation) ∧
      ∀ endpoint, ((∃ fence, fences[path]? = some fence ∧ endpoint ∈ fence.endpoints) ∨
        (endpoint, incarnation) ∈ entries) →
        ∃ fence, (entries.foldl (rebuildFence nodes) fences)[path]? = some fence ∧
          endpoint ∈ fence.endpoints := by
  induction entries generalizing fences with
  | nil =>
    refine ⟨hfences, fun endpoint hend => ?_⟩
    rcases hend with hend | hend
    · exact hend
    · cases hend
  | cons entry rest ih =>
    have hrest : ∀ entry ∈ rest, entry.2.revision = incarnation.revision →
        entry.2 = incarnation := fun other hmem => halone other (mem_cons_of_mem _ hmem)
    have hentry := halone entry mem_cons_self
    rw [foldl_cons]
    have hstep : (∀ fence, (rebuildFence nodes fences entry)[path]? = some fence →
          fence.incarnation = incarnation) ∧
        ∀ endpoint, ((∃ fence, fences[path]? = some fence ∧ endpoint ∈ fence.endpoints) ∨
          entry = (endpoint, incarnation)) →
          ∃ fence, (rebuildFence nodes fences entry)[path]? = some fence ∧
            endpoint ∈ fence.endpoints := by
      have hfound := hfind entry.2.revision
      unfold rebuildFence
      split
      · next hnone =>
        rw [hnone] at hfound
        refine ⟨hfences, fun endpoint hend => hend.resolve_right ?_⟩
        rintro rfl
        simp at hfound
      · next found revision hsome =>
        rw [hsome] at hfound
        by_cases hpath : found = path
        · subst hpath
          have hsame : entry.2 = incarnation := hentry (hfound.mp rfl)
          have hknown : (fences[found]?.getD ⟨entry.2, [], none, []⟩).incarnation =
              incarnation := by
            cases hfence : fences[found]? with
            | none => exact hsame
            | some fence => exact hfences fence hfence
          dsimp only
          rw [if_pos (hknown.trans hsame.symm)]
          constructor
          · intro fence hfence
            rcases getElem?_insert_eq_some.mp hfence with ⟨-, rfl⟩ | ⟨hne, -⟩
            · exact hknown
            · exact absurd rfl hne
          · intro endpoint hend
            refine ⟨_, getElem?_insert_eq_some.mpr (.inl ⟨rfl, rfl⟩),
              mem_insert_iff.mpr ?_⟩
            rcases hend with ⟨fence, hfence, hmem⟩ | rfl
            · rw [hfence]
              exact .inr hmem
            · exact .inl rfl
        · have hother : entry.2.revision ≠ incarnation.revision := fun hrevision =>
            hpath (Option.some_inj.mp (hfound.mpr hrevision))
          constructor
          · intro fence hfence
            rcases getElem?_insert_eq_some.mp hfence with ⟨hsame, -⟩ | ⟨-, hfence⟩
            · exact absurd hsame hpath
            · exact hfences fence hfence
          · intro endpoint hend
            rcases hend with ⟨fence, hfence, hmem⟩ | rfl
            · exact ⟨fence, getElem?_insert_eq_some.mpr (.inr ⟨hpath, hfence⟩), hmem⟩
            · exact absurd rfl hother
    obtain ⟨hincarnation, hends⟩ := ih hrest hstep.1
    refine ⟨hincarnation, fun endpoint hend => hends endpoint ?_⟩
    rcases hend with hold | hmem
    · exact .inl (hstep.2 endpoint (.inl hold))
    · rcases mem_cons.mp hmem with hsame | hmem
      · exact .inl (hstep.2 endpoint (.inr hsame.symm))
      · exact .inr hmem

/-- The file of a directory that is down while a replacement waits. -/
structure Suspends (acked : ActorAddress → StreamIncarnation → Prop) (path : DataPath)
    (binding : StreamMatch) (file : NamespaceSnapshot) : Prop where
  carries : Carries path binding.incarnation True file
  ends : ∀ endpoint, endpoint = binding.source ∨ endpoint = binding.sink →
    acked endpoint binding.incarnation ∨
      (endpoint, binding.incarnation) ∈ file.streamRetirements

theorem Waits.suspends (h : Waits owner acked path binding True quiet d) :
    Suspends acked path binding d.store.file := by
  refine ⟨h.file, fun endpoint hend => ?_⟩
  obtain ⟨fence, -, -, -, hends⟩ := h.guards
  exact (hends endpoint hend).imp_right fun ⟨_, hawaits⟩ => h.tracked.file.awaited _ _ hawaits

/-- The fence stands again after a restart. -/
theorem Suspends.rebuild (h : Suspends acked path binding file) (hkept : Kept owner acked file)
    (hwaits : ¬Released acked binding) (env : Surroundings) (epoch : ℕ)
    (fates : List CommitFate) :
    Waits owner acked path binding True True (restarted env file epoch fates) := by
  have horderly := hkept.rebuild env epoch fates
  have hnode := h.carries.node trivial
  have hcarries : Carries path binding.incarnation True { file with authorityEpoch := epoch } :=
    h.carries.congr (fun _ => rfl) fun _ => .inl
  have hnone (fence : StreamReplacementFence)
      (hfence : (∅ : ExtTreeMap DataPath StreamReplacementFence compare)[path]? = some fence) :
      fence.incarnation = binding.incarnation := by simp at hfence
  obtain ⟨hincarnation, hends⟩ := rebuilt_guard (find?_streamNodes hkept.consistent hnode)
    h.carries.alone hnone
  obtain ⟨waiting, hwaiting, hunacked⟩ : ∃ endpoint,
      (endpoint = binding.source ∨ endpoint = binding.sink) ∧
        ¬acked endpoint binding.incarnation := by
    by_contra hnone
    refine hwaits fun endpoint hend => ?_
    by_contra hunacked
    exact hnone ⟨endpoint, hend, hunacked⟩
  obtain ⟨fence, hfence, -⟩ := hends waiting
    (.inr ((h.ends waiting hwaiting).resolve_left hunacked))
  refine ⟨?_, horderly.tracked, horderly.sound⟩
  constructor
  · refine ⟨fence, hfence, hincarnation fence hfence, fun old hold => ?_, fun endpoint hend => ?_⟩
    · rw [(rebuilt_fence (by simp) path fence hfence).1] at hold
      cases hold
    · refine (h.ends endpoint hend).imp_right fun hmem => ⟨?_, ?_⟩
      · obtain ⟨known, hknown, hnamed⟩ := hends endpoint (.inr hmem)
        obtain rfl : fence = known := by simpa [hfence] using hknown
        exact hnamed
      · exact hkept.remembered.recalls.awaits_rebuild hmem
  · exact (hkept.consistent.inRange (.inr hnode)).2
  · intro known entry hentry
    simp [DataDirectory.rebuild] at hentry
  · exact hcarries
  · exact hcarries
  · intro _ opening target requestId epoch other hmem
    simp [DataDirectory.rebuild] at hmem

end Rebuild

section Steps

theorem Guards.mono (h : Guards acked path binding d)
    (hacked : ∀ endpoint incarnation, acked endpoint incarnation → acked' endpoint incarnation) :
    Guards acked' path binding d := by
  obtain ⟨fence, hfence, hincarnation, hold, hends⟩ := h
  exact ⟨fence, hfence, hincarnation, hold, fun endpoint hend =>
    (hends endpoint hend).imp_left (hacked _ _)⟩

theorem Orderly.mono (h : Orderly owner acked d)
    (hacked : ∀ endpoint incarnation, acked endpoint incarnation → acked' endpoint incarnation) :
    Orderly owner acked' d :=
  ⟨h.tracked.mono hacked fun _ _ => id, h.sound⟩

theorem Kept.mono {file : NamespaceSnapshot} (h : Kept owner acked file)
    (hacked : ∀ endpoint incarnation, acked endpoint incarnation → acked' endpoint incarnation) :
    Kept owner acked' file :=
  ⟨h.remembered.mono hacked fun _ _ => id, h.consistent, h.past⟩

theorem Orderly.received (h : Orderly owner acked d) (env : Surroundings) :
    Orderly owner acked (d.received env) := by
  exact ⟨h.tracked.frame rfl rfl rfl (by simp [DataDirectory.received]) .rfl
    h.tracked.memory h.tracked.file,
    { h.sound with consistent := { h.sound.consistent with } }⟩

theorem Orderly.handle (h : Orderly owner acked d) (env : Surroundings) (m : DataDirectoryIn)
    (hown : ∀ request, m = .openStream request → Owned owner request)
    (hacked : Notes acked d m) :
    Orderly owner acked (d.handle env m) :=
  ⟨h.tracked.handle env m hown (.inl fun _ _ => trivial) (fun _ _ _ _ _ _ => trivial) hacked,
    h.sound.handle env m hown⟩

/-- A message begins to be handled while a replacement waits. -/
theorem Waits.received (h : Waits owner acked path binding marked quiet d) {env : Surroundings}
    (horderly : Orderly owner acked' (d.received env))
    (hacked : ∀ endpoint incarnation, acked endpoint incarnation → acked' endpoint incarnation) :
    Waits owner acked' path binding marked True (d.received env) := by
  refine ⟨⟨(h.guards.mono hacked).frame rfl fun _ _ => .inr, h.past, h.unused, h.memory, h.file,
    ?_⟩, horderly.tracked, horderly.sound⟩
  intro _ opening target requestId epoch other hmem
  simp [DataDirectory.received] at hmem

/-- The node of the path need not be the one of the generation. -/
theorem Waits.unmarked (h : Waits owner acked path binding marked quiet d) :
    Waits owner acked path binding False quiet d :=
  ⟨⟨h.guards, h.past, h.unused, ⟨False.elim, h.memory.alone⟩, ⟨False.elim, h.file.alone⟩, h.sent⟩,
    h.tracked, h.sound⟩

end Steps

namespace Authority

variable {s : Authority}

/-- Every open has an endpoint of its own. -/
def OwnOpens (owner : ActorAddress → OperationId) (_ : Authority) : AuthorityAction → Prop
  | .deliver (.openStream request) _ => Owned owner request
  | _ => True

/-- The stream whose replacement is fenced at the path. -/
def fenced (s : Authority) (path : DataPath) : Option ActiveStream :=
  match s with
  | .down _ => none
  | .up d => d.streamReplacementFences[path]?.bind (·.old)

/-- An open displaces the active stream of the path: a fence is put there for it. -/
def Replaces (path : DataPath) (old : ActiveStream) (s : Authority) (a : AuthorityAction) : Prop :=
  (s.step a).fenced path = some old ∧ s.fenced path ≠ some old

/-- The node of the path in memory and in the file. -/
def nodes (s : Authority) (path : DataPath) : Option ℕ × Option ℕ :=
  match s with
  | .down file => (file.streamNodes[path]?, file.streamNodes[path]?)
  | .up d => (d.snapshot.streamNodes[path]?, d.store.file.streamNodes[path]?)

/-- The path is registered, unregistered or renamed, at least in the file. -/
def Rebinds (path : DataPath) (s : Authority) (a : AuthorityAction) : Prop :=
  (∃ message env, a = .deliver message env ∧ message.rebinds path) ∧
    (s.step a).nodes path ≠ s.nodes path

/-- The open is answered. -/
def Answers (opening : StreamOpening) (s : Authority) (a : AuthorityAction) : Prop :=
  Answered (s.step a).sent opening

/-- The open is cancelled. -/
def Cancels (opening : StreamOpening) (_ : Authority) (a : AuthorityAction) : Prop :=
  ∃ requestId replyTo env,
    a = .deliver (.cancelStream requestId opening.path opening.operationId replyTo) env

/-- The directory goes down or starts. -/
def Interrupts (_ : Authority) (a : AuthorityAction) : Prop :=
  a = .crash ∨ ∃ env, a = .restart env

/-- The open is held by the fence of its path or waits there for the other side. -/
def Pends (s : Authority) (opening : StreamOpening) : Prop :=
  ∃ d, s = .up d ∧ d.Pends opening

theorem Notes.mono {a : AuthorityAction} (h : s.Notes a acked acked')
    (endpoint : ActorAddress) (incarnation : StreamIncarnation)
    (hold : acked endpoint incarnation) : acked' endpoint incarnation :=
  h _ _ (.inl hold)

/-- The acknowledgement that a message brings. -/
theorem acked_of_delivered {d : DataDirectory} {message : DataDirectoryIn} {env : Surroundings}
    (hacked : Authority.Notes (.up d) (.deliver message env) acked acked') :
    Namespace.Notes acked' (d.received env) message := by
  rintro endpoint incarnation acknowledged rfl hpending
  exact hacked _ _ (.inr ⟨d, acknowledged, env, rfl, hpending, rfl⟩)

section

variable (hs : s.Holds (Orderly owner acked) (Kept owner acked))

include hs

theorem kept_of_holds : Kept owner acked s.file := by
  cases s with
  | down file => exact hs
  | up d => exact Orderly.kept hs

theorem orderly_step (a : AuthorityAction) (hown : s.OwnOpens owner a)
    (hacked : s.Notes a acked acked') :
    (s.step a).Holds (Orderly owner acked') (Kept owner acked') := by
  have hmono := hacked.mono
  have hkept := (kept_of_holds hs).mono hmono
  cases a with
  | deliver message env =>
    cases s with
    | down file => exact hkept
    | up d =>
      refine ((Orderly.mono hs hmono).received env).handle env message ?_
        (acked_of_delivered hacked)
      rintro request rfl
      exact hown
  | crash => exact hkept
  | restart env =>
    refine holds_start hkept (fun epoch => ?_) fun epoch fates =>
      (hkept.rebuild env epoch fates).handle env .retryRetirements nofun nofun
    have hrecalls := hkept.remembered.recalls
    exact ⟨⟨⟨hrecalls.awaited, hrecalls.unique, hrecalls.opened⟩, hkept.remembered.told⟩,
      hkept.consistent.congr ⟨rfl, rfl, rfl⟩, hkept.past⟩

/-- A step while a replacement waits. -/
theorem waits_step
    (hwaits : s.Holds (Waits owner acked path binding True quiet) (Suspends acked path binding))
    (a : AuthorityAction) (hown : s.OwnOpens owner a)
    (hacked : s.Notes a acked acked') :
    Rebinds path s a ∨ Released acked' binding ∨
      (s.step a).Holds (Waits owner acked' path binding True True)
        (Suspends acked' path binding) := by
  have hmono := hacked.mono
  have hkept := (kept_of_holds hs).mono hmono
  have hsuspends : Suspends acked' path binding s.file := by
    have hbefore : Suspends acked path binding s.file := by
      cases s with
      | down file => exact hwaits
      | up d => exact Waits.suspends hwaits
    exact ⟨hbefore.carries, fun endpoint hend => (hbefore.ends endpoint hend).imp_left (hmono _ _)⟩
  cases a with
  | deliver message env =>
    cases s with
    | down file => exact .inr (.inr hsuspends)
    | up d =>
      have horderly := (Orderly.mono hs hmono).received env
      have hreceived := Waits.received hwaits horderly hmono
      have hopens : ∀ request, message = .openStream request → Owned owner request := by
        rintro request rfl
        exact hown
      have hdelivered := acked_of_delivered hacked
      by_cases hrebinds : message.rebinds path
      · rcases hreceived.unmarked.handle env message hopens hdelivered False.elim with
          hreleased | hafter
        · exact .inr (.inl hreleased)
        · by_cases hnodes : (step (.up d) (.deliver message env)).nodes path =
              (Authority.up d).nodes path
          · refine .inr (.inr ⟨⟨hafter.guards, hafter.past, hafter.unused,
              ⟨fun _ => ?_, hafter.memory.alone⟩, ⟨fun _ => ?_, hafter.file.alone⟩, hafter.sent⟩,
              hafter.tracked, hafter.sound⟩)
            · exact (congrArg Prod.fst hnodes).trans (hwaits.memory.node trivial)
            · exact (congrArg Prod.snd hnodes).trans (hwaits.file.node trivial)
          · exact .inl ⟨⟨message, env, rfl, hrebinds⟩, hnodes⟩
      · exact .inr (hreceived.handle env message hopens hdelivered fun _ => hrebinds)
  | crash => exact .inr (.inr hsuspends)
  | restart env =>
    by_cases hreleased : Released acked' binding
    · exact .inr (.inl hreleased)
    · refine .inr (.inr (holds_start hsuspends (fun epoch => ?_) fun epoch fates => ?_))
      · exact ⟨hsuspends.carries.congr (fun _ => rfl) fun _ => .inl, hsuspends.ends⟩
      · exact ((hsuspends.rebuild hkept hreleased env epoch fates).handle env .retryRetirements
          nofun nofun fun _ => id).resolve_left hreleased

/-- The step in which the fence is raised. -/
theorem waits_replaced (a : AuthorityAction) (hown : s.OwnOpens owner a)
    (hacked : s.Notes a acked acked') {old : ActiveStream}
    (hreplaces : Replaces path old s a) :
    (s.step a).Holds (Waits owner acked' path old.binding True False)
      (Suspends acked' path old.binding) := by
  have hmono := hacked.mono
  obtain ⟨hraised, hnew⟩ := hreplaces
  cases a with
  | deliver message env =>
    cases s with
    | down file => cases hraised
    | up d =>
      have horderly := (Orderly.mono hs hmono).received env
      have hopens : ∀ request, message = .openStream request → Owned owner request := by
        rintro request rfl
        exact hown
      have hraises := raises_handle horderly.tracked horderly.sound env message hopens
        (acked_of_delivered hacked)
      obtain ⟨fence, hfence, hold⟩ := Option.bind_eq_some_iff.mp hraised
      refine (hraises.raised path fence old hfence hold).resolve_left ?_
      rintro ⟨known, hknown, hsame⟩
      refine hnew (Option.bind_eq_some_iff.mpr ⟨known, hknown, hsame⟩)
  | crash => cases hraised
  | restart env =>
    have hkept := (kept_of_holds hs).mono hmono
    change (start env s.file).fenced path = some old at hraised
    show (start env s.file).Holds _ _
    unfold start at hraised ⊢
    obtain ⟨epoch, fates, hok⟩ | hfail | ⟨epoch, hfail⟩ := recover_cases env s.file
    · rw [hok] at hraised ⊢
      have horderly := hkept.rebuild env epoch fates
      have hraises := raises_handle horderly.tracked horderly.sound env .retryRetirements
        nofun nofun
      obtain ⟨fence, hfence, hold⟩ := Option.bind_eq_some_iff.mp hraised
      refine (hraises.raised path fence old hfence hold).resolve_left ?_
      rintro ⟨known, hknown, hsame⟩
      rw [(rebuilt_fence (by simp) path known hknown).1] at hsame
      cases hsame
    · rw [hfail] at hraised
      cases hraised
    · rw [hfail] at hraised
      cases hraised

end

theorem orderly_run {actions : List AuthorityAction}
    (h : Guarded (OwnOpens owner) step initial actions) :
    (run actions).Holds
      (Orderly owner fun endpoint incarnation =>
        Happened (Acknowledges endpoint incarnation) step initial actions)
      (Kept owner fun endpoint incarnation =>
        Happened (Acknowledges endpoint incarnation) step initial actions) := by
  induction actions using reverseRecOn with
  | nil =>
    exact ⟨⟨⟨by simp, by simp, by simp⟩, fun _ _ hknown => hknown.elim⟩,
      NamespaceSnapshot.consistent_default, by simp⟩
  | append_singleton actions a ih =>
    obtain ⟨hbefore, hown, -⟩ := guarded_append.mp h
    rw [run_append]
    exact orderly_step (ih hbefore) a hown fun _ _ => happened_concat.mpr

/-- From the step in which a generation is displaced. -/
theorem waits_run {before after : List AuthorityAction} {a : AuthorityAction}
    {old : ActiveStream} (hreplaces : Replaces path old (run before) a)
    (h : Guarded (OwnOpens owner) step initial (before ++ a :: after)) :
    Happened (Rebinds path) step ((run before).step a) after ∨
      Released (fun endpoint incarnation => Happened (Acknowledges endpoint incarnation)
        step initial (before ++ a :: after)) old.binding ∨
      (run (before ++ a :: after)).Holds
        (Waits owner (fun endpoint incarnation => Happened
          (Acknowledges endpoint incarnation) step initial (before ++ a :: after)) path
          old.binding True (after ≠ []))
        (Suspends (fun endpoint incarnation => Happened
          (Acknowledges endpoint incarnation) step initial (before ++ a :: after)) path
          old.binding) := by
  induction after using reverseRecOn with
  | nil =>
    obtain ⟨hbefore, hown, -⟩ := guarded_append.mp h
    have hraised := waits_replaced (orderly_run hbefore) a hown
      (fun _ _ => happened_concat.mpr) hreplaces
    refine .inr (.inr ?_)
    rw [run_append]
    simpa using hraised
  | append_singleton after last ih =>
    rw [← cons_append, ← append_assoc] at h ⊢
    obtain ⟨hbefore, hown, -⟩ := guarded_append.mp h
    have hacked (endpoint : ActorAddress) (incarnation : StreamIncarnation)
        (hold : Happened (Acknowledges endpoint incarnation) step initial
            (before ++ a :: after) ∨
          Acknowledges endpoint incarnation (run (before ++ a :: after)) last) :
        Happened (Acknowledges endpoint incarnation) step initial
          (before ++ a :: after ++ [last]) := happened_concat.mpr hold
    rcases ih hbefore with hrebound | hreleased | hwaits
    · exact .inl (happened_concat.mpr (.inl hrebound))
    · exact .inr (.inl fun endpoint hend => hacked _ _ (.inl (hreleased endpoint hend)))
    · rcases waits_step (orderly_run hbefore) hwaits last hown hacked with
        hrebinds | hreleased | hafter
      · rw [run_append] at hrebinds
        exact .inl (happened_concat.mpr (.inr hrebinds))
      · exact .inr (.inl hreleased)
      · refine .inr (.inr ?_)
        rw [run_append]
        simpa using hafter

/-- An open that is in the directory, until it is answered, cancelled or lost in a restart. -/
theorem pends_run {before after : List AuthorityAction} {opening : StreamOpening}
    (h : Guarded (OwnOpens owner) step initial (before ++ after))
    (hpends : (run before).Pends opening) :
    Happened (Answers opening) step (run before) after ∨
      (run (before ++ after)).Pends opening ∨
      Happened (Cancels opening) step (run before) after ∨
      Happened Interrupts step (run before) after := by
  induction after using reverseRecOn with
  | nil =>
    rw [append_nil]
    exact .inr (.inl hpends)
  | append_singleton after last ih =>
    rw [← append_assoc] at h ⊢
    obtain ⟨hbefore, -, -⟩ := guarded_append.mp h
    simp only [happened_concat]
    rcases ih hbefore with hanswered | ⟨d, hup, hpends⟩ | hcancelled | hinterrupted
    · exact .inl (.inl hanswered)
    · have horderly := orderly_run hbefore
      have hlast : after.foldl step (run before) = .up d := by rw [← run_append, hup]
      rw [hup] at horderly
      rw [run_append, hup, hlast]
      cases last with
      | deliver message env =>
        by_cases hcancels : Cancels opening (.up d) (.deliver message env)
        · exact .inr (.inr (.inl (.inr hcancels)))
        · have hheld : (d.received env).HeldOwn fun _ => True := fun path fence hfence request
            hmem => ⟨(horderly.sound.held path fence hfence request hmem).1, trivial⟩
          have haccounts : ((d.received env).handle env message).Accounts opening := by
            have hreceived : (d.received env).Accounts opening := .inr hpends
            refine hreceived.handle hheld env message ?_
            rintro requestId replyTo rfl
            exact hcancels ⟨requestId, replyTo, env, rfl⟩
          rcases haccounts with hanswered | hpends'
          · exact .inl (.inr hanswered)
          · exact .inr (.inl ⟨_, rfl, hpends'⟩)
      | crash => exact .inr (.inr (.inr (.inr (.inl rfl))))
      | restart env => exact .inr (.inr (.inr (.inr (.inr ⟨env, rfl⟩))))
    · exact .inr (.inr (.inl (.inl hcancelled)))
    · exact .inr (.inr (.inr (.inl hinterrupted)))

/-- A stream is replaced: its ends acknowledge, and the opens that were held are matched. -/
def sampleReplaced : List AuthorityAction :=
  [.restart {}, sampleOpen 1 .source 4 4, sampleOpen 1 .sink 5 5, sampleOpen 1 .source 6 6,
    .deliver (.streamDisplaced 4 ⟨1, 1⟩) {}, .deliver (.streamDisplaced 5 ⟨1, 1⟩) {},
    sampleOpen 1 .sink 7 7]

def sampleOld : ActiveStream := ⟨sampleMatch, 4, 5⟩

/-- The message answers the open. -/
def answers (opening : StreamOpening) : Sent → Bool
  | .opened other _ _ _ _ => other = opening
  | _ => false

instance (sent : List Sent) (opening : StreamOpening) : Decidable (Answered sent opening) :=
  decidable_of_iff (∃ m ∈ sent, answers opening m = true) <| by
    constructor
    · rintro ⟨m, hmem, hanswers⟩
      cases m with
      | opened other target requestId epoch result =>
        rw [of_decide_eq_true hanswers] at hmem
        exact ⟨target, requestId, epoch, result, hmem⟩
      | _ => exact absurd hanswers Bool.false_ne_true
    · rintro ⟨target, requestId, epoch, result, hmem⟩
      exact ⟨_, hmem, decide_eq_true rfl⟩

/-- The open is held by the fence of its path, or waits there. -/
def pends (s : Authority) (opening : StreamOpening) : Bool :=
  match s with
  | .down _ => false
  | .up d =>
    (d.streamReplacementFences[opening.path]?.any fun fence =>
        fence.requests.any fun request => request.opening = opening) ||
      match d.streams[opening.path]? with
      | some (.pending pending) => pending.opening opening.path = opening
      | _ => false

theorem pends_iff {s : Authority} {opening : StreamOpening} :
    s.pends opening = true ↔ s.Pends opening := by
  constructor
  · intro h
    cases s with
    | down file => exact absurd h Bool.false_ne_true
    | up d =>
      simp only [pends, Bool.or_eq_true, Option.any_eq_true, any_eq_true,
        decide_eq_true_eq] at h
      refine ⟨d, rfl, ?_⟩
      rcases h with ⟨fence, hfence, request, hmem, hopening⟩ | h
      · exact .inl ⟨fence, hfence, request, hmem, hopening⟩
      · split at h
        · rename_i pending hentry
          exact .inr ⟨pending, hentry, of_decide_eq_true h⟩
        · exact absurd h Bool.false_ne_true
  · rintro ⟨d, rfl, ⟨fence, hfence, request, hmem, hopening⟩ | ⟨pending, hentry, hopening⟩⟩
    · simp only [pends, hfence, Option.any_some, Bool.or_eq_true, any_eq_true]
      exact .inl ⟨request, hmem, decide_eq_true hopening⟩
    · simp [pends, hentry, hopening]

instance (s : Authority) (opening : StreamOpening) : Decidable (s.Pends opening) :=
  decidable_of_iff _ pends_iff

instance (opening : StreamOpening) (s : Authority) (a : AuthorityAction) :
    Decidable (Answers opening s a) :=
  inferInstanceAs (Decidable (Answered (s.step a).sent opening))

/-- The directory goes down while a fence holds an open. -/
def sampleLost : List AuthorityAction :=
  sampleReplaced.take 4 ++ [.crash, .restart {}]

end Authority

end Swactor.Namespace
