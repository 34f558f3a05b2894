import Swactor.Namespace.Consistency
import Swactor.Namespace.Replay

/-!
# The generations of a stream

A generation of a stream is named by the epoch of the directory and the revision of the node. When
every open uses an endpoint of its own, an endpoint takes part in one generation only: its
operation is recorded with the path it joined and cannot join another. No displacement that is
still to be acknowledged names the revision of another generation.
-/
namespace Swactor.Namespace

open NamespaceSnapshot DataDirectory Maps List
open Std (ExtTreeMap)

section Edits

variable {snapshot : NamespaceSnapshot} {entry : ActorAddress × StreamIncarnation}
  {incarnation : StreamIncarnation} {endpoints : List ActorAddress}

theorem mem_streamRetirements_displaceAll :
    entry ∈ (snapshot.displaceAll endpoints incarnation).streamRetirements ↔
      entry.1 ∈ endpoints ∧ entry.2 = incarnation ∨
        entry.1 ∉ endpoints ∧ entry ∈ snapshot.streamRetirements := by
  unfold displaceAll
  induction endpoints generalizing snapshot with
  | nil => simp
  | cons endpoint rest ih =>
    obtain ⟨known, other⟩ := entry
    rw [foldl_cons, ih]
    simp only [displace, mem_append, mem_filter, mem_cons,
      decide_eq_true_eq, not_mem_nil, or_false, Prod.mk.injEq]
    grind

variable {endpoint : ActorAddress}

theorem mem_streamRetirements_acknowledge :
    entry ∈ (snapshot.acknowledge endpoint).streamRetirements ↔
      entry ∈ snapshot.streamRetirements ∧ entry.1 ≠ endpoint := by
  simp [acknowledge]

theorem streamRetirements_retire (snapshot : NamespaceSnapshot)
    (retired : Option ActorAddress) :
    (snapshot.retire retired).streamRetirements = snapshot.streamRetirements := by
  cases retired with
  | none => rfl
  | some source =>
    unfold retire
    dsimp only
    split <;> rfl

theorem streamRetirements_moved (snapshot : NamespaceSnapshot) (source destination : DataPath)
    (revision : ℕ) : (snapshot.moved source destination revision).streamRetirements =
      snapshot.streamRetirements := by
  unfold moved
  split <;> rfl

theorem getElem?_awaitAll {pending : ExtTreeMap ActorAddress PendingStreamDisplacement compare} :
    (awaitAll pending endpoints incarnation)[endpoint]? =
      if endpoint ∈ endpoints then some ⟨incarnation, false⟩ else pending[endpoint]? := by
  unfold awaitAll
  induction endpoints generalizing pending with
  | nil => simp
  | cons known rest ih =>
    rw [foldl_cons, ih, getElem?_insert_ite]
    by_cases hrest : endpoint ∈ rest
    · simp [hrest]
    · by_cases hknown : known = endpoint
      · simp [hknown]
      · simp [hrest, hknown, Ne.symm hknown]

theorem mem_endpoints {active : ActiveStream} :
    endpoint ∈ active.endpoints ↔
      endpoint = active.binding.source ∨ endpoint = active.binding.sink := by
  simp [ActiveStream.endpoints]

end Edits

/-- The endpoints of an entry, each with its operation. -/
def RuntimeStream.members : RuntimeStream → List (ActorAddress × OperationId)
  | .pending stream => [(stream.endpoint, stream.operationId)]
  | .active stream =>
      [(stream.binding.source, stream.sourceOperation),
        (stream.binding.sink, stream.sinkOperation)]

/-- The operation is recorded as an open of the path. -/
def Joined (snapshot : NamespaceSnapshot) (operationId : OperationId) (path : DataPath) : Prop :=
  ∃ operation, snapshot.operations[operationId]? = some operation ∧
    operation.request = .bindStream path

variable {operationId : OperationId}

theorem Joined.mono {snapshot next : NamespaceSnapshot} {path : DataPath}
    (h : Joined snapshot operationId path) (hextends : Extends snapshot next) :
    Joined next operationId path := by
  obtain ⟨operation, hoperation, hrequest⟩ := h
  exact ⟨operation, hextends _ _ hoperation, hrequest⟩

theorem Joined.unique {snapshot : NamespaceSnapshot} {path path' : DataPath}
    (h : Joined snapshot operationId path) (h' : Joined snapshot operationId path') :
    path = path' := by
  obtain ⟨operation, hoperation, hrequest⟩ := h
  obtain ⟨operation', hoperation', hrequest'⟩ := h'
  obtain rfl : operation = operation' := by simpa [hoperation] using hoperation'
  simpa [hrequest] using hrequest'

/-- The generation is past or the one that is at its path now: no entry has its revision in
another epoch, and its revision is not one that is still to be given out. -/
def DataDirectory.Fresh (d : DataDirectory) (incarnation : StreamIncarnation) : Prop :=
  incarnation.revision < d.snapshot.nextRevision ∧
    ∀ (path : DataPath) (entry : RuntimeStream), d.streams[path]? = some entry →
      entry.revision = incarnation.revision → incarnation.authorityEpoch = d.authorityEpoch

/-- The revisions of the entries are older ones or new. -/
structure Later (d d' : DataDirectory) : Prop where
  epoch : d'.authorityEpoch = d.authorityEpoch
  next : d.snapshot.nextRevision ≤ d'.snapshot.nextRevision
  entries : ∀ (path : DataPath) (entry : RuntimeStream), d'.streams[path]? = some entry →
    (∃ (path' : DataPath) (old : RuntimeStream), d.streams[path']? = some old ∧
      old.revision = entry.revision) ∨ d.snapshot.nextRevision ≤ entry.revision

section Later

variable {scope : Scope} {d d' : DataDirectory} {next : NamespaceSnapshot}

theorem Later.of_streams (hepoch : d'.authorityEpoch = d.authorityEpoch)
    (hnext : d.snapshot.nextRevision ≤ d'.snapshot.nextRevision)
    (hstreams : ∀ (path : DataPath) (entry : RuntimeStream), d'.streams[path]? = some entry →
      d.streams[path]? = some entry) : Later d d' :=
  ⟨hepoch, hnext, fun path entry hentry =>
    .inl ⟨path, entry, hstreams path entry hentry, rfl⟩⟩

theorem DataDirectory.Fresh.later {incarnation : StreamIncarnation} (h : d.Fresh incarnation)
    (hlater : Later d d') : d'.Fresh incarnation := by
  have hnext := hlater.next
  have hold := h.1
  refine ⟨by omega, fun path entry hentry hrevision => ?_⟩
  rw [hlater.epoch]
  rcases hlater.entries path entry hentry with ⟨path', old, hmem, hsame⟩ | hnew
  · exact h.2 path' old hmem (hsame.trans hrevision)
  · omega

theorem Update.later (h : Update scope d next d') (fates : List CommitFate) :
    Later d { d' with store := ⟨next, next, fates⟩ } := by
  have hnext := h.nextRevision_le
  cases h with
  | recorded | retired | settled | displaced =>
    exact .of_streams rfl hnext fun _ _ => id
  | fenced request active =>
    exact .of_streams rfl hnext fun _ _ hentry => (getElem?_erase_eq_some.mp hentry).2
  | joined request pending hown hpending =>
    refine ⟨rfl, hnext, fun path entry hentry => ?_⟩
    rcases getElem?_insert_eq_some.mp hentry with ⟨rfl, rfl⟩ | ⟨-, hentry⟩
    · exact .inl ⟨_, _, hpending, (revision_matched request pending).symm⟩
    · exact .inl ⟨path, entry, hentry, rfl⟩
  | bound request retired =>
    refine ⟨rfl, hnext, fun path entry hentry => ?_⟩
    rcases getElem?_insert_eq_some.mp hentry with ⟨rfl, rfl⟩ | ⟨-, hentry⟩
    · exact .inr le_rfl
    · exact .inl ⟨path, entry, hentry, rfl⟩

theorem Move.later (h : Move scope d d') : Later d d' := by
  cases h with
  | committed fates hupdate => exact hupdate.later fates
  | renewed path pending requestId replyTo hpending =>
    refine ⟨rfl, le_rfl, fun known entry hentry => ?_⟩
    rcases getElem?_insert_eq_some.mp hentry with ⟨rfl, rfl⟩ | ⟨-, hentry⟩
    · exact .inl ⟨_, _, hpending, rfl⟩
    · exact .inl ⟨known, entry, hentry, rfl⟩
  | dropped path =>
    exact .of_streams rfl le_rfl fun _ _ hentry => (getElem?_erase_eq_some.mp hentry).2
  | _ => exact .of_streams rfl le_rfl fun _ _ => id

end Later

/-- The open uses an endpoint of its own. -/
def Owned (owner : ActorAddress → OperationId) (request : StreamOpenRequest) : Prop :=
  owner request.endpoint = request.operationId

/-- What holds of the generations while opens use endpoints of their own. -/
structure Sound (owner : ActorAddress → OperationId) (scope : Scope) (d : DataDirectory) :
    Prop where
  consistent : d.Consistent
  members : ∀ (path : DataPath) (entry : RuntimeStream), d.streams[path]? = some entry →
    ∀ member ∈ entry.members, owner member.1 = member.2 ∧ Joined d.snapshot member.2 path
  epoch : ∀ (path : DataPath) (active : ActiveStream),
    d.streams[path]? = some (.active active) →
      active.binding.incarnation = ⟨d.authorityEpoch, active.binding.revision⟩
  memory : ∀ entry ∈ d.snapshot.streamRetirements, d.Fresh entry.2
  file : ∀ entry ∈ d.store.file.streamRetirements, d.Fresh entry.2
  gone : ∀ active, scope.gone active → d.Fresh active.binding.incarnation
  held : d.HeldOwn (Owned owner)

section Sound

variable {owner : ActorAddress → OperationId} {scope : Scope} {d d' : DataDirectory}
  {next : NamespaceSnapshot}

/-- The generation of an active stream is the one of its node. -/
theorem Sound.fresh (h : Sound owner scope d) {path : DataPath} {active : ActiveStream}
    (hactive : d.streams[path]? = some (.active active)) :
    d.Fresh active.binding.incarnation := by
  rw [h.epoch path active hactive]
  have hnode := h.consistent.streams path _ hactive
  exact ⟨(h.consistent.memory.inRange (.inr hnode)).2, fun _ _ _ _ => rfl⟩

/-- A commit adds displacements only of streams that are at their paths or have just left
them. -/
theorem Update.retirements (h : Update scope d next d') :
    ∀ entry ∈ next.streamRetirements, entry ∈ d.snapshot.streamRetirements ∨
      (∃ active, scope.gone active ∧ entry.2 = active.binding.incarnation) ∨
      ∃ (path : DataPath) (active : ActiveStream), d.streams[path]? = some (.active active) ∧
        entry.2 = active.binding.incarnation := by
  intro entry hentry
  cases h with
  | recorded | retired | joined => exact .inl hentry
  | displaced active endpoint hgone =>
    rcases mem_streamRetirements_displaceAll.mp hentry with ⟨-, hsame⟩ | ⟨-, hentry⟩
    · exact .inr (.inl ⟨active, hgone, hsame⟩)
    · exact .inl hentry
  | settled endpoint => exact .inl (mem_streamRetirements_acknowledge.mp hentry).1
  | fenced request active hown hactive =>
    rcases mem_streamRetirements_displaceAll.mp hentry with ⟨-, hsame⟩ | ⟨-, hentry⟩
    · exact .inr (.inr ⟨_, active, hactive, hsame⟩)
    · exact .inl hentry
  | bound request retired =>
    simp only [NamespaceStore.mutated, record,
      streamRetirements_retire] at hentry
    exact .inl hentry

/-- The displacements of a snapshot that is committed, or only reaches the file. -/
theorem Sound.update_fresh (h : Sound owner scope d) (hupdate : Update scope d next d') :
    ∀ entry ∈ next.streamRetirements, d.Fresh entry.2 := by
  intro entry hentry
  rcases hupdate.retirements entry hentry with hold | ⟨active, hgone, hsame⟩ |
    ⟨path, active, hactive, hsame⟩
  · exact h.memory entry hold
  · rw [hsame]
    exact h.gone active hgone
  · rw [hsame]
    exact h.fresh hactive

/-- What a stable part of the directory needs to stay sound: entries keep their members, and
nothing is said about new generations. -/
theorem Sound.frame (h : Sound owner scope d) (hconsistent : d'.Consistent)
    (hextends : Extends d.snapshot d'.snapshot) (hlater : Later d d')
    (hstreams : ∀ (path : DataPath) (entry : RuntimeStream), d'.streams[path]? = some entry →
      ∃ old, d.streams[path]? = some old ∧ entry.members = old.members ∧
        ∀ active, entry = .active active → entry = old)
    (hmemory : ∀ entry ∈ d'.snapshot.streamRetirements, d.Fresh entry.2)
    (hfile : ∀ entry ∈ d'.store.file.streamRetirements, d.Fresh entry.2)
    (hheld : d'.HeldOwn (Owned owner)) : Sound owner scope d' where
  consistent := hconsistent
  members path entry hentry member hmember := by
    obtain ⟨old, hold, hmembers, -⟩ := hstreams path entry hentry
    rw [hmembers] at hmember
    obtain ⟨howner, hjoined⟩ := h.members path old hold member hmember
    exact ⟨howner, hjoined.mono hextends⟩
  epoch path active hactive := by
    obtain ⟨old, hold, -, hsame⟩ := hstreams path _ hactive
    rw [← hsame active rfl] at hold
    rw [hlater.epoch]
    exact h.epoch path active hold
  memory entry hentry := (hmemory entry hentry).later hlater
  file entry hentry := (hfile entry hentry).later hlater
  gone active hgone := (h.gone active hgone).later hlater
  held := hheld

/-- Entries that are as they were. -/
theorem exists_same_entry {streams : ExtTreeMap DataPath RuntimeStream compare} :
    ∀ (path : DataPath) (entry : RuntimeStream), streams[path]? = some entry →
      ∃ old, streams[path]? = some old ∧ entry.members = old.members ∧
        ∀ active, entry = .active active → entry = old :=
  fun _ entry hentry => ⟨entry, hentry, rfl, fun _ _ => rfl⟩

theorem members_matched (d : DataDirectory) (request : StreamOpenRequest)
    (pending : PendingStream) {member : ActorAddress × OperationId}
    (h : member ∈ (RuntimeStream.active (d.matched request pending)).members) :
    member = (request.endpoint, request.operationId) ∨
      member = (pending.endpoint, pending.operationId) := by
  unfold matched at h
  cases hrole : request.role <;> simp only [hrole, RuntimeStream.members] at h <;> grind

theorem incarnation_matched (d : DataDirectory) (request : StreamOpenRequest)
    (pending : PendingStream) :
    (d.matched request pending).binding.incarnation = ⟨d.authorityEpoch, pending.revision⟩ := by
  unfold matched
  cases request.role <;> rfl

theorem joined_record {snapshot : NamespaceSnapshot} {operationId : OperationId}
    {path : DataPath} (result : PersistedMutationResult) :
    Joined (snapshot.record operationId (.bindStream path) result) operationId path :=
  ⟨⟨.bindStream path, result⟩, by simp [record], rfl⟩

section

variable (h : Sound owner scope d) (hscope : ∀ request, scope.own request → Owned owner request)

include h hscope

theorem Sound.updated (hupdate : Update scope d next d') (fates : List CommitFate) :
    Sound owner scope { d' with store := ⟨next, next, fates⟩ } := by
  have hmove : Move scope d { d' with store := ⟨next, next, fates⟩ } := .committed fates hupdate
  have hconsistent := h.consistent.updated hupdate fates
  have hlater := hupdate.later fates
  have hextends := hupdate.extends
  have hfresh := h.update_fresh hupdate
  have hheld := heldOwn_move hscope hmove h.held
  cases hupdate with
  | recorded | retired | displaced | settled =>
    exact h.frame hconsistent hextends hlater exists_same_entry hfresh hfresh hheld
  | fenced request active =>
    refine h.frame hconsistent hextends hlater (fun path entry hentry => ?_) hfresh hfresh hheld
    exact exists_same_entry path entry (getElem?_erase_eq_some.mp hentry).2
  | joined request pending hown hpending =>
    refine ⟨hconsistent, fun path entry hentry member hmember => ?_,
      fun path active hactive => ?_, fun entry hentry => (hfresh entry hentry).later hlater,
      fun entry hentry => (hfresh entry hentry).later hlater,
      fun active hgone => (h.gone active hgone).later hlater, hheld⟩
    · rcases getElem?_insert_eq_some.mp hentry with ⟨rfl, rfl⟩ | ⟨-, hentry⟩
      · rcases members_matched d request pending hmember with rfl | rfl
        · exact ⟨hscope request hown, joined_record _⟩
        · have hwaiting := h.members _ _ hpending _ (mem_singleton.mpr rfl)
          exact ⟨hwaiting.1, hwaiting.2.mono hextends⟩
      · obtain ⟨howner, hjoined⟩ := h.members path entry hentry member hmember
        exact ⟨howner, hjoined.mono hextends⟩
    · rcases getElem?_insert_eq_some.mp hactive with ⟨rfl, hsame⟩ | ⟨-, hactive⟩
      · cases hsame
        rw [incarnation_matched, revision_matched]
      · exact h.epoch path active hactive
  | bound request retired hown hvacant hfence hnew =>
    refine ⟨hconsistent, fun path entry hentry member hmember => ?_,
      fun path active hactive => ?_, fun entry hentry => (hfresh entry hentry).later hlater,
      fun entry hentry => (hfresh entry hentry).later hlater,
      fun active hgone => (h.gone active hgone).later hlater, hheld⟩
    · rcases getElem?_insert_eq_some.mp hentry with ⟨rfl, rfl⟩ | ⟨-, hentry⟩
      · rw [mem_singleton.mp hmember]
        exact ⟨hscope request hown, joined_record _⟩
      · obtain ⟨howner, hjoined⟩ := h.members path entry hentry member hmember
        exact ⟨howner, hjoined.mono hextends⟩
    · rcases getElem?_insert_eq_some.mp hactive with ⟨-, hsame⟩ | ⟨-, hactive⟩
      · cases hsame
      · exact h.epoch path active hactive

theorem Sound.move (hmove : Move scope d d') : Sound owner scope d' := by
  have hconsistent := h.consistent.moved hmove
  have hlater := hmove.later
  have hheld := heldOwn_move hscope hmove h.held
  have hextends : Extends d.snapshot d'.snapshot :=
    (stable_extends d.snapshot).move hmove fun _ _ => id
  cases hmove with
  | committed fates hupdate => exact h.updated hscope hupdate fates
  | tried fates hupdate =>
    exact h.frame hconsistent hextends hlater exists_same_entry h.memory
      (h.update_fresh hupdate) hheld
  | renewed path pending requestId replyTo hpending =>
    refine h.frame hconsistent hextends hlater (fun known entry hentry => ?_) h.memory h.file
      hheld
    rcases getElem?_insert_eq_some.mp hentry with ⟨rfl, rfl⟩ | ⟨-, hentry⟩
    · exact ⟨_, hpending, rfl, nofun⟩
    · exact exists_same_entry known entry hentry
  | dropped path =>
    refine h.frame hconsistent hextends hlater (fun known entry hentry => ?_) h.memory h.file
      hheld
    exact exists_same_entry known entry (getElem?_erase_eq_some.mp hentry).2
  | _ => exact h.frame hconsistent hextends hlater exists_same_entry h.memory h.file hheld

theorem Sound.moves (hmoves : Moves scope d d') : Sound owner scope d' := by
  induction hmoves with
  | refl => exact h
  | tail _ hmove ih => exact ih.move hscope hmove

end

end Sound

end Swactor.Namespace
