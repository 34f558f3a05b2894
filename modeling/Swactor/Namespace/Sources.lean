import Swactor.Namespace.Displacements

/-!
# Where the sources of blobs are

A source is bound to one path, or it has been displaced and is to retire, but never both: a
mutation that takes a source from its path notes its retirement in the same commit. That needs
registrations to bring addresses of their own. A commit that fails after the file was replaced
leaves the file with the paths and the retirements that the mutation would have led to.
-/
namespace Swactor.Namespace

open DataDirectory
open Std (ExtTreeMap ExtTreeSet)

/-- The binding of the path is recovered from the actor. -/
def NamespaceSnapshot.Names (snapshot : NamespaceSnapshot) (actor : ActorAddress)
    (path : DataPath) : Prop :=
  ∃ binding node owner, snapshot.bindings[path]? = some binding ∧
    binding.recovery = .actor actor node owner

/-- The actor is the source of the path or the one that it is recovered from. -/
def DataDirectory.Uses (d : DataDirectory) (actor : ActorAddress) (path : DataPath) : Prop :=
  d.boundSource path = some actor ∨ d.snapshot.Names actor path

/-- The source has retired, or it is noted in memory and in the file that it is to. -/
def DataDirectory.Retires (handled : ActorAddress → Prop) (d : DataDirectory)
    (actor : ActorAddress) : Prop :=
  handled actor ∨ actor ∈ d.snapshot.retirements ∧ actor ∈ d.store.file.retirements

/-- In a snapshot. `maker` is the operation that an address belongs to, if it was brought by a
registration. -/
structure Neat (maker : ActorAddress → Option OperationId) (snapshot : NamespaceSnapshot) :
    Prop where
  apart : ∀ {actor path path'}, snapshot.Names actor path → snapshot.Names actor path' →
    path = path'
  live : ∀ {actor path}, snapshot.Names actor path → actor ∉ snapshot.retirements
  made : ∀ {actor path}, snapshot.Names actor path → (maker actor).isSome
  recorded : ∀ {actor operationId},
    (actor ∈ snapshot.retirements ∨ ∃ path, snapshot.Names actor path) →
      maker actor = some operationId → operationId ∈ snapshot.operations

/-- In the directory. The sources in `watched` are bound or retire, those in `displaced` retire. -/
structure Exact (maker : ActorAddress → Option OperationId)
    (handled watched displaced : ActorAddress → Prop) (d : DataDirectory) : Prop where
  same : ∀ actor, actor ∈ d.snapshot.retirements ↔ actor ∈ d.pendingRetirements
  apart : ∀ {actor path path'}, d.Uses actor path → d.Uses actor path' → path = path'
  live : ∀ {actor path}, d.Uses actor path → actor ∉ d.snapshot.retirements
  made : ∀ {actor path}, d.snapshot.Names actor path → (maker actor).isSome
  recorded : ∀ {actor operationId}, (actor ∈ d.snapshot.retirements ∨ ∃ path, d.Uses actor path) →
    maker actor = some operationId → operationId ∈ d.snapshot.operations
  file : Neat maker d.store.file
  watched : ∀ actor, watched actor →
    (∃ path, d.boundSource path = some actor) ∨ d.Retires handled actor
  displaced : ∀ actor, displaced actor → d.Retires handled actor

/-- The sources and what is persisted of them are as they were; the file may have caught up with
memory. -/
structure Calm (d d' : DataDirectory) : Prop where
  sources : d'.sources = d.sources
  pending : d'.pendingRetirements = d.pendingRetirements
  bindings : d'.snapshot.bindings = d.snapshot.bindings
  retirements : d'.snapshot.retirements = d.snapshot.retirements
  grows : Extends d.snapshot d'.snapshot
  file : d'.store.file = d.store.file ∨ d'.store.file.bindings = d.snapshot.bindings ∧
    d'.store.file.retirements = d.snapshot.retirements ∧ Extends d.snapshot d'.store.file

section Calm

variable {maker : ActorAddress → Option OperationId}
  {handled watched displaced : ActorAddress → Prop}
  {d d' : DataDirectory}

theorem Calm.of_store (hsources : d'.sources = d.sources)
    (hpending : d'.pendingRetirements = d.pendingRetirements)
    (hsnapshot : d'.snapshot = d.snapshot) (hfile : d'.store.file = d.store.file) : Calm d d' := by
  refine ⟨hsources, hpending, by rw [hsnapshot], by rw [hsnapshot], ?_, .inl hfile⟩
  rw [hsnapshot]
  exact fun _ _ => id

/-- A move that leaves the sources alone. -/
theorem Move.calm {scope : Scope} (h : Move scope d d') (hrests : Rests d d') : Calm d d' where
  sources := hrests.sources
  pending := hrests.pending
  bindings := hrests.bindings
  retirements := hrests.retirements
  grows := (stable_extends d.snapshot).move h fun _ _ => id
  file := by
    cases h with
    | tried fates hupdate | committed fates hupdate =>
      exact hrests.file.imp_right fun ⟨hbindings, hretirements⟩ =>
        ⟨hbindings, hretirements, hupdate.extends⟩
    | _ => exact .inl rfl

end Calm

section Exact

variable {maker : ActorAddress → Option OperationId}
  {handled watched displaced : ActorAddress → Prop}
  {d d' : DataDirectory} {next : NamespaceSnapshot}

theorem NamespaceSnapshot.Names.congr {snapshot snapshot' : NamespaceSnapshot}
    {actor : ActorAddress} {path : DataPath} (h : snapshot.Names actor path)
    (hbindings : snapshot'.bindings = snapshot.bindings) : snapshot'.Names actor path := by
  obtain ⟨binding, node, owner, hbinding, hrecovery⟩ := h
  exact ⟨binding, node, owner, by rw [hbindings]; exact hbinding, hrecovery⟩

theorem Neat.congr {snapshot : NamespaceSnapshot} (h : Neat maker snapshot)
    (hbindings : next.bindings = snapshot.bindings)
    (hretirements : next.retirements = snapshot.retirements) (hextends : Extends snapshot next) :
    Neat maker next := by
  constructor
  · exact fun hnames hnames' => h.apart (hnames.congr hbindings.symm) (hnames'.congr hbindings.symm)
  · rw [hretirements]
    exact fun hnames => h.live (hnames.congr hbindings.symm)
  · exact fun hnames => h.made (hnames.congr hbindings.symm)
  · rw [hretirements]
    refine fun hmentioned hmaker => mem_operations_of_extends hextends (h.recorded ?_ hmaker)
    exact hmentioned.imp_right fun ⟨path, hnames⟩ => ⟨path, hnames.congr hbindings.symm⟩

theorem Exact.neat (h : Exact maker handled watched displaced d) : Neat maker d.snapshot := by
  constructor
  · exact fun hnames hnames' => h.apart (.inr hnames) (.inr hnames')
  · exact fun hnames => h.live (.inr hnames)
  · exact h.made
  · refine fun hmentioned hmaker => h.recorded ?_ hmaker
    exact hmentioned.imp_right fun ⟨path, hnames⟩ => ⟨path, .inr hnames⟩

theorem Exact.calm (h : Exact maker handled watched displaced d) (hcalm : Calm d d') :
    Exact maker handled watched displaced d' := by
  have hbound (path : DataPath) : d'.boundSource path = d.boundSource path := by
    unfold boundSource
    rw [hcalm.sources]
  have huses {actor : ActorAddress} {path : DataPath} (hu : d'.Uses actor path) :
      d.Uses actor path := by
    refine hu.imp (fun hsource => ?_) fun hnames => hnames.congr hcalm.bindings.symm
    rw [← hbound]
    exact hsource
  have hretires (actor : ActorAddress) (hold : d.Retires handled actor) :
      d'.Retires handled actor := by
    refine hold.imp_right fun ⟨hmemory, hfile⟩ => ⟨by rw [hcalm.retirements]; exact hmemory, ?_⟩
    rcases hcalm.file with hsame | ⟨-, hsame, -⟩
    · rw [hsame]
      exact hfile
    · rw [hsame]
      exact hmemory
  constructor
  · intro actor
    rw [hcalm.retirements, hcalm.pending]
    exact h.same actor
  · exact fun hu hu' => h.apart (huses hu) (huses hu')
  · rw [hcalm.retirements]
    exact fun hu => h.live (huses hu)
  · exact fun hnames => h.made (hnames.congr hcalm.bindings.symm)
  · rw [hcalm.retirements]
    refine fun hmentioned hmaker =>
      mem_operations_of_extends hcalm.grows (h.recorded ?_ hmaker)
    exact hmentioned.imp_right fun hu => hu.imp fun _ => huses
  · rcases hcalm.file with hsame | ⟨hbindings, hretirements, hextends⟩
    · rw [hsame]
      exact h.file
    · exact h.neat.congr hbindings hretirements hextends
  · refine fun actor hwatched => (h.watched actor hwatched).imp ?_ (hretires actor)
    rintro ⟨path, hpath⟩
    exact ⟨path, (hbound path).trans hpath⟩
  · exact fun actor hdisplaced => hretires actor (h.displaced actor hdisplaced)

/-- A commit fails after the file was replaced. -/
theorem Exact.tried (h : Exact maker handled watched displaced d) (hneat : Neat maker next)
    (hkept : ∀ actor ∈ d.snapshot.retirements, handled actor ∨ actor ∈ next.retirements)
    (fates : List CommitFate) :
    Exact maker handled watched displaced { d with store := ⟨next, d.snapshot, fates⟩ } := by
  have hretires (actor : ActorAddress) (hold : d.Retires handled actor) :
      DataDirectory.Retires handled { d with store := ⟨next, d.snapshot, fates⟩ } actor := by
    rcases hold with hhandled | ⟨hmemory, -⟩
    · exact .inl hhandled
    · exact (hkept actor hmemory).imp_right fun hfile => ⟨hmemory, hfile⟩
  exact { h with
    file := hneat
    watched := fun actor hwatched => (h.watched actor hwatched).imp_right (hretires actor)
    displaced := fun actor hdisplaced => hretires actor (h.displaced actor hdisplaced) }

/-- What a mutation does to the sources: `origin` is the path from which a path has its source,
`brought` are the addresses that the mutation brings to a path, and the source that it retires is
at a path whose source is at no path afterwards. -/
structure Rehomes (maker : ActorAddress → Option OperationId) (d : DataDirectory)
    (next : NamespaceSnapshot) (bound : DataPath → Option ActorAddress)
    (operationId : OperationId) (retired : Option ActorAddress)
    (origin : DataPath → Option DataPath) (brought : ActorAddress → DataPath → Prop) : Prop where
  new : operationId ∉ d.snapshot.operations
  recorded : operationId ∈ next.operations
  grows : Extends d.snapshot next
  retirements : ∀ actor, actor ∈ next.retirements ↔
    actor ∈ d.snapshot.retirements ∨ retired = some actor
  names : ∀ {actor path}, next.Names actor path →
    (∃ before, origin path = some before ∧ d.snapshot.Names actor before) ∨ brought actor path
  sources : ∀ {actor path}, bound path = some actor →
    (∃ before, origin path = some before ∧ d.boundSource before = some actor) ∨
      brought actor path
  injective : ∀ {path path' before}, origin path = some before → origin path' = some before →
    path = path'
  owned : ∀ {actor path}, brought actor path → maker actor = some operationId
  together : ∀ {actor path path'}, brought actor path → brought actor path' → path = path'
  left : ∀ {actor}, retired = some actor →
    ∃ before, d.boundSource before = some actor ∧ ∀ path, origin path ≠ some before
  kept : ∀ {actor before}, d.boundSource before = some actor →
    (∃ path, bound path = some actor) ∨ retired = some actor

section Rehomes

variable {bound : DataPath → Option ActorAddress} {operationId : OperationId}
  {retired : Option ActorAddress} {origin : DataPath → Option DataPath}
  {brought : ActorAddress → DataPath → Prop}

variable {actor : ActorAddress} {path : DataPath}

section

variable (hr : Rehomes maker d next bound operationId retired origin brought)

include hr

theorem Rehomes.uses (hu : bound path = some actor ∨ next.Names actor path) :
    (∃ before, origin path = some before ∧ d.Uses actor before) ∨ brought actor path := by
  rcases hu with hsource | hnames
  · exact (hr.sources hsource).imp_left fun ⟨before, horigin, hold⟩ => ⟨before, horigin, .inl hold⟩
  · exact (hr.names hnames).imp_left fun ⟨before, horigin, hold⟩ => ⟨before, horigin, .inr hold⟩

variable (h : Exact maker handled watched displaced d)

include h

/-- An address that is in use is not one that a new operation brings. -/
theorem Rehomes.not_brought
    (hused : actor ∈ d.snapshot.retirements ∨ ∃ before, d.Uses actor before) :
    ¬brought actor path :=
  fun hbrought => hr.new (h.recorded hused (hr.owned hbrought))

theorem Rehomes.apart {path' : DataPath} (hu : bound path = some actor ∨ next.Names actor path)
    (hu' : bound path' = some actor ∨ next.Names actor path') : path = path' := by
  rcases hr.uses hu with ⟨before, horigin, hold⟩ | hbrought <;>
  rcases hr.uses hu' with ⟨before', horigin', hold'⟩ | hbrought'
  · rw [h.apart hold' hold] at horigin'
    exact hr.injective horigin horigin'
  · exact absurd hbrought' (hr.not_brought h (.inr ⟨before, hold⟩))
  · exact absurd hbrought (hr.not_brought h (.inr ⟨before', hold'⟩))
  · exact hr.together hbrought hbrought'

theorem Rehomes.live (hu : bound path = some actor ∨ next.Names actor path) :
    actor ∉ next.retirements := by
  intro hretired
  rcases (hr.retirements actor).mp hretired with hold | hleft
  · rcases hr.uses hu with ⟨before, -, hused⟩ | hbrought
    · exact h.live hused hold
    · exact hr.not_brought h (.inl hold) hbrought
  · obtain ⟨place, hplace, habsent⟩ := hr.left hleft
    rcases hr.uses hu with ⟨before, horigin, hused⟩ | hbrought
    · rw [h.apart hused (.inl hplace)] at horigin
      exact habsent path horigin
    · exact hr.not_brought h (.inr ⟨place, .inl hplace⟩) hbrought

theorem Rehomes.mentioned {known : OperationId}
    (hu : actor ∈ next.retirements ∨ ∃ path, bound path = some actor ∨ next.Names actor path)
    (hmaker : maker actor = some known) : known ∈ next.operations := by
  have hold (hused : actor ∈ d.snapshot.retirements ∨ ∃ before, d.Uses actor before) :
      known ∈ next.operations := mem_operations_of_extends hr.grows (h.recorded hused hmaker)
  rcases hu with hretired | ⟨path, hu⟩
  · rcases (hr.retirements actor).mp hretired with hmem | hleft
    · exact hold (.inl hmem)
    · obtain ⟨place, hplace, -⟩ := hr.left hleft
      exact hold (.inr ⟨place, .inl hplace⟩)
  · rcases hr.uses hu with ⟨before, -, hused⟩ | hbrought
    · exact hold (.inr ⟨before, hused⟩)
    · obtain rfl : operationId = known := by simpa [hr.owned hbrought] using hmaker
      exact hr.recorded

theorem Rehomes.neat : Neat maker next := by
  constructor
  · exact fun hnames hnames' => hr.apart h (.inr hnames) (.inr hnames')
  · exact fun hnames => hr.live h (.inr hnames)
  · intro actor path hnames
    rcases hr.names hnames with ⟨before, -, hold⟩ | hbrought
    · exact h.made hold
    · rw [hr.owned hbrought]
      rfl
  · refine fun hmentioned hmaker => hr.mentioned h ?_ hmaker
    exact hmentioned.imp_right fun ⟨path, hnames⟩ => ⟨path, .inr hnames⟩

/-- The mutation succeeds. -/
theorem Rehomes.exact (hbound : ∀ path, d'.boundSource path = bound path)
    (hstore : ∃ fates, d'.store = ⟨next, next, fates⟩)
    (hpending : ∀ actor, actor ∈ d'.pendingRetirements ↔
      actor ∈ d.pendingRetirements ∨ retired = some actor) :
    Exact maker handled watched displaced d' := by
  obtain ⟨fates, hstore⟩ := hstore
  have hsnapshot : d'.snapshot = next := by rw [snapshot, hstore]
  have hfile : d'.store.file = next := by rw [hstore]
  have huses {actor : ActorAddress} {path : DataPath} (hu : d'.Uses actor path) :
      bound path = some actor ∨ next.Names actor path := by
    rw [DataDirectory.Uses, hbound, hsnapshot] at hu
    exact hu
  have hnoted (actor : ActorAddress) (hmem : actor ∈ next.retirements) :
      d'.Retires handled actor := .inr (by rw [hsnapshot, hfile]; exact ⟨hmem, hmem⟩)
  have hretires (actor : ActorAddress) (hold : d.Retires handled actor) :
      d'.Retires handled actor := by
    rcases hold with hhandled | ⟨hmemory, -⟩
    · exact .inl hhandled
    · exact hnoted actor ((hr.retirements actor).mpr (.inl hmemory))
  constructor
  · intro actor
    rw [hsnapshot, hr.retirements, hpending, h.same]
  · exact fun hu hu' => hr.apart h (huses hu) (huses hu')
  · rw [hsnapshot]
    exact fun hu => hr.live h (huses hu)
  · rw [hsnapshot]
    exact (hr.neat h).made
  · rw [hsnapshot]
    refine fun hmentioned hmaker => hr.mentioned h ?_ hmaker
    exact hmentioned.imp_right fun hu => hu.imp fun _ => huses
  · rw [hfile]
    exact hr.neat h
  · intro actor hwatched
    rcases h.watched actor hwatched with ⟨before, hbefore⟩ | hold
    · rcases hr.kept hbefore with ⟨path, hpath⟩ | hleft
      · exact .inl ⟨path, (hbound path).trans hpath⟩
      · exact .inr (hnoted actor ((hr.retirements actor).mpr (.inr hleft)))
    · exact .inr (hretires actor hold)
  · exact fun actor hdisplaced => hretires actor (h.displaced actor hdisplaced)

end

end Rehomes

end Exact

end Swactor.Namespace
