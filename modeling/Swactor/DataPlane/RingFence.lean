import Swactor.DataPlane.RingContainment

/-!
# The generation fence

The range of a ring can be installed again while an endpoint of the old ring is still in use.
The new ring carries another generation. An operation that compares the generation in the
header with its own before it touches anything does no harm: up to the comparison it only
loads header fields, and after it the header still carries the generation of the endpoint as
long as nobody installs the ring again during the operation.

`read`, `consume` and `recv_record` do not compare, nor does the use of the slices of a
pinned or of a writable record.
-/
namespace Swactor.DataPlane

open Interleaving Machine Client DataPlane.Ring Status Exposed

/-- The others do not move the generation away from `g`. Anything but a load is made at
generation `g`. -/
def fenced (g : ℕ) : Contract RingOp Ring where
  rely s t := s.generation = g → t.generation = g
  ok o s := (∃ field, o = .load field) ∨ s.generation = g
  refl _ := id
  trans h h' hg := h' (h hg)

@[simp] theorem Ring.generation_exec (capacity : ℕ) (o : RingOp) (s : Ring) :
    (exec capacity o s).2.generation = s.generation := by
  cases o with
  | load field => rfl
  | store cursor value => cases cursor <;> rfl
  | readSpan offset len => rfl
  | writeSpan position offset bytes => rfl

variable {α β : Type} {capacity g : ℕ} {s : Ring}

/-- At generation `g` every program keeps the contract, and the generation stays. -/
theorem valid_of_generation (p : RingProg α) (h : s.generation = g) :
    Valid (exec capacity) (fenced g) p (fun _ t => t.generation = g) s := by
  induction p generalizing s with
  | done a => exact h
  | op o next ih =>
    intro t ht
    exact ⟨Or.inr (ht h), ih _ ((generation_exec _ _ _).trans (ht h))⟩

section Checks

variable {ε : Type}

/-- The program keeps the contract from any state on. -/
def Cautious (capacity g : ℕ) (m : ExceptT ε RingProg α) : Prop :=
  ∀ s, Holds (exec capacity) (fenced g) m (fun _ _ => True) (fun _ _ => True) s

/-- A cautious program that returns a value only at generation `g`. -/
def Fences (capacity g : ℕ) (m : ExceptT ε RingProg α) : Prop :=
  ∀ s, Holds (exec capacity) (fenced g) m (fun _ t => t.generation = g) (fun _ _ => True) s

theorem cautious_pure (a : α) : Cautious capacity g (pure a : ExceptT ε RingProg α) :=
  fun _ => holds_pure trivial

theorem cautious_load (field : Field) :
    Cautious capacity g (load field : ExceptT ε RingProg ℕ) :=
  fun _ => holds_act fun _ _ => ⟨Or.inl ⟨field, rfl⟩, trivial⟩

theorem cautious_throwIf (c : Prop) [Decidable c] (e : ε) :
    Cautious capacity g (throwIf c e : ExceptT ε RingProg Unit) :=
  fun _ => holds_throwIf (fun _ => trivial) fun _ => trivial

variable {x : ExceptT ε RingProg β} {f : β → ExceptT ε RingProg α}

theorem Cautious.bind (hx : Cautious capacity g x) (hf : ∀ b, Cautious capacity g (f b)) :
    Cautious capacity g (x >>= f) :=
  fun s => holds_bind ((hx s).mono (fun b t _ => hf b t) fun _ _ => id)

theorem Cautious.fences (hx : Cautious capacity g x) (hf : ∀ b, Fences capacity g (f b)) :
    Fences capacity g (x >>= f) :=
  fun s => holds_bind ((hx s).mono (fun b t _ => hf b t) fun _ _ => id)

/-- Behind the fence anything may follow. -/
theorem Fences.bind (hx : Fences capacity g x) (f : β → ExceptT ε RingProg α) :
    Fences capacity g (x >>= f) := by
  refine fun s => holds_bind ((hx s).mono (fun b t ht => ?_) fun _ _ => id)
  refine (valid_of_generation (f b).run ht).mono fun r u hu => ?_
  cases r with
  | ok a => exact hu
  | error e => trivial

end Checks

theorem Cautious.corrupt {x : HeaderM α} (hx : Cautious capacity g x) :
    Cautious capacity g (corrupt x) := fun s => holds_adapt (hx s)

theorem Fences.corrupt {x : HeaderM α} (hx : Fences capacity g x) :
    Fences capacity g (corrupt x) := fun s => holds_adapt (hx s)

theorem cautious_sub (a b : ℕ) : Cautious capacity g (sub a b) :=
  (cautious_throwIf _ _).bind fun _ => cautious_pure _

theorem fences_compare {ε : Type} (err : ℕ → ε) :
    Fences capacity g (load .generation >>= fun generation =>
      throwIf (generation ≠ g) (err generation)) := by
  refine fun s => holds_bind (holds_act fun t _ => ⟨Or.inl ⟨_, rfl⟩, ?_⟩)
  exact holds_throwIf (c := t.generation ≠ g) (fun _ => trivial) fun h => not_not.mp h

theorem fences_validateGeneration :
    Fences capacity g (corrupt (Endpoint.validateGeneration g)) :=
  (fences_compare _).corrupt

theorem fences_staleCheck : Fences capacity g (Endpoint.staleCheck g) := fences_compare _

namespace Endpoint

variable {e : Endpoint}

theorem cautious_validateFixed : Cautious capacity g e.validateFixed :=
  (cautious_load _).bind fun _ => (cautious_throwIf _ _).bind fun _ =>
    (cautious_load _).bind fun _ => (cautious_throwIf _ _).bind fun _ =>
      (cautious_load _).bind fun _ => (cautious_throwIf _ _).bind fun _ =>
        (cautious_load _).bind fun _ => cautious_throwIf _ _

theorem cautious_validateCursors : Cautious capacity g e.validateCursors :=
  (cautious_load _).bind fun _ => (cautious_load _).bind fun _ =>
    (cautious_throwIf _ _).bind fun _ => cautious_throwIf _ _

variable (operation : String)

theorem cautious_check (role : Role) : Cautious capacity g (e.check operation role) :=
  (cautious_throwIf _ _).bind fun _ => cautious_validateFixed.corrupt.bind fun _ =>
    cautious_validateCursors.corrupt

theorem cautious_readable : Cautious capacity g e.readable :=
  (cautious_check _ _).bind fun _ => (cautious_load _).bind fun _ =>
    (cautious_load _).bind fun _ => cautious_sub _ _

variable (e)

theorem fences_peerTermination : Fences capacity e.info.generation e.peerTermination :=
  cautious_validateFixed.corrupt.fences fun _ => fences_validateGeneration.bind _

theorem fences_positions : Fences capacity e.info.generation e.positions :=
  cautious_validateFixed.corrupt.fences fun _ => fences_validateGeneration.bind _

theorem fences_reserve (len : ℕ) : Fences capacity e.info.generation (e.reserve len) :=
  (cautious_check _ _).fences fun _ => fences_validateGeneration.bind _

theorem fences_writablePayloadCapacity :
    Fences capacity e.info.generation e.writablePayloadCapacity :=
  (cautious_check _ _).fences fun _ => fences_validateGeneration.bind _

theorem fences_write (r : Reservation) (bytes : List UInt8) :
    Fences capacity r.generation (e.write r bytes) :=
  (cautious_check _ _).fences fun _ => fences_staleCheck.bind _

theorem fences_commit (r : Reservation) : Fences capacity r.generation (e.commit r) :=
  (cautious_check _ _).fences fun _ => fences_staleCheck.bind _

variable (kind : RecordKind)

theorem fences_reserveRecord (len : ℕ) :
    Fences capacity e.info.generation (e.reserveRecord kind len) :=
  (cautious_throwIf _ _).fences fun _ => (cautious_throwIf _ _).fences fun _ =>
    (e.fences_reserve _).bind _

theorem fences_sendRecord (bytes : List UInt8) :
    Fences capacity e.info.generation (e.sendRecord kind bytes) :=
  (cautious_throwIf _ _).fences fun _ => (e.fences_reserve _).bind _

theorem fences_scanRecord : Fences capacity e.info.generation (e.scanRecord operation true) :=
  (cautious_check _ _).fences fun _ => fences_validateGeneration.bind _

theorem fences_nextRecordMeta : Fences capacity e.info.generation e.nextRecordMeta :=
  (e.fences_scanRecord _).bind _

theorem fences_frontRecord : Fences capacity e.info.generation (e.frontRecord operation) :=
  (e.fences_scanRecord _).bind _

variable (cursor : RecordCursor)

theorem fences_checkCursor : Fences capacity cursor.generation (e.checkCursor operation cursor) :=
  (cautious_check _ _).fences fun _ => fences_staleCheck.bind _

theorem fences_copyRecordRange (offset size : ℕ) :
    Fences capacity cursor.generation (e.copyRecordRange cursor offset size) :=
  (e.fences_checkCursor _ _).bind _

theorem fences_releaseAt : Fences capacity cursor.generation (e.releaseAt operation cursor) :=
  (e.fences_checkCursor _ _).bind _

theorem yields_reserve (len : ℕ) :
    Yields (e.reserve len) fun r => r.generation = e.info.generation :=
  yields_after fun _ => yields_after fun _ => yields_after fun _ => yields_after fun _ =>
    yields_after fun _ => yields_after fun _ => yields_after fun _ => yields_pure rfl

theorem yields_reserveRecord (len : ℕ) :
    Yields (e.reserveRecord kind len) fun w =>
      w.reservation.generation = e.info.generation :=
  yields_after fun _ => yields_after fun _ => yields_bind (e.yields_reserve _) fun _ hr =>
    yields_after fun _ => yields_after fun _ => yields_pure hr

theorem yields_frontRecord :
    Yields (e.frontRecord operation) fun r =>
      ∀ cursor ∈ r.toList, cursor.generation = e.info.generation := by
  refine yields_after fun next => ?_
  cases next with
  | none => exact yields_pure (by simp)
  | some found => exact yields_after fun _ => yields_pure (by simp)

end Endpoint

namespace Client

/-- All the client was handed out is of generation `g`. -/
def OfGeneration (client : Client) (g : ℕ) : Prop :=
  (∀ r ∈ client.reservations, r.generation = g) ∧
    (∀ w ∈ client.writables, w.reservation.generation = g) ∧
    (∀ r ∈ client.pinned, r.generation = g) ∧ ∀ c ∈ client.cursors, c.generation = g

variable {client : Client} {m : RingM α} {note : α → Client}

theorem settle_returns {Q : α → Prop} (h : client.OfGeneration g) (hm : Yields m Q)
    (hnote : ∀ a, Q a → (note a).OfGeneration g) :
    (client.settle m note).Returns (OfGeneration · g) := by
  refine Prog.returns_bind.mpr (hm.mono fun r hr => ?_)
  cases r with
  | ok a => exact hnote a hr
  | error stop => exact h

/-- A failed call copies nothing out. -/
theorem settle_valid {Q : α → Ring → Prop}
    (hm : Holds (exec capacity) (fenced g) m Q (fun _ _ => True) s)
    (hnote : ∀ a t, Q a t → t.generation ≠ g → (note a).copies = client.copies) :
    Valid (exec capacity) (fenced g) (client.settle m note)
      (fun l t => t.generation ≠ g → l.copies = client.copies) s := by
  refine valid_bind.mpr (Valid.mono hm fun r t hr => ?_)
  cases r with
  | ok a => exact hnote a t hr
  | error stop => exact fun _ => rfl

theorem settle_fences (hm : Fences capacity g m) :
    Valid (exec capacity) (fenced g) (client.settle m note)
      (fun l t => t.generation ≠ g → l.copies = client.copies) s :=
  settle_valid (hm s) fun _ _ ht hne => absurd ht hne

end Client

/-- The operations that do not compare the generation before they touch the ring. -/
def Call.unfenced : Call → Bool
  | .spansMut _ _ | .read _ | .consume _ | .spans _ | .recvRecord => true
  | _ => false

namespace Endpoint

variable (e : Endpoint) {client : Client} {call : Call}

theorem perform_returns (h : client.OfGeneration e.info.generation) (call : Call) :
    (e.perform client call).Returns (Client.OfGeneration · e.info.generation) := by
  cases call with
  | reserve len =>
    exact settle_returns h (e.yields_reserve len) fun r hr =>
      ⟨List.forall_mem_cons.mpr ⟨hr, h.1⟩, h.2⟩
  | reserveRecord kind len =>
    exact settle_returns h (e.yields_reserveRecord kind len) fun w hw =>
      ⟨h.1, List.forall_mem_cons.mpr ⟨hw, h.2.1⟩, h.2.2⟩
  | peekRecord =>
    exact settle_returns h (e.yields_frontRecord _) fun r hr =>
      ⟨h.1, h.2.1, List.forall_mem_append.mpr ⟨hr, h.2.2.1⟩, h.2.2.2⟩
  | recordCursor =>
    exact settle_returns h (e.yields_frontRecord _) fun r hr =>
      ⟨h.1, h.2.1, h.2.2.1, List.forall_mem_append.mpr ⟨hr, h.2.2.2⟩⟩
  | recvRecord =>
    refine settle_returns h (yields_true _) fun r _ => ?_
    cases r with
    | none => exact h
    | some found => exact h
  | writablePayloadCapacity | write | commit | spansMut | commitRecord | sendRecord | readable
  | read | consume | nextRecordMeta | spans | release | copyRecordRange | releaseRecordCursor
  | positions | peerTermination =>
    exact settle_returns h (yields_true _) fun _ _ => h

/-- An operation that compares the generation keeps the contract, and copies something out
only if it ends at the generation of the endpoint. -/
theorem perform_fenced (h : client.OfGeneration e.info.generation)
    (howns : client.owns call = true) (hcall : call.unfenced = false) (s : Ring) :
    Valid (exec capacity) (fenced e.info.generation) (e.perform client call)
      (fun l t => t.generation ≠ e.info.generation → l.copies = client.copies) s := by
  obtain ⟨hreservations, hwritables, hpinned, hcursors⟩ := h
  cases call with
  | reserve len => exact settle_fences (e.fences_reserve len)
  | writablePayloadCapacity => exact settle_fences e.fences_writablePayloadCapacity
  | write r bytes =>
    have hr : r.generation = e.info.generation :=
      hreservations r (by simpa [owns] using howns)
    exact settle_fences (hr ▸ e.fences_write r bytes)
  | commit r =>
    have hr : r.generation = e.info.generation :=
      hreservations r (by simpa [owns] using howns)
    exact settle_fences (hr ▸ e.fences_commit r)
  | reserveRecord kind len => exact settle_fences (e.fences_reserveRecord kind len)
  | commitRecord w =>
    obtain ⟨hw, -⟩ : w ∈ client.writables ∧ w.reservation.start = client.position := by
      simpa [owns] using howns
    exact settle_fences (hwritables w hw ▸ e.fences_commit w.reservation)
  | sendRecord kind bytes => exact settle_fences (e.fences_sendRecord kind bytes)
  | readable => exact settle_valid (cautious_readable s) fun _ _ _ _ => rfl
  | nextRecordMeta => exact settle_fences e.fences_nextRecordMeta
  | peekRecord | recordCursor => exact settle_fences (e.fences_frontRecord _)
  | release r =>
    have hr : r.generation = e.info.generation := hpinned r (by simpa [owns] using howns)
    exact settle_fences (hr ▸ e.fences_releaseAt _ r)
  | copyRecordRange c offset size =>
    have hc : c.generation = e.info.generation := hcursors c (by simpa [owns] using howns)
    exact settle_fences (hc ▸ e.fences_copyRecordRange c offset size)
  | releaseRecordCursor c =>
    have hc : c.generation = e.info.generation := hcursors c (by simpa [owns] using howns)
    exact settle_fences (hc ▸ e.fences_releaseAt _ c)
  | positions => exact settle_fences e.fences_positions
  | peerTermination => exact settle_fences e.fences_peerTermination
  | spansMut | read | consume | spans | recvRecord => cases hcall

end Endpoint

namespace Recycled

/-- The others write the whole range: they may install the ring again at any time. -/
def step (e : Endpoint) : Exposed → Action → Exposed := stepWith (fun _ ring => ring) e

/-- The client passes what the endpoint handed out, and calls an operation that does not
compare the generation only at the generation of the endpoint. No generation but that of the
endpoint is replaced during an operation. -/
abbrev Fair (e : Endpoint) : Exposed → Action → Prop :=
  Admits
    (fun client s call => client.owns call = true ∧
      (call.unfenced = true → s.generation = e.info.generation))
    fun s ring => s.generation = e.info.generation → ring.generation = e.info.generation

variable {e : Endpoint} {x : Exposed} {copies : List (ℕ × List UInt8)}

/-- Whatever call a client makes, its program keeps the contract. If it does not end at the
generation of the endpoint, it did not start there, and copied nothing out. -/
theorem perform_valid {client : Client} {call : Call} (s : Ring)
    (h : client.OfGeneration e.info.generation) (howns : client.owns call = true)
    (hcall : call.unfenced = true → s.generation = e.info.generation) :
    Valid (exec e.info.capacity) (fenced e.info.generation) (e.perform client call)
      (fun l t => l.OfGeneration e.info.generation ∧ (t.generation ≠ e.info.generation →
        s.generation ≠ e.info.generation ∧ l.copies = client.copies)) s := by
  apply Valid.and_returns _ (e.perform_returns h call)
  by_cases hs : s.generation = e.info.generation
  · exact (valid_of_generation _ hs).mono fun _ _ ht hne => absurd ht hne
  · have hfenced : call.unfenced = false := by
      rw [← Bool.not_eq_true]
      exact fun hun => hs (hcall hun)
    exact (e.perform_fenced h howns hfenced s).mono fun _ _ ht hne => ⟨hs, ht hne⟩

/-- All the client holds is of the generation of the endpoint, and what it copied out at
another generation is among `copies`. -/
def Kept (e : Endpoint) (copies : List (ℕ × List UInt8)) (l : Client) (s : Ring) : Prop :=
  l.OfGeneration e.info.generation ∧ (s.generation ≠ e.info.generation → l.copies = copies)

/-- The client holds only what is of the generation of the endpoint, or will when the running
operation has ended. -/
def Ok (e : Endpoint) (x : Exposed) : Prop :=
  x.status.Ok (exec e.info.capacity) (fenced e.info.generation)
    (fun l _ => l.OfGeneration e.info.generation) x.ring

theorem ok_step (h : Ok e x) (a : Action) (hfair : Fair e x a) : Ok e (step e x a) := by
  obtain ⟨ring, status⟩ := x
  cases a with
  | call call =>
    cases status with
    | idle client => exact (perform_valid ring h hfair.1 hfair.2).mono fun _ _ hl => hl.1
    | busy program => exact h
  | access => exact Ok.advance h
  | tamper ring' =>
    cases status with
    | idle client => exact h
    | busy program =>
      exact Ok.stable (p := .busy program) h (fun _ _ _ hl _ => hl) hfair

/-- Away from the generation of the endpoint its client copies nothing out. -/
theorem kept_step
    (h : x.status.Ok (exec e.info.capacity) (fenced e.info.generation) (Kept e copies) x.ring)
    (hgen : x.ring.generation ≠ e.info.generation) (a : Action) (hfair : Fair e x a) :
    (step e x a).status.Ok (exec e.info.capacity) (fenced e.info.generation)
      (Kept e copies) (step e x a).ring := by
  obtain ⟨ring, status⟩ := x
  cases a with
  | call call =>
    cases status with
    | idle client =>
      refine (perform_valid ring h.1 hfair.1 hfair.2).mono fun l t hl => ⟨hl.1, fun ht => ?_⟩
      exact (hl.2 ht).2.trans (h.2 hgen)
    | busy program => exact h
  | access => exact Ok.advance h
  | tamper ring' =>
    cases status with
    | idle client => exact ⟨h.1, fun _ => h.2 hgen⟩
    | busy program =>
      refine Ok.stable (p := .busy program) h (fun l s t hl hr => ⟨hl.1, fun ht => ?_⟩) hfair
      exact hl.2 fun hs => ht (hr hs)

/-- The generation fence: in every state whose header carries another generation, the
endpoint's next access is a load of a header field, which changes nothing; and over every
stretch of the run in which the header carries another generation, its client copies nothing
out. -/
theorem fence_holds (e : Endpoint) (ring : Ring) (past : List Action)
    (hfair : Guarded (Fair e) (step e) (attached e ring) past) :
    let x := past.foldl (step e) (attached e ring)
    x.ring.generation ≠ e.info.generation →
      (∀ o, x.status.next = some o → ∃ field, o = .load field) ∧
      (step e x .access).ring = x.ring ∧
      ∀ client, x.status.client? = some client → ∀ later : List Action,
        Guarded (fun y a => Fair e y a ∧ (step e y a).ring.generation ≠ e.info.generation)
          (step e) x later →
        ∀ client', (later.foldl (step e) x).status.client? = some client' →
          client'.copies = client.copies := by
  intro x hgen
  have hstart : Ok e (attached e ring) :=
    ⟨by simp, by simp, by simp, by simp⟩
  have hok : Ok e x := hfair.invariant (fun y a hy hf => ok_step hy a hf) hstart
  have hload : ∀ o, x.status.next = some o → ∃ field, o = .load field :=
    fun o ho => (Ok.next_ok hok ho).resolve_right hgen
  refine ⟨hload, ?_, fun client hclient later hlater client' hclient' => ?_⟩
  · exact Ok.advance_state (I := (· = x.ring)) hok rfl fun o ho => by
      obtain ⟨field, rfl⟩ := ho.resolve_right hgen
      rfl
  · have hclean := Ok.client hok hclient
    have hkept : x.status.Ok (exec e.info.capacity) (fenced e.info.generation)
        (Kept e client.copies) x.ring := by
      cases hx : x.status with
      | idle l =>
        obtain rfl : l = client := by simpa [hx, client?] using hclient
        exact ⟨hclean, fun _ => rfl⟩
      | busy program => simp [hx, client?] at hclient
    have hend := hlater.invariant
      (P := fun y => y.ring.generation ≠ e.info.generation ∧
        y.status.Ok (exec e.info.capacity) (fenced e.info.generation)
          (Kept e client.copies) y.ring)
      (fun y a hy hf => ⟨hf.2, kept_step hy.2 hy.1 a hf.1⟩) ⟨hgen, hkept⟩
    exact (Ok.client hend.2 hclient').2 hend.1

/-- A reservation of the old ring is written after the ring was installed again. -/
theorem fence_holds_reservation :
    let e : Endpoint := ⟨⟨16, 1⟩, .producer⟩
    let past : List Action := Action.call (.reserve 2) :: accesses 10 ++
      [Action.tamper (install 16 2)]
    let later : List Action := Action.call (.write ⟨0, 2, 1⟩ [8, 9]) :: accesses 10
    let x := past.foldl (step e) (attached e (install 16 1))
    let y := later.foldl (step e) x
    y.status.client? =
        some { position := 0, reservations := [⟨0, 2, 1⟩],
               reports := [.flow (.staleReservation 1 2)] } ∧
      (step e x .access).ring = x.ring ∧
      ∀ client', y.status.client? = some client' → client'.copies = [] := by
  intro e past later x y
  have h := fence_holds e (install 16 1) past (by decide +kernel) (by decide +kernel)
  exact ⟨by decide +kernel, h.2.1, h.2.2 { position := 0, reservations := [⟨0, 2, 1⟩] }
    (by decide +kernel) later (by decide +kernel)⟩

/-- A ring that holds one record of two bytes. -/
def oneRecord (generation : ℕ) (x y : UInt8) : Ring :=
  { install 16 generation with
    commit := 7
    data := fun i => [1, 2, 0, 0, 0, x, y].getD i 0 }

/-- What a consumer attached at generation `1` does to the next ring: it reads and receives
its bytes, it moves its cursor, and through the slices of a pinned record it reads the bytes
that replaced the record; a producer writes through the slices of a writable record. -/
theorem unfenced_after_reinstall :
    let consumer : Endpoint := ⟨⟨16, 1⟩, .consumer⟩
    let producer : Endpoint := ⟨⟨16, 1⟩, .producer⟩
    let after (call : Call) : Exposed := (Action.tamper (oneRecord 2 8 9) ::
      Action.call call :: accesses 20).foldl (step consumer)
        (attached consumer (oneRecord 1 3 4))
    let pinned : RecordCursor := ⟨.data, 5, 2, 0, 7, 1⟩
    let spans := (Action.call .peekRecord :: accesses 20 ++ Action.tamper (oneRecord 2 8 9) ::
      Action.call (.spans pinned) :: accesses 20).foldl (step consumer)
        (attached consumer (oneRecord 1 3 4))
    let writable : WritableRecord := ⟨⟨0, 7, 1⟩, 5, 2⟩
    let spansMut := (Action.call (.reserveRecord .data 2) :: accesses 20 ++
      Action.tamper (install 16 2) :: Action.call (.spansMut writable [8, 9]) ::
        accesses 20).foldl (step producer) (attached producer (install 16 1))
    (after (.read 2)).status.client? = some { position := 0, copies := [(0, [1, 2])] } ∧
      (after (.consume 2)).ring.generation = 2 ∧ (after (.consume 2)).ring.consume = 2 ∧
      (after .recvRecord).status.client? = some { position := 7, copies := [(5, [8, 9])] } ∧
      (after .recvRecord).ring.consume = 7 ∧
      spans.status.client? =
        some { position := 0, pinned := [pinned], copies := [(5, [8, 9])] } ∧
      spansMut.ring.generation = 2 ∧ spansMut.ring.data 5 = 8 := by
  decide +kernel

end Recycled

end Swactor.DataPlane
