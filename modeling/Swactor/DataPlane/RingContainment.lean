import Swactor.DataPlane.RingView
import Swactor.Lib.Machine

/-!
# A ring with a hostile peer

The peer of an endpoint can write all of the shared memory, so that every load returns what
it pleases; only the cursor of the endpoint is its own. Every operation checks the cursors
and then loads them again. As long as the peer does not move its cursor out of the window
between the two, what the endpoint computes stays in bounds and all its copies stay inside
the ring. A peer that does move it makes the endpoint compute with a cursor it never
checked.
-/
namespace Swactor.DataPlane

open Interleaving Machine DataPlane.Ring

/-- A copy that stays inside the data region. -/
def RingOp.InBounds (capacity : ℕ) : RingOp → Prop
  | .readSpan offset len => offset + len ≤ capacity
  | .writeSpan _ offset bytes => offset + bytes.length ≤ capacity
  | .load _ | .store _ _ => True

instance RingOp.inBounds_decidable (capacity : ℕ) : ∀ o : RingOp, Decidable (o.InBounds capacity)
  | .readSpan offset len => inferInstanceAs (Decidable (offset + len ≤ capacity))
  | .writeSpan _ offset bytes => inferInstanceAs (Decidable (offset + bytes.length ≤ capacity))
  | .load _ | .store _ _ => inferInstanceAs (Decidable True)

instance Ring.window_decidable (s : Ring) (capacity : ℕ) : Decidable (s.Window capacity) :=
  inferInstanceAs (Decidable (_ ∧ _))

/-- The ring with the cursor of one role replaced. -/
def Ring.withCursor (s : Ring) (value : ℕ) : Role → Ring
  | .producer => { s with commit := value }
  | .consumer => { s with consume := value }

@[simp] theorem Ring.cursor_withCursor (s : Ring) (value : ℕ) (role : Role) :
    (s.withCursor value role).cursor role = value := by
  cases role <;> rfl

/-- The peer keeps its cursor in the window once it is there, and writes what it likes
besides. -/
def hostile (e : Endpoint) : Contract RingOp Ring where
  rely s t := s.cursor e.role = t.cursor e.role ∧
    (s.Window e.info.capacity → t.Window e.info.capacity)
  ok o _ := o.InBounds e.info.capacity
  refl _ := ⟨rfl, id⟩
  trans h h' := ⟨h.1.trans h'.1, fun hw => h'.2 (h.2 hw)⟩

theorem Endpoint.available_le {e : Endpoint} {s : Ring} (h : s.Window e.info.capacity) :
    e.available s ≤ e.info.capacity := by
  unfold available
  cases e.role with
  | producer => exact Nat.sub_le _ _
  | consumer =>
    have := h.2
    dsimp only
    omega

theorem Ring.cursor_writeSpan (s : Ring) (capacity p offset : ℕ) (bytes : List UInt8)
    (role : Role) :
    (exec capacity (.writeSpan p offset bytes) s).2.cursor role = s.cursor role := by
  cases role <;> rfl

theorem Ring.cursor_store (s : Ring) (capacity v : ℕ) (role : Role) :
    (exec capacity (.store role v) s).2.cursor role = v := by
  cases role <;> rfl

/-- An endpoint that trusts nothing but its own cursor. -/
def hostileView (e : Endpoint) : View e where
  contract := hostile e
  At c b s := s.cursor e.role = c ∧ c ≤ b ∧ b ≤ c + e.info.capacity
  Got _ _ _ := True
  allowed stop := ∃ err, stop = .flow err
  lax := True
  own h := h.1
  at_le h := h.2
  at_mono h hle hle' := ⟨h.1, hle, hle'.trans h.2.2⟩
  at_rely h hr := ⟨hr.1.symm.trans h.1, h.2⟩
  got_rely _ _ := trivial
  got_exec _ _ := trivial
  got_append _ _ := trivial
  window_rely _ hw hr := hr.2 hw
  healthy _ := Or.inl fun h => ⟨.corrupt h, rfl⟩
  allowed_flow _ := ⟨_, rfl⟩
  renew h hw := ⟨h.1, Nat.le_add_right _ _, Nat.add_le_add_left (Endpoint.available_le hw) _⟩
  load_ok _ _ := trivial
  write_ok _ _ _ _ hfit :=
    ⟨hfit, fun _ h => ⟨(cursor_writeSpan _ _ _ _ _ _).trans h.1, h.2⟩⟩
  read_ok _ _ _ _ _ hfit := ⟨hfit, trivial⟩
  store_ok _ hv _ := ⟨trivial, fun _ hle h =>
    ⟨cursor_store _ _ _ _, hle, h.2.2.trans (Nat.add_le_add_right hv _)⟩⟩

/-- One endpoint and the memory it shares with its peer. -/
structure Exposed where
  ring : Ring
  status : Status RingOp RingOp.Result Client

namespace Exposed

/-- The client calls an operation, the endpoint makes its next access, or the others write the
shared memory. -/
inductive Action
  | call (call : Call)
  | access
  | tamper (ring : Ring)

/-- A step where a write of the others to the memory leaves what `written` says. -/
def stepWith (written : Ring → Ring → Ring) (e : Endpoint) (x : Exposed) : Action → Exposed
  | .call call =>
      match x.status with
      | .idle client => { x with status := .busy (e.perform client call) }
      | .busy _ => x
  | .access =>
      let (status, ring) := x.status.advance (exec e.info.capacity) x.ring
      ⟨ring, status⟩
  | .tamper ring => { x with ring := written x.ring ring }

/-- An action that is admitted: the calls that `calls` admits, and during an operation the writes of
the others that `writes` admits. -/
def Admits (calls : Client → Ring → Call → Prop) (writes : Ring → Ring → Prop) (x : Exposed) :
    Action → Prop
  | .call call =>
      match x.status with
      | .idle client => calls client x.ring call
      | .busy _ => True
  | .access => True
  | .tamper ring =>
      match x.status with
      | .idle _ => True
      | .busy _ => writes x.ring ring

instance admits_decidable (calls : Client → Ring → Call → Prop) (writes : Ring → Ring → Prop)
    [∀ client s call, Decidable (calls client s call)] [∀ s t, Decidable (writes s t)] :
    ∀ (x : Exposed) (a : Action), Decidable (x.Admits calls writes a)
  | ⟨s, .idle client⟩, .call call => inferInstanceAs (Decidable (calls client s call))
  | ⟨_, .busy _⟩, .call _ => inferInstanceAs (Decidable True)
  | ⟨_, .idle _⟩, .access => inferInstanceAs (Decidable True)
  | ⟨_, .busy _⟩, .access => inferInstanceAs (Decidable True)
  | ⟨_, .idle _⟩, .tamper _ => inferInstanceAs (Decidable True)
  | ⟨s, .busy _⟩, .tamper ring => inferInstanceAs (Decidable (writes s ring))

/-- What a hostile peer leaves: all of the memory is its own but the cursor of the endpoint. -/
def tampered (e : Endpoint) (s ring : Ring) : Ring := ring.withCursor (s.cursor e.role) e.role

def step (e : Endpoint) : Exposed → Action → Exposed := stepWith (tampered e) e

/-- The client calls what the assertions of the endpoint let pass, at least one capacity below
`2 ^ 64`. During an operation the peer does not move its cursor out of the window. -/
abbrev Fair (e : Endpoint) : Exposed → Action → Prop :=
  Admits
    (fun client _ call => client.owns call = true ∧ client.asserted call = true ∧
      client.position + e.info.capacity ≤ u64Max)
    fun s ring => s.Window e.info.capacity → (tampered e s ring).Window e.info.capacity

/-- A freshly attached endpoint. -/
def attached (e : Endpoint) (ring : Ring) : Exposed :=
  ⟨ring, .idle { position := ring.cursor e.role }⟩

/-- The client is sound, or will be when the running operation has ended. -/
def Ok (e : Endpoint) (x : Exposed) : Prop :=
  x.status.Ok (exec e.info.capacity) (hostile e) (hostileView e).Sound x.ring

theorem ok_step {e : Endpoint} (hcap : 0 < e.info.capacity) {x : Exposed} (a : Action)
    (h : x.Ok e) (hfair : Fair e x a) : (step e x a).Ok e := by
  obtain ⟨ring, status⟩ := x
  cases a with
  | call call =>
    cases status with
    | idle client =>
      obtain ⟨howns, hasserted, hroom⟩ := hfair
      exact View.perform_valid (Or.inr hcap) h howns (Or.inl trivial) (Or.inr hasserted)
        (Or.inr hroom)
    | busy program => exact h
  | access => exact Status.Ok.advance h
  | tamper ring' =>
    have hsame : ring.cursor e.role = (tampered e ring ring').cursor e.role :=
      (cursor_withCursor _ _ _).symm
    cases status with
    | idle client =>
      exact View.Sound.keeps h ⟨fun hat => ⟨hsame.symm.trans hat.1, hat.2⟩, id⟩
    | busy program =>
      exact Status.Ok.stable (p := .busy program) h
        (fun _ _ _ hs hr => hs.keeps (View.keeps_of_rely hr)) ⟨hsame, hfair⟩

/-- Containment: whatever the peer writes, as long as it does not move its cursor out of the
window during an operation, every copy stays inside the data region, every call that ends
without a value ends with an error, and every call ends. -/
theorem contained (e : Endpoint) (hcap : 0 < e.info.capacity) (ring : Ring)
    (actions : List Action) (hfair : Guarded (Fair e) (step e) (attached e ring) actions) :
    let x := actions.foldl (step e) (attached e ring)
    (∀ o, x.status.next = some o → o.InBounds e.info.capacity) ∧
      (∀ client, x.status.client? = some client → ∀ stop ∈ client.reports,
        ∃ err, stop = .flow err) ∧
      ∀ program, x.status = .busy program →
        ∀ results, ∃ n client, program.after results n = .done client := by
  intro x
  have hstart : (attached e ring).Ok e :=
    View.sound_attached ⟨rfl, Nat.le_refl _, Nat.le_add_right _ _⟩
  have hok : x.Ok e := hfair.invariant (fun y a hy hf => ok_step hcap a hy hf) hstart
  refine ⟨fun o ho => Status.Ok.next_ok hok ho, fun client hidle => ?_, fun program _ => ?_⟩
  · exact (Status.Ok.client hok hidle).reports
  · exact program.ends

def accesses (n : ℕ) : List Action := List.replicate n .access

/-- The peer rewrites the generation while a record is sent. -/
theorem contained_fenced :
    let e : Endpoint := ⟨⟨16, 7⟩, .producer⟩
    let actions : List Action := [Action.call (.sendRecord .data [1, 2])] ++
      accesses 6 ++ [Action.tamper (install 16 9)] ++ accesses 2
    let x := actions.foldl (step e) (attached e (install 16 7))
    x.status.client? =
        some { position := 0, reports := [.flow (.corrupt (.generationMismatch 9 7))] } ∧
      ∀ client, x.status.client? = some client → ∀ stop ∈ client.reports,
        ∃ err, stop = .flow err := by
  intro e actions x
  exact ⟨by decide +kernel,
    (contained e (by decide) (install 16 7) actions (by decide +kernel)).2.1⟩

/-- Between the check and the second load the peer moves its cursor. A consumer of a ring of
four bytes then copies six bytes from its start, and a producer computes a negative number. -/
theorem hostile_peer_escapes_check :
    let consumer : Endpoint := ⟨⟨4, 1⟩, .consumer⟩
    let producer : Endpoint := ⟨⟨4, 1⟩, .producer⟩
    let ring := install 4 1
    let reading : List Action := [Action.call (.read 10)] ++ accesses 6 ++
      [Action.tamper { ring with commit := 100 }] ++ accesses 3
    let reserving : List Action := [Action.call (.reserve 1)] ++ accesses 6 ++
      [Action.tamper { ring with consume := 1 }] ++ accesses 4
    (reading.foldl (step consumer) (attached consumer ring)).status.next =
        some (.readSpan 0 6) ∧
      ¬ RingOp.InBounds 4 (.readSpan 0 6) ∧
      (reserving.foldl (step producer) (attached producer ring)).status.client? =
        some { position := 0, reports := [.underflow] } := by
  decide +kernel

end Exposed

end Swactor.DataPlane
