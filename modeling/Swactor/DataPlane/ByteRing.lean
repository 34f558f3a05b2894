import Swactor.Types
import Swactor.Lib.Interleaving

/-!
# The byte ring

One producer and one consumer move bytes through a ring in shared memory. The cursors
`commit` and `consume` count bytes of the stream and never wrap; the byte at stream position
`p` lies in the cell `p % capacity`. Each side writes its own cursor and loads the other's.

Every operation of an endpoint is a program whose steps are the single accesses to shared
memory: one load or store of a header field, one copy to or from a contiguous span of the
data region. Between two of them the peer may do anything its own programs can do, or, if
it does not follow the protocol, anything at all.

Arithmetic on cursors and lengths is on `u64` with overflow checks: it stops the operation.
The generation and capacity of the handle are those the ring was attached with. Its place
in the arena and its lease are left out.
-/
namespace Swactor.DataPlane

open Interleaving (Prog act throwIf)

/-- `RING_MAGIC`: `"SWRG"` read little-endian. -/
def ringMagic : ℕ := 0x47525753

def ringVersion : ℕ := 1

/-- `RECORD_HEADER_LEN`: `kind u8 | len u32 LE`. -/
def recordHeaderLen : ℕ := 5

inductive Role
  | producer
  | consumer
deriving DecidableEq, Repr

/-- The words of the ring header. -/
inductive Field
  | magic
  | version
  | reserved
  | capacity
  | generation
  | commit
  | consume
  | terminal
deriving DecidableEq, Repr

/-- One access to shared memory. The stream position of a copy into the ring is a ghost. -/
inductive RingOp
  | load (field : Field)
  | store (cursor : Role) (value : ℕ)
  | readSpan (offset len : ℕ)
  | writeSpan (position offset : ℕ) (bytes : List UInt8)
deriving DecidableEq, Repr

def RingOp.Result : RingOp → Type
  | .load _ => ℕ
  | .store _ _ => Unit
  | .readSpan _ _ => List UInt8
  | .writeSpan _ _ _ => Unit

/-- The shared memory of a ring: its header and its data region, by offset.

The last three fields are ghosts: the bytes that were in the ring when they were committed
and when they were consumed, in this order, and the byte that was last copied in for a
stream position. -/
structure Ring where
  magic : ℕ
  version : ℕ
  reserved : ℕ
  capacity : ℕ
  generation : ℕ
  commit : ℕ
  consume : ℕ
  terminal : ℕ
  data : ℕ → UInt8
  committed : List UInt8 := []
  consumed : List UInt8 := []
  drafted : ℕ → Option UInt8 := fun _ => none

namespace Ring

def load (s : Ring) : Field → ℕ
  | .magic => s.magic
  | .version => s.version
  | .reserved => s.reserved
  | .capacity => s.capacity
  | .generation => s.generation
  | .commit => s.commit
  | .consume => s.consume
  | .terminal => s.terminal

/-- The cursor that a role writes. -/
def cursor (s : Ring) : Role → ℕ
  | .producer => s.commit
  | .consumer => s.consume

/-- The bytes of a span of the data region. -/
def span (s : Ring) (offset len : ℕ) : List UInt8 :=
  (List.range len).map fun j => s.data (offset + j)

/-- The bytes of the stream positions from `lo` to `hi` in a ring of the given capacity. -/
def content (s : Ring) (capacity lo hi : ℕ) : List UInt8 :=
  (List.range' lo (hi - lo)).map fun p => s.data (p % capacity)

/-- `xs` laid over `f` from `offset` on. -/
def overlay {α : Type} (offset : ℕ) (xs : List α) (f : ℕ → α) (i : ℕ) : α :=
  if offset ≤ i then xs[i - offset]?.getD (f i) else f i

/-- The effect of one access on a ring of the given capacity. -/
def exec (capacity : ℕ) : (o : RingOp) → Ring → o.Result × Ring
  | .load field, s => (s.load field, s)
  | .store .producer value, s =>
      ((), { s with
        commit := value
        committed := s.committed ++ s.content capacity s.commit value })
  | .store .consumer value, s =>
      ((), { s with
        consume := value
        consumed := s.consumed ++ s.content capacity s.consume value })
  | .readSpan offset len, s => (s.span offset len, s)
  | .writeSpan position offset bytes, s =>
      ((), { s with
        data := overlay offset bytes s.data
        drafted := overlay position (bytes.map some) s.drafted })

/-- The ring that `install` leaves. -/
def install (capacity generation : ℕ) : Ring where
  magic := ringMagic
  version := ringVersion
  reserved := 0
  capacity := capacity
  generation := generation
  commit := 0
  consume := 0
  terminal := 0
  data := fun _ => 0

end Ring

inductive HeaderError
  | badMagic (found : ℕ)
  | unsupportedVersion (found supported : ℕ)
  | reservedBytesNotZero (offset : ℕ)
  | capacityMismatch (header handle : ℕ)
  | generationMismatch (header handle : ℕ)
  | commitBelowConsume (commit consume : ℕ)
  | readableExceedsCapacity (commit consume capacity : ℕ)
deriving DecidableEq, Repr

inductive RecordError
  | lengthExceedsCapacity (len capacity : ℕ)
  | invalidKind (byte : UInt8)
  | lengthExceedsWire (len : ℕ)
deriving DecidableEq, Repr

inductive FlowError
  | insufficientSpace (requested free : ℕ)
  | beyondCommitted (requested readable : ℕ)
  | staleReservation (reservation ring : ℕ)
  | roleViolation (operation : String) (role : Role)
  | corrupt (error : HeaderError)
  | pinnedRecordMoved (expected found : ℕ)
  | badRecord (error : RecordError)
  | invalidPeerTermination (found : ℕ)
deriving DecidableEq, Repr

/-- What ends an operation without a value: an error it returns, or a panic. -/
inductive Stop
  | flow (error : FlowError)
  | overflow
  | underflow
  | divisionByZero
  | assertion
deriving DecidableEq, Repr

abbrev RingProg := Prog RingOp RingOp.Result

abbrev HeaderM := ExceptT HeaderError RingProg

abbrev RingM := ExceptT Stop RingProg

section Steps

variable {ε : Type}

def load (field : Field) : ExceptT ε RingProg ℕ := act (R := RingOp.Result) (.load field)

def store (cursor : Role) (value : ℕ) : ExceptT ε RingProg Unit :=
  act (R := RingOp.Result) (.store cursor value)

def readSpan (offset len : ℕ) : ExceptT ε RingProg (List UInt8) :=
  act (R := RingOp.Result) (.readSpan offset len)

def writeSpan (position offset : ℕ) (bytes : List UInt8) : ExceptT ε RingProg Unit :=
  act (R := RingOp.Result) (.writeSpan position offset bytes)

end Steps

/-- `a - b` on `u64`. -/
def sub (a b : ℕ) : RingM ℕ := do
  throwIf (a < b) .underflow
  return a - b

/-- `a + b` on `u64`. -/
def add (a b : ℕ) : RingM ℕ := do
  throwIf (u64Max < a + b) .overflow
  return a + b

/-- `a % b` on `u64`. -/
def rem (a b : ℕ) : RingM ℕ := do
  throwIf (b = 0) .divisionByZero
  return a % b

/-- `map_err(FlowError::Corrupt)`. -/
def corrupt {α : Type} (x : HeaderM α) : RingM α :=
  ExceptT.adapt (fun e => .flow (.corrupt e)) x

inductive PeerTermination
  | closed
  | pathReplaced
deriving DecidableEq, Repr

/-- A reserved span of the stream that is not committed yet. -/
structure Reservation where
  start : ℕ
  len : ℕ
  generation : ℕ
deriving DecidableEq, Repr

inductive RecordKind
  | data
  | eof
  | fault
deriving DecidableEq, Repr

def RecordKind.toByte : RecordKind → UInt8
  | .data => 1
  | .eof => 2
  | .fault => 3

def RecordKind.fromByte (byte : UInt8) : Option RecordKind :=
  if byte = 1 then some .data else if byte = 2 then some .eof
  else if byte = 3 then some .fault else none

structure RecordMeta where
  kind : RecordKind
  len : ℕ
deriving DecidableEq, Repr

/-- A complete record at the front of the stream. A `PinnedRecord` has the same fields, with
a borrow of the endpoint. -/
structure RecordCursor where
  kind : RecordKind
  payloadStart : ℕ
  payloadLen : ℕ
  recordStart : ℕ
  recordLen : ℕ
  generation : ℕ
deriving DecidableEq, Repr

/-- A reserved record whose payload is written in place. -/
structure WritableRecord where
  reservation : Reservation
  payloadStart : ℕ
  payloadLen : ℕ
deriving DecidableEq, Repr

/-- `(len as u32).to_le_bytes()`. -/
def lenBytes (len : ℕ) : List UInt8 :=
  (List.range 4).map fun i => UInt8.ofNat (len / 256 ^ i)

/-- `u32::from_le_bytes`. -/
def fromLenBytes (bytes : List UInt8) : ℕ :=
  bytes.foldr (fun byte n => byte.toNat + 256 * n) 0

/-- The prefix of a record. -/
def recordPrefix (kind : RecordKind) (len : ℕ) : List UInt8 :=
  kind.toByte :: lenBytes len

structure RingHandle where
  capacity : ℕ
  generation : ℕ
deriving DecidableEq, Repr

structure Endpoint where
  info : RingHandle
  role : Role
deriving DecidableEq, Repr

namespace Endpoint

variable (e : Endpoint)

def validateFixed : HeaderM Unit := do
  let magic ← load .magic
  throwIf (magic ≠ ringMagic) (.badMagic magic)
  let version ← load .version
  throwIf (version ≠ ringVersion) (.unsupportedVersion version ringVersion)
  let reserved ← load .reserved
  throwIf (reserved ≠ 0) (.reservedBytesNotZero 6)
  let capacity ← load .capacity
  throwIf (capacity ≠ e.info.capacity) (.capacityMismatch capacity e.info.capacity)

def validateGeneration (expected : ℕ) : HeaderM Unit := do
  let generation ← load .generation
  throwIf (generation ≠ expected) (.generationMismatch generation expected)

def validateCursors : HeaderM Unit := do
  let commit ← load .commit
  let consume ← load .consume
  throwIf (commit < consume) (.commitBelowConsume commit consume)
  throwIf (commit - consume > e.info.capacity)
    (.readableExceedsCapacity commit consume e.info.capacity)

/-- Every operation of one role revalidates the header before it touches memory. -/
def check (operation : String) (role : Role) : RingM Unit := do
  throwIf (e.role ≠ role) (.flow (.roleViolation operation e.role))
  corrupt e.validateFixed
  corrupt e.validateCursors

def peerTermination : RingM (Option PeerTermination) := do
  corrupt e.validateFixed
  corrupt (validateGeneration e.info.generation)
  let found ← load .terminal
  match found with
  | 0 => return none
  | 1 => return some .closed
  | 2 => return some .pathReplaced
  | _ => throw (.flow (.invalidPeerTermination found))

def positions : RingM (ℕ × ℕ) := do
  corrupt e.validateFixed
  corrupt (validateGeneration e.info.generation)
  corrupt e.validateCursors
  let commit ← load .commit
  let consume ← load .consume
  return (commit, consume)

/-- Where a copy for a stream position starts in the data region, and how much of it lies
before the wrap. -/
def wrap (streamPos len : ℕ) : RingM (ℕ × ℕ) := do
  let start ← rem streamPos e.info.capacity
  let room ← sub e.info.capacity start
  return (start, min len room)

def copyInto (streamPos : ℕ) (bytes : List UInt8) : RingM Unit := do
  let split ← e.wrap streamPos bytes.length
  writeSpan streamPos split.1 (bytes.take split.2)
  writeSpan (streamPos + split.2) 0 (bytes.drop split.2)

def copyOut (streamPos len : ℕ) : RingM (List UInt8) := do
  let split ← e.wrap streamPos len
  let first ← readSpan split.1 split.2
  let rest ← readSpan 0 (len - split.2)
  return first ++ rest

/-- The caller reads both slices. -/
def readSpans (streamPos len : ℕ) : RingM (List UInt8) := e.copyOut streamPos len

/-- The caller fills both slices. -/
def writeSpans (streamPos : ℕ) (bytes : List UInt8) : RingM Unit := e.copyInto streamPos bytes

def copyIntoSlice (streamPos len : ℕ) : RingM (List UInt8) := e.copyOut streamPos len

def reserve (len : ℕ) : RingM Reservation := do
  e.check "reserve" .producer
  corrupt (validateGeneration e.info.generation)
  let commit ← load .commit
  let consume ← load .consume
  let used ← sub commit consume
  let free ← sub e.info.capacity used
  throwIf (len > free) (.flow (.insufficientSpace len free))
  return ⟨commit, len, e.info.generation⟩

def writablePayloadCapacity : RingM ℕ := do
  e.check "writable_payload_capacity" .producer
  corrupt (validateGeneration e.info.generation)
  let commit ← load .commit
  let consume ← load .consume
  let used ← sub commit consume
  let free ← sub e.info.capacity used
  return free - recordHeaderLen

/-- The generation fence of `stale_check`, `release_inner`, `copy_record_range` and
`release_record_cursor`. -/
def staleCheck (expected : ℕ) : RingM Unit := do
  let generation ← load .generation
  throwIf (generation ≠ expected) (.flow (.staleReservation expected generation))

def write (reservation : Reservation) (bytes : List UInt8) : RingM Unit := do
  e.check "write" .producer
  staleCheck reservation.generation
  throwIf (reservation.len ≠ bytes.length) .assertion
  e.copyInto reservation.start bytes

def commit (reservation : Reservation) : RingM Unit := do
  e.check "commit" .producer
  staleCheck reservation.generation
  let commit ← load .commit
  throwIf (reservation.start ≠ commit) .assertion
  let value ← add commit reservation.len
  store .producer value

def readable : RingM ℕ := do
  e.check "readable" .consumer
  let commit ← load .commit
  let consume ← load .consume
  sub commit consume

def read (len : ℕ) : RingM (List UInt8) := do
  e.check "read" .consumer
  let commit ← load .commit
  let consume ← load .consume
  let readable ← sub commit consume
  throwIf (len > readable) (.flow (.beyondCommitted len readable))
  e.copyOut consume len

def consume (len : ℕ) : RingM Unit := do
  e.check "consume" .consumer
  let commit ← load .commit
  let consume ← load .consume
  let readable ← sub commit consume
  throwIf (len > readable) (.flow (.beyondCommitted len readable))
  let value ← add consume len
  store .consumer value

def reserveRecord (kind : RecordKind) (len : ℕ) : RingM WritableRecord := do
  throwIf (len > 2 ^ 32 - 1) (.flow (.badRecord (.lengthExceedsWire len)))
  throwIf (recordHeaderLen + len > e.info.capacity)
    (.flow (.badRecord (.lengthExceedsCapacity len e.info.capacity)))
  let reservation ← e.reserve (recordHeaderLen + len)
  e.copyInto reservation.start (recordPrefix kind len)
  let payloadStart ← add reservation.start recordHeaderLen
  return ⟨reservation, payloadStart, len⟩

/-- The length of a slice is below `2 ^ 63`, so that `RECORD_HEADER_LEN + len` does not
overflow. -/
def sendRecord (kind : RecordKind) (bytes : List UInt8) : RingM Unit := do
  throwIf (recordHeaderLen + bytes.length > e.info.capacity)
    (.flow (.badRecord (.lengthExceedsCapacity bytes.length e.info.capacity)))
  let reservation ← e.reserve (recordHeaderLen + bytes.length)
  e.copyInto reservation.start (recordPrefix kind bytes.length)
  let payloadStart ← add reservation.start recordHeaderLen
  e.copyInto payloadStart bytes
  e.commit reservation

/-- The record that starts at `consume`, if all of it is readable. -/
def parseRecord (consume readable : ℕ) : RingM (Option (RecordMeta × ℕ)) :=
  if readable < recordHeaderLen then return none
  else do
    let header ← e.copyOut consume recordHeaderLen
    match RecordKind.fromByte (header.getD 0 0) with
    | none => throw (.flow (.badRecord (.invalidKind (header.getD 0 0))))
    | some kind => do
      let len := fromLenBytes header.tail
      throwIf (recordHeaderLen + len > e.info.capacity)
        (.flow (.badRecord (.lengthExceedsCapacity len e.info.capacity)))
      if readable < recordHeaderLen + len then return none
      else return some (⟨kind, len⟩, consume)

/-- `recv_record` alone of the record readers does not check the generation. -/
def fence (fenced : Bool) : RingM Unit :=
  if fenced then corrupt (validateGeneration e.info.generation) else return ()

/-- The common body of the record readers: the next complete record and where it starts. -/
def scanRecord (operation : String) (fenced : Bool) : RingM (Option (RecordMeta × ℕ)) := do
  e.check operation .consumer
  e.fence fenced
  let commit ← load .commit
  let consume ← load .consume
  let readable ← sub commit consume
  e.parseRecord consume readable

def nextRecordMeta : RingM (Option RecordMeta) := do
  let next ← e.scanRecord "next_record_meta" true
  return next.map Prod.fst

/-- The record at the front as `peek_record` and `record_cursor` return it. -/
def frontRecord (operation : String) : RingM (Option RecordCursor) := do
  let next ← e.scanRecord operation true
  match next with
  | none => return none
  | some (record, consume) => do
    let payloadStart ← add consume recordHeaderLen
    return some ⟨record.kind, payloadStart, record.len, consume, recordHeaderLen + record.len,
      e.info.generation⟩

def peekRecord : RingM (Option RecordCursor) := e.frontRecord "peek_record"

def recordCursor : RingM (Option RecordCursor) := e.frontRecord "record_cursor"

/-- The checks of a cursor before it is used. -/
def checkCursor (operation : String) (cursor : RecordCursor) : RingM Unit := do
  e.check operation .consumer
  staleCheck cursor.generation
  let consume ← load .consume
  throwIf (consume ≠ cursor.recordStart)
    (.flow (.pinnedRecordMoved cursor.recordStart consume))

/-- Copy at most `size` bytes of the payload from `offset` on. -/
def copyRecordRange (cursor : RecordCursor) (offset size : ℕ) : RingM (List UInt8) := do
  e.checkCursor "copy_record_range" cursor
  throwIf (offset > cursor.payloadLen) (.flow (.beyondCommitted offset cursor.payloadLen))
  let rest ← sub cursor.payloadLen offset
  let start ← add cursor.payloadStart offset
  e.copyIntoSlice start (min size rest)

def releaseAt (operation : String) (cursor : RecordCursor) : RingM Unit := do
  e.checkCursor operation cursor
  let value ← add cursor.recordStart cursor.recordLen
  store .consumer value

def release (record : RecordCursor) : RingM Unit := e.releaseAt "release_record" record

def releaseRecordCursor (cursor : RecordCursor) : RingM Unit :=
  e.releaseAt "release_record_cursor" cursor

def recvRecord : RingM (Option (RecordKind × List UInt8)) := do
  let next ← e.scanRecord "recv_record" false
  match next with
  | none => return none
  | some (record, consume) => do
    let payloadStart ← add consume recordHeaderLen
    let payload ← e.copyOut payloadStart record.len
    let value ← add payloadStart record.len
    store .consumer value
    return some (record.kind, payload)

end Endpoint

/-- What the owner of an endpoint knows: the position of its own cursor, all it was handed
out, the bytes it copied out with their stream positions, and how its failed calls ended. -/
structure Client where
  position : ℕ
  reservations : List Reservation := []
  writables : List WritableRecord := []
  pinned : List RecordCursor := []
  cursors : List RecordCursor := []
  copies : List (ℕ × List UInt8) := []
  reports : List Stop := []
deriving DecidableEq, Repr

/-- The operations of an endpoint. `spans` and `spansMut` are the uses of the slices of a
pinned and of a writable record. -/
inductive Call
  | reserve (len : ℕ)
  | writablePayloadCapacity
  | write (reservation : Reservation) (bytes : List UInt8)
  | commit (reservation : Reservation)
  | reserveRecord (kind : RecordKind) (len : ℕ)
  | spansMut (record : WritableRecord) (bytes : List UInt8)
  | commitRecord (record : WritableRecord)
  | sendRecord (kind : RecordKind) (bytes : List UInt8)
  | readable
  | read (len : ℕ)
  | consume (len : ℕ)
  | nextRecordMeta
  | peekRecord
  | spans (record : RecordCursor)
  | release (record : RecordCursor)
  | recordCursor
  | copyRecordRange (cursor : RecordCursor) (offset size : ℕ)
  | releaseRecordCursor (cursor : RecordCursor)
  | recvRecord
  | positions
  | peerTermination
deriving DecidableEq, Repr

namespace Client

/-- The client after a call: it takes note of the value or of the failure. -/
def settle {α : Type} (client : Client) (m : RingM α) (note : α → Client) : RingProg Client :=
  m.run.bind fun
    | .ok a => .done (note a)
    | .error stop => .done { client with reports := client.reports ++ [stop] }

/-- A client passes what it was handed out. A record that borrows the endpoint is at its
cursor as long as it is used; its slices have the length of the payload. -/
def owns (client : Client) : Call → Bool
  | .write reservation _ => reservation ∈ client.reservations
  | .commit reservation => reservation ∈ client.reservations
  | .spansMut record bytes =>
      record ∈ client.writables && record.reservation.start = client.position &&
        bytes.length = record.payloadLen
  | .commitRecord record =>
      record ∈ client.writables && record.reservation.start = client.position
  | .spans record => record ∈ client.pinned && record.recordStart = client.position
  | .release record => record ∈ client.pinned
  | .copyRecordRange cursor _ _ => cursor ∈ client.cursors
  | .releaseRecordCursor cursor => cursor ∈ client.cursors
  | _ => true

/-- Nothing was committed since the reservation that is written was handed out. -/
def timely (client : Client) : Call → Bool
  | .write reservation _ => reservation.start = client.position
  | _ => true

/-- What the assertions of `write` and `commit` ask for. -/
def asserted (client : Client) : Call → Bool
  | .write reservation bytes => bytes.length = reservation.len
  | .commit reservation => reservation.start = client.position
  | _ => true

end Client

/-- The program of a call. -/
def Endpoint.perform (e : Endpoint) (client : Client) : Call → RingProg Client
  | .reserve len =>
      client.settle (e.reserve len) fun r =>
        { client with reservations := r :: client.reservations }
  | .writablePayloadCapacity => client.settle e.writablePayloadCapacity fun _ => client
  | .write reservation bytes => client.settle (e.write reservation bytes) fun _ => client
  | .commit reservation =>
      client.settle (e.commit reservation) fun _ =>
        { client with position := reservation.start + reservation.len }
  | .reserveRecord kind len =>
      client.settle (e.reserveRecord kind len) fun w =>
        { client with writables := w :: client.writables }
  | .spansMut record bytes =>
      client.settle (e.writeSpans record.payloadStart bytes) fun _ => client
  | .commitRecord record =>
      client.settle (e.commit record.reservation) fun _ =>
        { client with position := record.reservation.start + record.reservation.len }
  | .sendRecord kind bytes =>
      client.settle (e.sendRecord kind bytes) fun _ =>
        { client with position := client.position + (recordHeaderLen + bytes.length) }
  | .readable => client.settle e.readable fun _ => client
  | .read len =>
      client.settle (e.read len) fun bytes =>
        { client with copies := (client.position, bytes) :: client.copies }
  | .consume len =>
      client.settle (e.consume len) fun _ => { client with position := client.position + len }
  | .nextRecordMeta => client.settle e.nextRecordMeta fun _ => client
  | .peekRecord =>
      client.settle e.peekRecord fun r => { client with pinned := r.toList ++ client.pinned }
  | .spans record =>
      client.settle (e.readSpans record.payloadStart record.payloadLen) fun bytes =>
        { client with copies := (record.payloadStart, bytes) :: client.copies }
  | .release record =>
      client.settle (e.release record) fun _ =>
        { client with position := record.recordStart + record.recordLen }
  | .recordCursor =>
      client.settle e.recordCursor fun r => { client with cursors := r.toList ++ client.cursors }
  | .copyRecordRange cursor offset size =>
      client.settle (e.copyRecordRange cursor offset size) fun bytes =>
        { client with copies := (cursor.payloadStart + offset, bytes) :: client.copies }
  | .releaseRecordCursor cursor =>
      client.settle (e.releaseRecordCursor cursor) fun _ =>
        { client with position := cursor.recordStart + cursor.recordLen }
  | .recvRecord =>
      client.settle e.recvRecord fun
        | none => client
        | some (_, payload) =>
            { client with
              position := client.position + (recordHeaderLen + payload.length)
              copies := (client.position + recordHeaderLen, payload) :: client.copies }
  | .positions => client.settle e.positions fun _ => client
  | .peerTermination => client.settle e.peerTermination fun _ => client

end Swactor.DataPlane
