import EntityWorld.Replication.Error
set_option autoImplicit false

/-!
The format of snapshots: the number of records in four bytes, then for each record the stable id
of its type, the length of its payload, both in four bytes, and the payload. The ids ascend
strictly.
-/
namespace EntityWorld

structure Record where
  typeId : UInt32
  payload : Bytes
  deriving DecidableEq, Repr

namespace Record

def wireSize (r : Record) : Nat := 8 + r.payload.length

def toBytes (r : Record) : Bytes :=
  littleEndian 4 r.typeId.toNat ++ littleEndian 4 r.payload.length ++ r.payload

@[simp] theorem length_toBytes (r : Record) : r.toBytes.length = r.wireSize := by
  simp only [toBytes, wireSize, List.length_append, length_littleEndian]

end Record

namespace Wire

def ascends (previous : Option UInt32) (typeId : UInt32) : Bool :=
  match previous with
  | some p => p < typeId
  | none => true

/-- A destination for bytes that may have room for only so many. -/
structure Sink where
  written : Bytes
  room : Option Nat
  deriving DecidableEq, Repr

def Sink.write (s : Sink) (bs : Bytes) : Except ReplicationError Unit × Sink :=
  match s.room with
  | none => (.ok (), { s with written := s.written ++ bs })
  | some n =>
    let s' : Sink := ⟨s.written ++ bs.take n, some (n - bs.length)⟩
    if bs.length ≤ n then (.ok (), s') else (.error .writerFull, s')

def Sink.writeAll (s : Sink) : List Bytes → Except ReplicationError Unit × Sink
  | [] => (.ok (), s)
  | bs :: rest =>
    match s.write bs with
    | (.ok (), s) => s.writeAll rest
    | (.error e, s) => (.error e, s)

def writeRecords : Sink → Option UInt32 → List Record → Except ReplicationError Unit × Sink
  | s, _, [] => (.ok (), s)
  | s, previous, r :: rest =>
    if !ascends previous r.typeId then
      (.error (.outOfOrder r.typeId), s)
    else if r.payload.length ≥ 0x100000000 then (.error (.recordTooLarge r.payload.length), s)
    else
      match s.writeAll [littleEndian 4 r.typeId.toNat, littleEndian 4 r.payload.length,
        r.payload] with
      | (.ok (), s) => writeRecords s (some r.typeId) rest
      | (.error e, s) => (.error e, s)

/-- Write records in the given order; what was written before a failure stays. -/
def encodeInto (s : Sink) (records : List Record) : Except ReplicationError Unit × Sink :=
  if records.length ≥ 0x100000000 then (.error (.recordTooLarge records.length), s)
  else
    match s.write (littleEndian 4 records.length) with
    | (.ok (), s) => writeRecords s none records
    | (.error e, s) => (.error e, s)

def sortRecords (records : List Record) : List Record :=
  records.mergeSort fun a b => a.typeId ≤ b.typeId

def encode (records : List Record) : Except ReplicationError Bytes :=
  match encodeInto ⟨[], none⟩ (sortRecords records) with
  | (.ok (), s) => .ok s.written
  | (.error e, _) => .error e

structure Cursor where
  rest : Bytes
  offset : Nat
  deriving DecidableEq, Repr

def Cursor.take (c : Cursor) (n : Nat) : Except ReplicationError (Bytes × Cursor) :=
  if c.rest.length < n then .error (.malformed c.offset (n - c.rest.length))
  else .ok (c.rest.take n, ⟨c.rest.drop n, c.offset + n⟩)

def Cursor.u32 (c : Cursor) : Except ReplicationError (UInt32 × Cursor) := do
  let (bs, c) ← c.take 4
  return (UInt32.ofNat (ofLittleEndian bs), c)

def readRecords : Nat → Option UInt32 → Cursor → Except ReplicationError (List Record × Cursor)
  | 0, _, c => .ok ([], c)
  | count + 1, previous, c => do
    let (typeId, c) ← c.u32
    let (size, c) ← c.u32
    let (payload, c) ← c.take size.toNat
    if !ascends previous typeId then
      throw (.outOfOrder typeId)
    let (records, c) ← readRecords count (some typeId) c
    return (⟨typeId, payload⟩ :: records, c)

def decode (bytes : Bytes) : Except ReplicationError (List Record) := do
  let (count, c) ← Cursor.u32 ⟨bytes, 0⟩
  let (records, c) ← readRecords count.toNat none c
  if c.rest.isEmpty then return records
  throw (.trailingBytes c.rest.length)

/-- The number of records that a snapshot announces. -/
def peekCount (bytes : Bytes) : Except ReplicationError UInt32 := do
  let (count, _) ← Cursor.u32 ⟨bytes, 0⟩
  return count

end Wire
end EntityWorld
