import EntityWorld.Payload
set_option autoImplicit false

/-!
Written forms of data: how a value of a type is laid out in bytes and read from the front of an
input. Numbers have fixed widths and their lowest byte first; lists, texts and maps start with
their length in eight bytes, an option with a tag byte, a variant with its index in four bytes.
-/
namespace EntityWorld

structure Form (α : Type) where
  write : α → Bytes
  read : Bytes → Except PayloadError (α × Bytes)

namespace Form

variable {α β : Type}

def splitBytes (n : Nat) (bs : Bytes) : Except PayloadError (Bytes × Bytes) :=
  if n ≤ bs.length then .ok (bs.splitAt n) else .error .endOfInput

def readNat (width : Nat) (bs : Bytes) : Except PayloadError (Nat × Bytes) := do
  let (front, rest) ← splitBytes width bs
  return (ofLittleEndian front, rest)

def u8 : Form UInt8 where
  write n := [n]
  read bs := do
    let (n, rest) ← readNat 1 bs
    return (UInt8.ofNat n, rest)

def u16 : Form UInt16 where
  write n := littleEndian 2 n.toNat
  read bs := do
    let (n, rest) ← readNat 2 bs
    return (UInt16.ofNat n, rest)

def u32 : Form UInt32 where
  write n := littleEndian 4 n.toNat
  read bs := do
    let (n, rest) ← readNat 4 bs
    return (UInt32.ofNat n, rest)

def u64 : Form UInt64 where
  write n := littleEndian 8 n.toNat
  read bs := do
    let (n, rest) ← readNat 8 bs
    return (UInt64.ofNat n, rest)

def i32 : Form Int32 where
  write n := u32.write n.toUInt32
  read bs := do
    let (n, rest) ← u32.read bs
    return (n.toInt32, rest)

def i64 : Form Int64 where
  write n := u64.write n.toUInt64
  read bs := do
    let (n, rest) ← u64.read bs
    return (n.toInt64, rest)

def bool : Form Bool where
  write b := [if b then 1 else 0]
  read bs := do
    let (n, rest) ← u8.read bs
    if n == 0 then return (false, rest)
    else if n == 1 then return (true, rest)
    else throw (.badBool n)

def option (f : Form α) : Form (Option α) where
  write
    | none => [0]
    | some a => 1 :: f.write a
  read bs := do
    let (tag, rest) ← u8.read bs
    if tag == 0 then return (none, rest)
    else if tag == 1 then
      let (a, rest) ← f.read rest
      return (some a, rest)
    else throw (.badTag tag)

def readMany (f : Form α) : Nat → Bytes → Except PayloadError (List α × Bytes)
  | 0, bs => .ok ([], bs)
  | n + 1, bs => do
    let (a, rest) ← f.read bs
    let (as, rest) ← readMany f n rest
    return (a :: as, rest)

def list (f : Form α) : Form (List α) where
  write as := littleEndian 8 as.length ++ as.flatMap f.write
  read bs := do
    let (n, rest) ← readNat 8 bs
    readMany f n rest

def pair (f : Form α) (g : Form β) : Form (α × β) where
  write p := f.write p.1 ++ g.write p.2
  read bs := do
    let (a, rest) ← f.read bs
    let (b, rest) ← g.read rest
    return ((a, b), rest)

def text : Form String where
  write s := littleEndian 8 (utf8 s).length ++ utf8 s
  read bs := do
    let (n, rest) ← readNat 8 bs
    if rest.length < n then throw .shortText
    match Text.decodeUtf8 (rest.take n) with
    | .ok s => return (s, rest.drop n)
    | .error e => throw (.badText e)

def char : Form Char where
  write c := String.utf8EncodeChar c
  read
    | [] => .error .endOfInput
    | b :: bs =>
      match Text.firstChar b bs with
      | .ok (c, width) => .ok (c, bs.drop (width - 1))
      | .error _ => .error .badChar

def insertSorted (key : String) (b : β) : List (String × β) → List (String × β)
  | [] => [(key, b)]
  | (k, x) :: rest =>
    if key < k then (key, b) :: (k, x) :: rest
    else if key = k then (key, b) :: rest
    else (k, x) :: insertSorted key b rest

/-- A map with text keys, written in the order of its keys; of equal keys the last one counts. -/
def textMap (f : Form β) : Form (List (String × β)) where
  write := (list (pair text f)).write
  read bs := do
    let (entries, rest) ← (list (pair text f)).read bs
    return (entries.foldl (fun m e => insertSorted e.1 e.2 m) [], rest)

def gearKind : Form GearKind where
  write
    | .bare => u32.write 0
    | .blade sharpness => u32.write 1 ++ u8.write sharpness
    | .armor defense => u32.write 2 ++ i64.write defense
  read bs := do
    let (index, rest) ← u32.read bs
    match index.toNat with
    | 0 => return (.bare, rest)
    | 1 =>
      let (sharpness, rest) ← u8.read rest
      return (.blade sharpness, rest)
    | 2 =>
      let (defense, rest) ← i64.read rest
      return (.armor defense, rest)
    | _ => throw (.badVariant index 3)

def inventory : Form Inventory where
  write v := (list text).write v.items ++ u32.write v.gold
  read bs := do
    let (items, rest) ← (list text).read bs
    let (gold, rest) ← u32.read rest
    return (⟨items, gold⟩, rest)

def gear : Form Gear where
  write v :=
    bool.write v.equipped ++ (option u16).write v.slot ++ char.write v.mark ++
      gearKind.write v.kind ++ (textMap i32).write v.tags
  read bs := do
    let (equipped, rest) ← bool.read bs
    let (slot, rest) ← (option u16).read rest
    let (mark, rest) ← char.read rest
    let (kind, rest) ← gearKind.read rest
    let (tags, rest) ← (textMap i32).read rest
    return (⟨equipped, slot, mark, kind, tags⟩, rest)

theorem u8_read_write (n : UInt8) (rest : Bytes) :
    u8.read (u8.write n ++ rest) = .ok (n, rest) := by
  simp [u8, readNat, splitBytes, ofLittleEndian, bind, Except.bind, pure, Except.pure]

end Form

/-- The compact codec of a host type; bytes after the value are let pass. -/
def PayloadCodec.compact (t : HostType) : PayloadCodec where
  encode
    | .plain bs => .ok (bs.take t.size)
    | .label s => .ok (Form.text.write s)
    | .inventory v => .ok (Form.inventory.write v)
    | .gear v => .ok (Form.gear.write v)
  decode bs :=
    match t.default with
    | .plain _ => (Form.splitBytes t.size bs).map fun p => .plain p.1
    | .label _ => (Form.text.read bs).map fun p => .label p.1
    | .inventory _ => (Form.inventory.read bs).map fun p => .inventory p.1
    | .gear _ => (Form.gear.read bs).map fun p => .gear p.1

end EntityWorld
