import EntityWorld.Bytes
set_option autoImplicit false

/-!
Values that a host stores in components, and the host's types for them. Plain values are their
bytes; values that own memory are kept as the records they are.
-/
namespace EntityWorld

structure Inventory where
  items : List String
  gold : UInt32
  deriving DecidableEq, Repr

inductive GearKind where
  | bare
  | blade (sharpness : UInt8)
  | armor (defense : Int64)
  deriving DecidableEq, Repr

/-- Tags are sorted by key and no key occurs twice. -/
structure Gear where
  equipped : Bool
  slot : Option UInt16
  mark : Char
  kind : GearKind
  tags : List (String × Int32)
  deriving DecidableEq, Repr

inductive Value where
  | plain (bytes : Bytes)
  | label (text : String)
  | inventory (value : Inventory)
  | gear (value : Gear)
  deriving DecidableEq, Repr

namespace Value

def zeros (size : Nat) : Value := plain (List.replicate size 0)

def ofNat (width n : Nat) : Value := plain (littleEndian width n)

def bytes : Value → Bytes
  | plain bs => bs
  | _ => []

def toNat (v : Value) : Nat := ofLittleEndian v.bytes

theorem toNat_ofNat (width n : Nat) (h : n < Nat.pow 256 width) : (ofNat width n).toNat = n :=
  ofLittleEndian_littleEndian width n h

end Value

/-- A type of the host's own language: its identity, its layout, whether a value owns memory
that has to be released, and its default value. -/
structure HostType where
  name : String
  size : Nat
  align : Nat
  ownsMemory : Bool
  default : Value
  deriving DecidableEq, Repr

namespace HostType

def scalar (name : String) (size align : Nat) : HostType := ⟨name, size, align, false, .zeros size⟩

def u8 : HostType := scalar "u8" 1 1
def u32 : HostType := scalar "u32" 4 4
def u64 : HostType := scalar "u64" 8 8
def i64 : HostType := scalar "i64" 8 8
def hp : HostType := scalar "hp" 4 4
def pos : HostType := scalar "pos" 8 4
def vel : HostType := scalar "vel" 8 4
def f32x2 : HostType := scalar "f32x2" 8 4
def unit : HostType := scalar "unit" 0 1
def label : HostType := ⟨"label", 24, 8, true, .label ""⟩
def inventory : HostType := ⟨"inventory", 32, 8, true, .inventory ⟨[], 0⟩⟩
def gear : HostType := ⟨"gear", 8, 8, true, .gear ⟨false, none, '\x00', .bare, []⟩⟩

def all : List HostType :=
  [u8, u32, u64, i64, hp, pos, vel, f32x2, unit, label, inventory, gear]

def ofName? (name : String) : Option HostType := all.find? fun t => t.name == name

end HostType
end EntityWorld
