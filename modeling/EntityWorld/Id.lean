import EntityWorld.Entity
set_option autoImplicit false

/-!
Ids of the columns of a table: a component type, or a pair of a relation and a target slot.
An id is one word. Bit 63 marks a pair, bits 62 to 32 hold the relation and bits 31 to 0 the
target's index; the all-ones index is the wildcard, which stands for any target.
-/
namespace EntityWorld

structure TypeHandle where
  raw : UInt32
  deriving DecidableEq, Repr

def TypeHandle.inspect (h : TypeHandle) : String := s!"TypeHandle({h.raw})"

structure Id where
  bits : UInt64
  deriving DecidableEq, Repr

namespace Id

def pairFlag : Nat := 0x8000000000000000

def wildcardIndex : UInt32 := 0xffffffff

def component (h : TypeHandle) : Id := ⟨UInt64.ofNat h.raw.toNat⟩

/-- There is room for the low 31 bits of the relation's handle. -/
def pairAt (relation : TypeHandle) (index : UInt32) : Id :=
  ⟨UInt64.ofNat (pairFlag + relation.raw.toNat % 0x80000000 * 0x100000000 + index.toNat)⟩

/-- Only the slot of the target is kept, not its generation. -/
def pair (relation : TypeHandle) (target : Entity) : Id := pairAt relation target.index

def wildcard (relation : TypeHandle) : Id := pairAt relation wildcardIndex

def isPair (id : Id) : Bool := pairFlag ≤ id.bits.toNat

def lowIndex (id : Id) : UInt32 := UInt32.ofNat (id.bits.toNat % 0x100000000)

def isWildcard (id : Id) : Bool := id.isPair && id.lowIndex == wildcardIndex

/-- The type that lays out the column: the component, or the relation of the pair. -/
def typeHandle (id : Id) : TypeHandle :=
  if id.isPair then ⟨UInt32.ofNat ((id.bits.toNat - pairFlag) / 0x100000000)⟩ else ⟨id.lowIndex⟩

def target? (id : Id) : Option UInt32 := if id.isPair then some id.lowIndex else none

/-- A wildcard is matched by every pair of its relation, any other pattern by itself alone. -/
def satisfies (id pattern : Id) : Bool :=
  if pattern.isWildcard then id.isPair && id.typeHandle == pattern.typeHandle
  else id == pattern

/-- Components come before pairs; pairs are ordered by relation, then by target. -/
def before (a b : Id) : Bool := a.bits < b.bits

def order (a b : Id) : Ordering := compare a.bits b.bits

def inspect (id : Id) : String :=
  match id.target? with
  | none => s!"{id.typeHandle.raw}"
  | some index =>
    if index == wildcardIndex then s!"({id.typeHandle.raw}, *)"
    else s!"({id.typeHandle.raw}, #{index})"

theorem toNat_component (h : TypeHandle) : (component h).bits.toNat = h.raw.toNat := by
  have := h.raw.toNat_lt
  rw [component, UInt64.toNat_ofNat']
  omega

theorem toNat_pairAt (r : TypeHandle) (i : UInt32) :
    (pairAt r i).bits.toNat = pairFlag + r.raw.toNat % 0x80000000 * 0x100000000 + i.toNat := by
  have := i.toNat_lt
  have : r.raw.toNat % 0x80000000 < 0x80000000 := Nat.mod_lt _ (by decide)
  simp only [pairAt, UInt64.toNat_ofNat', pairFlag]
  omega

@[simp] theorem isPair_component (h : TypeHandle) : (component h).isPair = false := by
  have := h.raw.toNat_lt
  simp only [isPair, toNat_component, pairFlag, decide_eq_false_iff_not]
  omega

@[simp] theorem isPair_pairAt (r : TypeHandle) (i : UInt32) : (pairAt r i).isPair = true := by
  simp only [isPair, toNat_pairAt, decide_eq_true_eq]
  omega

@[simp] theorem typeHandle_component (h : TypeHandle) : (component h).typeHandle = h := by
  have hr := h.raw.toNat_lt
  have hm : h.raw.toNat % 0x100000000 = h.raw.toNat := by omega
  rw [typeHandle, isPair_component, if_neg Bool.false_ne_true, lowIndex, toNat_component, hm,
    UInt32.ofNat_toNat]

@[simp] theorem lowIndex_pairAt (r : TypeHandle) (i : UInt32) : (pairAt r i).lowIndex = i := by
  have hi := i.toNat_lt
  have hm : (pairFlag + r.raw.toNat % 0x80000000 * 0x100000000 + i.toNat) % 0x100000000 =
      i.toNat := by
    simp only [pairFlag]
    omega
  rw [lowIndex, toNat_pairAt, hm, UInt32.ofNat_toNat]

theorem typeHandle_pairAt (r : TypeHandle) (i : UInt32) (h : r.raw.toNat < 0x80000000) :
    (pairAt r i).typeHandle = r := by
  have hi := i.toNat_lt
  have hm : (pairFlag + r.raw.toNat % 0x80000000 * 0x100000000 + i.toNat - pairFlag) / 0x100000000 =
      r.raw.toNat := by
    simp only [pairFlag]
    omega
  rw [typeHandle, isPair_pairAt, if_pos rfl, toNat_pairAt, hm, UInt32.ofNat_toNat]

end Id
end EntityWorld
