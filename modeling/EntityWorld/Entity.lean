set_option autoImplicit false

/-!
Handles of entities. A handle names a slot and the generation that the slot had when the handle
was issued, so a handle kept after its entity died differs from every later one.
-/
namespace EntityWorld

structure Entity where
  index : UInt32
  generation : UInt32
  deriving DecidableEq, Repr

namespace Entity

/-- One word: the generation in the high half, the index in the low half. -/
def toBits (e : Entity) : UInt64 := UInt64.ofNat (e.generation.toNat * 0x100000000 + e.index.toNat)

def ofBits (bits : UInt64) : Entity :=
  ⟨UInt32.ofNat (bits.toNat % 0x100000000), UInt32.ofNat (bits.toNat / 0x100000000)⟩

theorem ofBits_toBits (e : Entity) : ofBits e.toBits = e := by
  have hi := e.index.toNat_lt
  have hg := e.generation.toNat_lt
  have hb : e.toBits.toNat = e.generation.toNat * 0x100000000 + e.index.toNat := by
    rw [toBits, UInt64.toNat_ofNat']
    omega
  have h1 : (e.generation.toNat * 0x100000000 + e.index.toNat) % 0x100000000 =
      e.index.toNat := by omega
  have h2 : (e.generation.toNat * 0x100000000 + e.index.toNat) / 0x100000000 =
      e.generation.toNat := by omega
  simp only [ofBits, hb, h1, h2, UInt32.ofNat_toNat]

/-- The handle of the next occupant of the slot; generations wrap around. -/
def next (e : Entity) : Entity := { e with generation := e.generation + 1 }

def text (e : Entity) : String := s!"{e.index}v{e.generation}"

def inspect (e : Entity) : String := s!"Entity({e.text})"

end Entity
end EntityWorld
