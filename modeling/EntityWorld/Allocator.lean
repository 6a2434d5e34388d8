import EntityWorld.Entity
set_option autoImplicit false

/-!
Issuing entity handles. A freed slot is used again before a new one is opened, the last freed
first, and every release raises the generation of the slot.
-/
namespace EntityWorld

structure Slot where
  generation : UInt32
  alive : Bool
  deriving DecidableEq, Repr

/-- Slots by index, the indices of free slots (next to use first), and the number of live
handles. -/
structure Allocator where
  slots : Array Slot
  free : List UInt32
  aliveCount : Nat
  deriving DecidableEq, Repr

namespace Allocator

def empty : Allocator := ⟨#[], [], 0⟩

def slot? (a : Allocator) (index : UInt32) : Option Slot := a.slots[index.toNat]?

/-- A handle is alive while its slot is in use at the handle's generation. -/
def isAlive (a : Allocator) (e : Entity) : Bool :=
  match a.slot? e.index with
  | some s => s.alive && s.generation == e.generation
  | none => false

def resolve (a : Allocator) (index : UInt32) : Option Entity :=
  match a.slot? index with
  | some s => if s.alive then some ⟨index, s.generation⟩ else none
  | none => none

def allocate (a : Allocator) : Entity × Allocator :=
  match a.free with
  | [] =>
    let index := UInt32.ofNat a.slots.size
    (⟨index, 0⟩, ⟨a.slots.push ⟨0, true⟩, [], a.aliveCount + 1⟩)
  | index :: rest =>
    match a.slot? index with
    | some s =>
      (⟨index, s.generation⟩,
        ⟨a.slots.setIfInBounds index.toNat ⟨s.generation, true⟩, rest, a.aliveCount + 1⟩)
    | none => (⟨index, 0⟩, ⟨a.slots, rest, a.aliveCount + 1⟩)

/-- Release a slot; `false` and no change for a handle that is not alive. -/
def deallocate (a : Allocator) (e : Entity) : Bool × Allocator :=
  if a.isAlive e then
    (true, ⟨a.slots.setIfInBounds e.index.toNat ⟨e.generation + 1, false⟩, e.index :: a.free,
      a.aliveCount - 1⟩)
  else (false, a)

def liveIndices (a : Allocator) : List UInt32 :=
  (List.range a.slots.size).filterMap fun i =>
    match a.slots[i]? with
    | some s => if s.alive then some (UInt32.ofNat i) else none
    | none => none

def live (a : Allocator) : List Entity := a.liveIndices.filterMap a.resolve

/-- Release every slot in use, in slot order; generations go on from where they are. -/
def clear (a : Allocator) : Allocator where
  slots := a.slots.map fun s => if s.alive then ⟨s.generation + 1, false⟩ else s
  free := a.liveIndices.reverse ++ a.free
  aliveCount := 0

theorem deallocate_of_not_isAlive {a : Allocator} {e : Entity} (h : a.isAlive e = false) :
    a.deallocate e = (false, a) := by simp [deallocate, h]

theorem resolve_isAlive {a : Allocator} {i : UInt32} {e : Entity} (h : a.resolve i = some e) :
    a.isAlive e = true := by
  unfold resolve at h
  split at h
  · next s hs =>
    split at h
    · next ha =>
      obtain rfl := Option.some.inj h
      simp [isAlive, hs, ha]
    · simp at h
  · simp at h

end Allocator
end EntityWorld
