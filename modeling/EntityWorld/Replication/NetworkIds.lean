import EntityWorld.FinMap
import EntityWorld.Replication.Error
import EntityWorld.World.Basic
set_option autoImplicit false

/-!
The two-way map between network ids and entities.
-/
namespace EntityWorld

structure NetworkIds where
  toEntity : FinMap NetworkId Entity
  toNetwork : FinMap Entity NetworkId
  next : UInt32

namespace NetworkIds

def empty : NetworkIds := ⟨.empty, .empty, 0⟩

def entity? (m : NetworkIds) (n : NetworkId) : Option Entity := m.toEntity.get? n

def networkId? (m : NetworkIds) (e : Entity) : Option NetworkId := m.toNetwork.get? e

def size (m : NetworkIds) : Nat := m.toEntity.size

/-- Bind an id to an entity in place of whatever either was bound to; tells the entity that
loses the id. -/
def bind (m : NetworkIds) (n : NetworkId) (e : Entity) : Option Entity × NetworkIds :=
  let toEntity :=
    match m.toNetwork.get? e with
    | some old => m.toEntity.erase old
    | none => m.toEntity
  let toNetwork := m.toNetwork.erase e
  let previous := toEntity.get? n
  let toNetwork :=
    match previous with
    | some p => toNetwork.erase p
    | none => toNetwork
  (previous, { m with toEntity := toEntity.insert n e, toNetwork := toNetwork.insert e n })

/-- The first free id from `next` on; one of `tries` successive ids. -/
def freeId (m : NetworkIds) : Nat → UInt32 → UInt32
  | 0, n => n
  | tries + 1, n => if m.toEntity.contains ⟨n⟩ then m.freeId tries (n + 1) else n

/-- The id of an entity; a new one if it has none. Among more successive ids than are bound, one
is free. -/
def allocate (m : NetworkIds) (e : Entity) : NetworkId × NetworkIds :=
  match m.toNetwork.get? e with
  | some n => (n, m)
  | none =>
    let n := m.freeId m.size m.next
    (⟨n⟩, ({ m with next := n + 1 }.bind ⟨n⟩ e).2)

def unbind (m : NetworkIds) (n : NetworkId) : Option Entity × NetworkIds :=
  match m.toEntity.get? n with
  | none => (none, m)
  | some e => (some e, { m with toEntity := m.toEntity.erase n, toNetwork := m.toNetwork.erase e })

def unbindEntity (m : NetworkIds) (e : Entity) : Option NetworkId × NetworkIds :=
  match m.toNetwork.get? e with
  | none => (none, m)
  | some n => (some n, { m with toEntity := m.toEntity.erase n, toNetwork := m.toNetwork.erase e })

def retainAlive (m : NetworkIds) (w : World) : Nat × NetworkIds :=
  let toEntity := m.toEntity.filter fun _ e => w.isAlive e
  (m.toEntity.size - toEntity.size,
    { m with toEntity := toEntity, toNetwork := m.toNetwork.filter fun e _ => w.isAlive e })

end NetworkIds
end EntityWorld
