import EntityWorld.Column
import EntityWorld.FinMap
import EntityWorld.Id
set_option autoImplicit false

/-!
Archetypes: tables for the entities that carry one same set of ids. A table has a column per id
and a row per entity; removing a row moves the last row into its place.
-/
namespace EntityWorld

structure ArchetypeId where
  raw : UInt32
  deriving DecidableEq, Repr

namespace ArchetypeId

def empty : ArchetypeId := ⟨0⟩

def inspect (a : ArchetypeId) : String := s!"ArchetypeId({a.raw})"

end ArchetypeId

structure Archetype where
  id : ArchetypeId
  ids : List Id
  columns : List Column
  entities : Array Entity
  addEdges : FinMap Id ArchetypeId
  removeEdges : FinMap Id ArchetypeId

namespace Archetype

def new (id : ArchetypeId) (ids : List Id) (types : List TypeDescriptor) : Archetype where
  id := id
  ids := ids
  columns := types.map Column.new
  entities := #[]
  addEdges := .empty
  removeEdges := .empty

def size (a : Archetype) : Nat := a.entities.size

def lastIndexOf? (id : Id) : List Id → Option Nat
  | [] => none
  | x :: xs =>
    match lastIndexOf? id xs with
    | some i => some (i + 1)
    | none => if x = id then some 0 else none

def columnIndex? (a : Archetype) (id : Id) : Option Nat := lastIndexOf? id a.ids

def column? (a : Archetype) (id : Id) : Option Column :=
  match a.columnIndex? id with
  | some i => a.columns[i]?
  | none => none

/-- A wildcard is contained if some pair of its relation is. -/
def contains (a : Archetype) (id : Id) : Bool :=
  if id.isWildcard then a.ids.any fun own => own.satisfies id else (a.columnIndex? id).isSome

def value? (a : Archetype) (row : Nat) (id : Id) : Option Value :=
  match a.column? id with
  | some c => c.rows[row]?
  | none => none

def updateColumn (a : Archetype) (id : Id) (f : Column → Column × List HookEvent) :
    Archetype × List HookEvent :=
  match a.columnIndex? id with
  | none => (a, [])
  | some i =>
    match a.columns[i]? with
    | none => (a, [])
    | some c =>
      let (c, events) := f c
      ({ a with columns := a.columns.set i c }, events)

/-- Append a row for `e`; the columns are left to be filled. -/
def pushEntity (a : Archetype) (e : Entity) : Archetype :=
  { a with entities := a.entities.push e }

/-- Take the entity out of a row and tell which entity has moved there. -/
def swapRemoveEntity (a : Archetype) (row : Nat) : Option Entity × Archetype :=
  match a.entities.back? with
  | some last =>
    if row + 1 < a.size then
      (some last, { a with entities := (a.entities.setIfInBounds row last).pop })
    else (none, { a with entities := a.entities.pop })
  | none => (none, a)

def dropRow (row : Nat) : List Column → List Column × List HookEvent
  | [] => ([], [])
  | c :: cs =>
    let (c, first) := c.swapRemove row
    let (cs, more) := dropRow row cs
    (c :: cs, first ++ more)

/-- Take the values out of a row: a value whose id `dst` has moves there, any other one is
destroyed. -/
def takeRow (row : Nat) : List (Id × Column) → Archetype → List Column × Archetype × List HookEvent
  | [], dst => ([], dst, [])
  | (id, c) :: rest, dst =>
    match dst.columnIndex? id with
    | some i =>
      match dst.columns[i]? with
      | some d =>
        let (c, d, first) := c.swapRemoveInto row d
        let (cs, dst, more) := takeRow row rest { dst with columns := dst.columns.set i d }
        (c :: cs, dst, first ++ more)
      | none =>
        let (cs, dst, more) := takeRow row rest dst
        (c :: cs, dst, more)
    | none =>
      let (c, first) := c.swapRemove row
      let (cs, dst, more) := takeRow row rest dst
      (c :: cs, dst, first ++ more)

def dropAll (a : Archetype) : List HookEvent := a.columns.flatMap fun c => c.clear.2

def inspect (a : Archetype) : String :=
  let ids := ", ".intercalate (a.ids.map Id.inspect)
  s!"Archetype \x7b id: {a.id.inspect}, ids: [{ids}], entity_count: {a.size} \x7d"

end Archetype
end EntityWorld
