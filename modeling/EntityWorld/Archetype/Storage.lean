import EntityWorld.Archetype
import EntityWorld.Schema.Registry
set_option autoImplicit false

/-!
All tables of a world. There is one table for a list of ids; tables are created when first
needed and stay, so their numbers follow the order of creation. The table reached from another
one by adding or removing an id is remembered there.
-/
namespace EntityWorld

structure Storage where
  archetypes : Array Archetype
  byIds : FinMap (List Id) ArchetypeId

namespace Storage

def empty : Storage where
  archetypes := #[Archetype.new .empty [] []]
  byIds := FinMap.empty.insert [] .empty

def size (s : Storage) : Nat := s.archetypes.size

def get? (s : Storage) (id : ArchetypeId) : Option Archetype := s.archetypes[id.raw.toNat]?

def set (s : Storage) (a : Archetype) : Storage :=
  { s with archetypes := s.archetypes.setIfInBounds a.id.raw.toNat a }

def since (s : Storage) (n : Nat) : List Archetype := s.archetypes.toList.drop n

/-- The table for `ids`, created if there is none. Nothing changes if a type is unknown. -/
def getOrCreate (s : Storage) (ids : List Id) (r : Registry) : Option (ArchetypeId × Storage) :=
  match s.byIds.get? ids with
  | some id => some (id, s)
  | none =>
    match ids.mapM fun id => r.descriptor? id.typeHandle with
    | none => none
    | some types =>
      let id : ArchetypeId := ⟨UInt32.ofNat s.size⟩
      some (id, { archetypes := s.archetypes.push (Archetype.new id ids types),
                  byIds := s.byIds.insert ids id })

/-- Bisection for `id` among `count` ids from position `base`; at most `fuel` halvings. -/
def bisect (ids : List Id) (id : Id) : Nat → Nat → Nat → Nat
  | 0, base, _ => base
  | fuel + 1, base, count =>
    if count ≤ 1 then base
    else
      let half := count / 2
      let middle := base + half
      match ids[middle]? with
      | some m => bisect ids id fuel (if id.before m then base else middle) (count - half)
      | none => base

def insertionPoint (ids : List Id) (id : Id) : Nat :=
  let base := bisect ids id ids.length 0 ids.length
  match ids[base]? with
  | some m => if m.before id then base + 1 else base
  | none => base

def insertId (ids : List Id) (id : Id) : List Id := ids.insertIdx (insertionPoint ids id) id

def withId (s : Storage) (base : ArchetypeId) (id : Id) (r : Registry) :
    Option (ArchetypeId × Storage) :=
  match s.get? base with
  | none => none
  | some a =>
    if a.contains id then some (base, s)
    else match a.addEdges.get? id with
      | some next => some (next, s)
      | none =>
        match s.getOrCreate (insertId a.ids id) r with
        | none => none
        | some (next, s) =>
          match s.get? base with
          | some a => some (next, s.set { a with addEdges := a.addEdges.insert id next })
          | none => some (next, s)

def withoutId (s : Storage) (base : ArchetypeId) (id : Id) (r : Registry) :
    Option (ArchetypeId × Storage) :=
  match s.get? base with
  | none => none
  | some a =>
    if !a.contains id then some (base, s)
    else match a.removeEdges.get? id with
      | some next => some (next, s)
      | none =>
        match s.getOrCreate (a.ids.filter fun own => own ≠ id) r with
        | none => none
        | some (next, s) =>
          match s.get? base with
          | some a => some (next, s.set { a with removeEdges := a.removeEdges.insert id next })
          | none => some (next, s)

/-- The outcome of taking an entity out of a row: the tables, its new row, the entity that moved
into the old row, and the hook calls. -/
structure RowMove where
  storage : Storage
  row : Nat
  moved : Option Entity
  events : List HookEvent

/-- Move the row of `e` from one table to another. Columns of the new table for which the entity
had no value stay one short. -/
def moveRow (s : Storage) (e : Entity) (source : ArchetypeId) (row : Nat) (target : ArchetypeId) :
    Option RowMove :=
  match s.get? source, s.get? target with
  | some src, some dst =>
    let newRow := dst.size
    let (columns, dst, events) := Archetype.takeRow row (src.ids.zip src.columns) (dst.pushEntity e)
    let (moved, src) := Archetype.swapRemoveEntity { src with columns := columns } row
    some ⟨(s.set src).set dst, newRow, moved, events⟩
  | _, _ => none

def removeRow (s : Storage) (source : ArchetypeId) (row : Nat) : Option RowMove :=
  match s.get? source with
  | some a =>
    let (columns, events) := Archetype.dropRow row a.columns
    let (moved, a) := Archetype.swapRemoveEntity { a with columns := columns } row
    some ⟨s.set a, row, moved, events⟩
  | none => none

def dropAll (s : Storage) : List HookEvent := s.archetypes.toList.flatMap Archetype.dropAll

def inspect (s : Storage) : String := s!"ArchetypeStorage \x7b archetype_count: {s.size} \x7d"

end Storage
end EntityWorld
