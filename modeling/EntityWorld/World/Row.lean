import EntityWorld.World.Value
import EntityWorld.World.Relation
set_option autoImplicit false

/-!
Rows of tables as a query hands them out, and what can be done with one while no row moves.
-/
namespace EntityWorld

structure Row where
  entity : Entity
  archetype : ArchetypeId
  row : Nat
  deriving DecidableEq, Repr

namespace Row

def inspect (r : Row) : String :=
  s!"QueryRow \x7b entity: {r.entity.inspect}, archetype: {r.archetype.inspect} \x7d"

end Row

namespace World

/-- The value of `id` in a row. -/
def rowPeek (w : World) (r : Row) (id : Id) : Option Value :=
  match w.storage.get? r.archetype with
  | some a => a.value? r.row id
  | none => none

def rowHas (w : World) (r : Row) (id : Id) : Bool :=
  match w.storage.get? r.archetype with
  | some a => a.contains id
  | none => false

def rowTarget (w : World) (r : Row) (relation : TypeHandle) : Option Entity :=
  match w.storage.get? r.archetype with
  | some a => (pairedSlots relation a.ids).findSome? w.resolve
  | none => none

def rowTryGet (w : World) (r : Row) (h : TypeHandle) (t : HostType) :
    Except EcsError (Option Value) × World :=
  match w.descriptor h with
  | .error err => (.error err, w)
  | .ok d =>
    match d.checkTyped t with
    | .error err => (.error err, w)
    | .ok () =>
      match w.rowPeek r (Id.component h) with
      | some v => (.ok (some v), w.note (d.copyEvents v))
      | none => (.ok none, w)

def rowGet (w : World) (r : Row) (h : TypeHandle) (t : HostType) : Except EcsError Value × World :=
  match w.rowTryGet r h t with
  | (.error err, w) => (.error err, w)
  | (.ok (some v), w) => (.ok v, w)
  | (.ok none, w) => (.error (.missingComponent r.entity (w.registry.pathOf h)), w)

def rowValue (w : World) (r : Row) (id : Id) : Option ComponentValue × World :=
  match w.descriptor? id.typeHandle with
  | none => (none, w)
  | some d =>
    match w.rowPeek r id with
    | some v => (some ⟨d, v⟩, w.note (d.copyEvents v))
    | none => (none, w)

def rowSet (w : World) (r : Row) (h : TypeHandle) (t : HostType) (v : Value) :
    Except EcsError Unit × World :=
  match w.descriptor h with
  | .error err => (.error err, w)
  | .ok d =>
    match d.checkTyped t with
    | .error err => (.error err, w)
    | .ok () =>
      if d.isTag then (.error (.tagValue d.path), w)
      else
        match w.storage.get? r.archetype with
        | none => (.error (.missingComponent r.entity d.path), w)
        | some a =>
          match a.column? (Id.component h) with
          | none => (.error (.missingComponent r.entity d.path), w)
          | some _ =>
            let (a, events) := a.updateColumn (Id.component h) fun c => c.assignMove r.row v
            (.ok (), { w with storage := w.storage.set a }.note events)

end World
end EntityWorld
