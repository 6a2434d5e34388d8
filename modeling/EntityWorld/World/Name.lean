import EntityWorld.World.Basic
set_option autoImplicit false

/-!
Names of entities. A name belongs to one live entity at a time.
-/
namespace EntityWorld.World

/-- Name `e`; `false` if another live entity has the name. -/
def setName (w : World) (e : Entity) (name : String) : Except EcsError Bool × World :=
  if w.location? e = none then (.error (.staleHandle e), w)
  else
    let taken :=
      match w.names.get? name with
      | some owner => owner ≠ e && w.isAlive owner
      | none => false
    if taken then (.ok false, w)
    else
      let names :=
        match w.entityNames.get? e.index with
        | some old => w.names.erase old
        | none => w.names
      (.ok true, { w with names := names.insert name e,
                          entityNames := w.entityNames.insert e.index name })

def lookup (w : World) (name : String) : Option Entity :=
  match w.names.get? name with
  | some e => if w.isAlive e then some e else none
  | none => none

def nameOf (w : World) (e : Entity) : Option String :=
  if w.isAlive e then w.entityNames.get? e.index else none

def named (w : World) : List (Entity × String) :=
  (w.storage.archetypes.toList.flatMap fun a => a.entities.toList).filterMap fun e =>
    (w.nameOf e).map fun name => (e, name)

def dropName (w : World) (index : UInt32) : World :=
  match w.entityNames.get? index with
  | some name => { w with names := w.names.erase name, entityNames := w.entityNames.erase index }
  | none => w

end EntityWorld.World
