import EntityWorld.World.Basic
set_option autoImplicit false

/-!
Adding ids to entities and removing them. Both move the entity's row to the table of its new ids.
-/
namespace EntityWorld.World

/-- Whether a live entity carries `id`; of a wildcard, some pair of its relation. -/
def has (w : World) (e : Entity) (id : Id) : Bool :=
  match w.archetypeOf? e with
  | some a => a.contains id
  | none => false

def peek (w : World) (e : Entity) (id : Id) : Option Value :=
  match w.location? e with
  | some loc =>
    match w.storage.get? loc.archetype with
    | some a => a.value? loc.row id
    | none => none
  | none => none

def place (w : World) (e : Entity) : Except EcsError Location :=
  match w.location? e with
  | some loc => .ok loc
  | none => .error (.staleHandle e)

/-- The type of an id that may be stored: registered, and no wildcard; a pair needs a relation. -/
def checkId (w : World) (id : Id) : Except EcsError TypeDescriptor :=
  match w.descriptor id.typeHandle with
  | .error e => .error e
  | .ok d =>
    if id.isWildcard then .error (.query (.wildcardStored d.path))
    else if id.isPair && d.classification ≠ .relationship then
      .error (.query (.notRelationship d.path))
    else .ok d

/-- Move the row of `e` to another table, where its ids that are gone are destroyed. -/
def moveTo (w : World) (e : Entity) (loc : Location) (target : ArchetypeId) : World :=
  match w.storage.moveRow e loc.archetype loc.row target with
  | some m =>
    (({ w with storage := m.storage }.relocate m.moved loc.row).setLocation e.index
      (some ⟨target, m.row⟩)).note m.events
  | none => w

/-- Give `e` the id with the value that `fill` puts at the end of the column. -/
def insertWith (w : World) (e : Entity) (loc : Location) (id : Id)
    (fill : Column → Column × List HookEvent) : Except EcsError Unit × World :=
  match w.storage.withId loc.archetype id w.registry with
  | none => (.error (.unknownType id.typeHandle), w)
  | some (target, storage) =>
    let w := { w with storage := storage }.moveTo e loc target
    match w.storage.get? target with
    | some a =>
      let (a, events) := a.updateColumn id fill
      (.ok (), { w with storage := w.storage.set a }.note events)
    | none => (.ok (), w)

/-- Add `id` with the default value of its type; `false` if it is there already. -/
def add (w : World) (e : Entity) (id : Id) : Except EcsError Bool × World :=
  match w.place e with
  | .error err => (.error err, w)
  | .ok loc =>
    match w.checkId id with
    | .error err => (.error err, w)
    | .ok d =>
      if w.has e id then (.ok false, w)
      else if !d.canDefault then (.error (.schema (.noDefault d.path)), w)
      else
        let (result, w) := w.insertWith e loc id fun c => c.pushDefault.2
        (result.map fun _ => true, w)

def remove (w : World) (e : Entity) (id : Id) : Except EcsError Bool × World :=
  match w.place e with
  | .error err => (.error err, w)
  | .ok loc =>
    match w.storage.withoutId loc.archetype id w.registry with
    | none => (.error (.unknownType id.typeHandle), w)
    | some (target, storage) =>
      let w := { w with storage := storage }
      if target = loc.archetype then (.ok false, w) else (.ok true, w.moveTo e loc target)

end EntityWorld.World
