import EntityWorld.Host.Error
import EntityWorld.World.Despawn
import EntityWorld.World.Relation
import EntityWorld.World.Value
set_option autoImplicit false

/-!
Records: what a host object declares for its entity. A record is a chain of seeds; sub-entities
have records of their own and are made after all other seeds of their record.
-/
namespace EntityWorld

inductive EntityRecord where
  | nil
  | default (h : TypeHandle) (rest : EntityRecord)
  | value (v : ComponentValue) (rest : EntityRecord)
  | pair (relation : TypeHandle) (target : ObjectId) (rest : EntityRecord)
  | name (name : String) (rest : EntityRecord)
  | sub (name : String) (record : EntityRecord) (rest : EntityRecord)

namespace EntityRecord

/-- Number of seeds, those of sub-entities aside. -/
def size : EntityRecord → Nat
  | nil => 0
  | default _ rest | value _ rest | pair _ _ rest | name _ rest | sub _ _ rest => rest.size + 1

/-- Objects named as pair targets at any depth, each once, added to `found`. -/
def collectTargets : EntityRecord → List ObjectId → List ObjectId
  | nil, found => found
  | pair _ target rest, found =>
    rest.collectTargets (if found.contains target then found else found ++ [target])
  | sub _ record rest, found => rest.collectTargets (record.collectTargets found)
  | default _ rest, found | value _ rest, found | name _ rest, found => rest.collectTargets found

def pairTargets (r : EntityRecord) : List ObjectId := r.collectTargets []

def participates (reg : Registry) : EntityRecord → Bool
  | nil => false
  | default h rest => reg.contains h || rest.participates reg
  | value v rest => reg.contains v.handle || rest.participates reg
  | pair relation _ rest => reg.contains relation || rest.participates reg
  | name _ rest => rest.participates reg
  | sub _ record rest => record.participates reg || rest.participates reg

def dropEvents : EntityRecord → List HookEvent
  | nil => []
  | value v rest => v.dropEvents ++ rest.dropEvents
  | sub _ record rest => record.dropEvents ++ rest.dropEvents
  | default _ rest | pair _ _ rest | name _ rest => rest.dropEvents

def lift {α : Type} (r : Except EcsError α × World) : Except BridgeError Unit × World :=
  (match r.1 with
    | .ok _ => .ok ()
    | .error e => .error (.ecs e), r.2)

/-- Add the seeds of a record to `e` in order, sub-entities aside, up to the first failure. A
name that is taken is no failure. -/
def applySeeds (resolve : ObjectId → Option Entity) (e : Entity) :
    EntityRecord → World → Except BridgeError Unit × World
  | nil, w => (.ok (), w)
  | default h rest, w =>
    match lift (w.add e (Id.component h)) with
    | (.ok (), w) => rest.applySeeds resolve e w
    | (.error err, w) => (.error err, w)
  | value v rest, w =>
    match lift (w.writeValueRef e v) with
    | (.ok (), w) => rest.applySeeds resolve e w
    | (.error err, w) => (.error err, w)
  | pair relation target rest, w =>
    match resolve target with
    | none => (.error (.notBound target), w)
    | some t =>
      match lift (w.addPair e relation t) with
      | (.ok (), w) => rest.applySeeds resolve e w
      | (.error err, w) => (.error err, w)
  | name n rest, w =>
    match lift (w.setName e n) with
    | (.ok (), w) => rest.applySeeds resolve e w
    | (.error err, w) => (.error err, w)
  | sub _ _ rest, w => rest.applySeeds resolve e w

/-- Spawn a child under `parent` and name it after its parent's name. A child that cannot be put
there is ended again. -/
def spawnChild (parent : Entity) (childName : String) (w : World) :
    Except BridgeError Entity × World :=
  let (child, w) := w.spawn
  match w.setParent child parent with
  | (.error err, w) => (.error (.ecs err), (w.despawn child).2)
  | (.ok (), w) =>
    let path :=
      match w.nameOf parent with
      | some scope => scope ++ "." ++ childName
      | none => childName
    match w.setName child path with
    | (.error err, w) => (.error (.ecs err), w)
    | (.ok _, w) => (.ok child, w)

def applySubs (resolve : ObjectId → Option Entity) :
    EntityRecord → Entity → World → Except BridgeError Unit × World
  | nil, _, w => (.ok (), w)
  | sub childName record rest, e, w =>
    match spawnChild e childName w with
    | (.error err, w) => (.error err, w)
    | (.ok child, w) =>
      match record.applySeeds resolve child w with
      | (.error err, w) => (.error err, w)
      | (.ok (), w) =>
        match record.applySubs resolve child w with
        | (.error err, w) => (.error err, w)
        | (.ok (), w) => rest.applySubs resolve e w
  | default _ rest, e, w | value _ rest, e, w | pair _ _ rest, e, w | name _ rest, e, w =>
    rest.applySubs resolve e w

def apply (r : EntityRecord) (resolve : ObjectId → Option Entity) (e : Entity) (w : World) :
    Except BridgeError Unit × World :=
  match r.applySeeds resolve e w with
  | (.error err, w) => (.error err, w)
  | (.ok (), w) => r.applySubs resolve e w

end EntityRecord
end EntityWorld
