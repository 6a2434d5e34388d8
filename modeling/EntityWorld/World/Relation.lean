import EntityWorld.World.Structure
set_option autoImplicit false

/-!
Pairs of a relation and a target, and the hierarchy that the built-in relation makes.
-/
namespace EntityWorld.World

def addPair (w : World) (e : Entity) (relation : TypeHandle) (target : Entity) :
    Except EcsError Bool × World :=
  if w.isAlive target then w.add e (Id.pair relation target)
  else (.error (.staleHandle target), w)

def removePair (w : World) (e : Entity) (relation : TypeHandle) (target : Entity) :
    Except EcsError Bool × World :=
  w.remove e (Id.pair relation target)

def hasPair (w : World) (e : Entity) (relation : TypeHandle) (target : Entity) : Bool :=
  w.isAlive target && w.has e (Id.pair relation target)

def pairedSlots (relation : TypeHandle) (ids : List Id) : List UInt32 :=
  (ids.filter fun id => id.satisfies (Id.wildcard relation)).filterMap Id.target?

def targets (w : World) (e : Entity) (relation : TypeHandle) : List Entity :=
  match w.archetypeOf? e with
  | some a => (pairedSlots relation a.ids).filterMap w.resolve
  | none => []

def parentOf (w : World) (e : Entity) : Option Entity := (w.targets e w.childOf).head?

def childrenOf (w : World) (e : Entity) : List Entity :=
  if w.isAlive e then
    (w.storage.archetypes.toList.filter fun a => a.contains (Id.pair w.childOf e)).flatMap
      fun a => a.entities.toList
  else []

/-- Remove the pairs with the given targets, except the one with `kept`. -/
def removePairsExcept (w : World) (e : Entity) (relation : TypeHandle) (kept : Entity) :
    List Entity → Except EcsError Unit × World
  | [] => (.ok (), w)
  | old :: rest =>
    if old = kept then w.removePairsExcept e relation kept rest
    else
      match w.removePair e relation old with
      | (.ok _, w) => w.removePairsExcept e relation kept rest
      | (.error err, w) => (.error err, w)

def setParent (w : World) (child parent : Entity) : Except EcsError Unit × World :=
  match w.removePairsExcept child w.childOf parent (w.targets child w.childOf) with
  | (.error err, w) => (.error err, w)
  | (.ok _, w) =>
    let (result, w) := w.addPair child w.childOf parent
    (result.map fun _ => (), w)

end EntityWorld.World
