import EntityWorld.World.Name
import EntityWorld.World.Structure
set_option autoImplicit false

/-!
Despawning. The pairs that point at a dying entity go with it: by the cleanup policy of the
relation, either the pair is removed or the entity that holds it dies too.
-/
namespace EntityWorld.World

/-- Every entity with a pair on the slot of `target`, with that pair and its policy. -/
def pairSources (w : World) (target : Entity) : List (Entity × Id × CleanupPolicy) :=
  w.storage.archetypes.toList.flatMap fun a =>
    (a.ids.filter fun id => id.target? == some target.index).flatMap fun id =>
      let policy :=
        match w.descriptor? id.typeHandle with
        | some d => d.cleanup
        | none => .remove
      a.entities.toList.map fun e => (e, id, policy)

/-- Remove the pairs that are to be removed; the second part lists the entities that are to die,
the last one found first. -/
def sweepPairs (w : World) (doomed : List Entity) :
    List (Entity × Id × CleanupPolicy) → World × List Entity
  | [] => (w, doomed)
  | (source, _, .delete) :: rest => w.sweepPairs (source :: doomed) rest
  | (source, id, .remove) :: rest => (w.remove source id).2.sweepPairs doomed rest

/-- End one entity: its values, its row, its name and its handle; then tell the listeners. -/
def despawnOne (w : World) (e : Entity) : World :=
  match (w.locations[e.index.toNat]?).join with
  | none => w
  | some loc =>
    let w := { w with locations := w.locations.setIfInBounds e.index.toNat none }
    let w :=
      match w.storage.removeRow loc.archetype loc.row with
      | some m => ({ w with storage := m.storage }.relocate m.moved loc.row).note m.events
      | none => w
    let w := w.dropName e.index
    ({ w with entities := (w.entities.deallocate e).2 }).announce e

/-- End the pending entities, the last one first, and whatever has to die with each. Every round
ends a live entity, so as many rounds as there are live entities are enough. -/
def cascade : Nat → World → List Entity → World
  | 0, w, _ => w
  | rounds + 1, w, pending =>
    match pending.dropWhile fun e => !w.isAlive e with
    | [] => w
    | next :: rest =>
      let (w, pending) := w.sweepPairs rest (w.pairSources next)
      cascade rounds (w.despawnOne next) pending

def despawn (w : World) (e : Entity) : Bool × World :=
  if w.isAlive e then (true, cascade w.entityCount w [e]) else (false, w)

/-- End every entity, then forget every type but the built-in ones. Handles given out before stay
dead. -/
def shutdown (w : World) : World :=
  let live := w.entities.live
  let w := w.note w.storage.dropAll
  let w := { w with
    storage := .empty
    entities := w.entities.clear
    locations := #[]
    names := .empty
    entityNames := .empty }
  let w := live.foldl announce w
  { w with registry := builtins.2, childOf := builtins.1 }

end EntityWorld.World
