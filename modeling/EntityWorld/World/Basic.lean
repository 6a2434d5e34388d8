import EntityWorld.Allocator
import EntityWorld.Archetype.Storage
set_option autoImplicit false

/-!
The world: the registered types, the live entities with the place of their rows, the tables and
the names. A world also keeps what its host gets to hear: the calls of lifecycle hooks, and for
each listener the entities that were despawned. Both are newest first.
-/
namespace EntityWorld

def childOfPath : String := "reflecs.ChildOf"

def childOfDescription : TypeDescription :=
  (TypeDescription.tag childOfPath).relationship .delete

structure Location where
  archetype : ArchetypeId
  row : Nat
  deriving DecidableEq, Repr

/-- Who listens to despawns: the map between host objects and entities, or the host itself. -/
inductive Subscriber where
  | identityMap
  | host
  deriving DecidableEq, Repr

structure Listener where
  subscriber : Subscriber
  heard : List Entity
  deriving DecidableEq, Repr

structure World where
  registry : Registry
  entities : Allocator
  locations : Array (Option Location)
  storage : Storage
  names : FinMap String Entity
  entityNames : FinMap UInt32 String
  listeners : List Listener
  childOf : TypeHandle
  events : List HookEvent

namespace World

def builtins : TypeHandle × Registry :=
  match Registry.empty.register childOfDescription with
  | .ok r => r
  | .error _ => (⟨0⟩, .empty)

def new : World where
  registry := builtins.2
  entities := .empty
  locations := #[]
  storage := .empty
  names := .empty
  entityNames := .empty
  listeners := []
  childOf := builtins.1
  events := []

/-- Take down what the hooks did, given in order. -/
def note (w : World) (events : List HookEvent) : World :=
  { w with events := events.reverse ++ w.events }

def takeEvents (w : World) : List HookEvent × World := (w.events.reverse, { w with events := [] })

/-! ### Types -/

def registerType (w : World) (d : TypeDescription) : Except SchemaError TypeHandle × World :=
  match w.registry.register d with
  | .ok (h, r) => (.ok h, { w with registry := r })
  | .error e => (.error e, w)

def descriptor? (w : World) (h : TypeHandle) : Option TypeDescriptor := w.registry.descriptor? h

def descriptor (w : World) (h : TypeHandle) : Except EcsError TypeDescriptor :=
  match w.descriptor? h with
  | some d => .ok d
  | none => .error (.unknownType h)

/-! ### Entities -/

def isAlive (w : World) (e : Entity) : Bool := w.entities.isAlive e

def entityCount (w : World) : Nat := w.entities.aliveCount

def resolve (w : World) (index : UInt32) : Option Entity := w.entities.resolve index

/-- Where the row of a live entity is. -/
def location? (w : World) (e : Entity) : Option Location :=
  if w.isAlive e then (w.locations[e.index.toNat]?).join else none

def archetypeOf? (w : World) (e : Entity) : Option Archetype :=
  match w.location? e with
  | some loc => w.storage.get? loc.archetype
  | none => none

def setLocation (w : World) (index : UInt32) (loc : Option Location) : World :=
  let slot := index.toNat
  let filled := w.locations ++ Array.replicate (slot + 1 - w.locations.size) none
  { w with locations := filled.setIfInBounds slot loc }

def relocate (w : World) (moved : Option Entity) (row : Nat) : World :=
  match moved with
  | none => w
  | some e =>
    match (w.locations[e.index.toNat]?).join with
    | some loc =>
      { w with locations := w.locations.setIfInBounds e.index.toNat (some { loc with row := row }) }
    | none => w

def spawn (w : World) : Entity × World :=
  let (e, entities) := w.entities.allocate
  let w := { w with entities := entities }
  match w.storage.get? .empty with
  | some a =>
    let w := { w with storage := w.storage.set (a.pushEntity e) }
    (e, w.setLocation e.index (some ⟨.empty, a.size⟩))
  | none => (e, w.setLocation e.index (some ⟨.empty, 0⟩))

/-! ### Listeners -/

def listen (w : World) (s : Subscriber) : World :=
  { w with listeners := w.listeners ++ [⟨s, []⟩] }

def announce (w : World) (e : Entity) : World :=
  { w with listeners := w.listeners.map fun l => { l with heard := e :: l.heard } }

def takeHeard (w : World) (s : Subscriber) : List Entity × World :=
  ((w.listeners.filter fun l => l.subscriber = s).flatMap fun l => l.heard.reverse,
    { w with listeners := w.listeners.map fun l =>
        if l.subscriber = s then { l with heard := [] } else l })

def inspect (w : World) : String :=
  s!"World \x7b entities: {w.entityCount}, types: {w.registry.size}, " ++
    s!"archetypes: {w.storage.size} \x7d"

end World
end EntityWorld
