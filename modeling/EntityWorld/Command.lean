import EntityWorld.World.Despawn
import EntityWorld.World.Relation
import EntityWorld.World.Value
set_option autoImplicit false

/-!
Deferred changes. Commands are recorded in a buffer and applied in order later; an entity that an
earlier command of the buffer will spawn is named by a token.
-/
namespace EntityWorld

/-- Stands for the entity of the spawn with number `index` in the buffer `buffer`. -/
structure PendingEntity where
  buffer : UInt32
  index : UInt32
  deriving DecidableEq, Repr

inductive Target where
  | live (e : Entity)
  | pending (p : PendingEntity)
  deriving DecidableEq, Repr

inductive Command where
  | spawn
  | despawn (target : Target)
  | insert (target : Target) (value : ComponentValue)
  | add (target : Target) (id : Id)
  | remove (target : Target) (id : Id)
  | addPair (target : Target) (relation : TypeHandle) (object : Target)
  | removePair (target : Target) (relation : TypeHandle) (object : Target)

structure CommandBuffer where
  id : UInt32
  commands : List Command
  spawns : UInt32

namespace CommandBuffer

def empty (id : UInt32) : CommandBuffer := ⟨id, [], 0⟩

def size (b : CommandBuffer) : Nat := b.commands.length

def isEmpty (b : CommandBuffer) : Bool := b.commands.isEmpty

def spawn (b : CommandBuffer) : PendingEntity × CommandBuffer :=
  (⟨b.id, b.spawns⟩, { b with commands := b.commands ++ [.spawn], spawns := b.spawns + 1 })

def record (b : CommandBuffer) (c : Command) : CommandBuffer :=
  match c with
  | .spawn => b.spawn.2
  | c => { b with commands := b.commands ++ [c] }

def dropEvents (b : CommandBuffer) : List HookEvent :=
  b.commands.flatMap fun c =>
    match c with
    | .insert _ v => v.dropEvents
    | _ => []

end CommandBuffer

structure CommandReport where
  spawned : List Entity
  applied : Nat
  errors : List EcsError
  deriving DecidableEq, Repr

namespace CommandReport

def empty : CommandReport := ⟨[], 0, []⟩

def merge (a b : CommandReport) : CommandReport :=
  ⟨a.spawned ++ b.spawned, a.applied + b.applied, a.errors ++ b.errors⟩

def isClean (r : CommandReport) : Bool := r.errors.isEmpty

end CommandReport

def Target.resolve (t : Target) (buffer : UInt32) (spawned : List Entity) :
    Except EcsError Entity :=
  match t with
  | .live e => .ok e
  | .pending p =>
    if p.buffer = buffer then
      match spawned[p.index.toNat]? with
      | some e => .ok e
      | none => .error (.foreignPending p.index)
    else .error (.foreignPending p.index)

namespace World

/-- Apply one command; tells the entity that it spawned. A despawn of a dead entity is no
fault. -/
def applyCommand (w : World) (buffer : UInt32) (spawned : List Entity) (c : Command) :
    Except EcsError (Option Entity) × World :=
  let done {α : Type} (r : Except EcsError α × World) : Except EcsError (Option Entity) × World :=
    (r.1.map fun _ => none, r.2)
  match c with
  | .spawn =>
    let (e, w) := w.spawn
    (.ok (some e), w)
  | .despawn target =>
    match target.resolve buffer spawned with
    | .error err => (.error err, w)
    | .ok e => (.ok none, (w.despawn e).2)
  | .insert target value =>
    match target.resolve buffer spawned with
    | .error err => (.error err, w.note value.dropEvents)
    | .ok e => done (w.writeValue e value)
  | .add target id =>
    match target.resolve buffer spawned with
    | .error err => (.error err, w)
    | .ok e => done (w.add e id)
  | .remove target id =>
    match target.resolve buffer spawned with
    | .error err => (.error err, w)
    | .ok e => done (w.remove e id)
  | .addPair target relation object =>
    match target.resolve buffer spawned, object.resolve buffer spawned with
    | .error err, _ => (.error err, w)
    | .ok _, .error err => (.error err, w)
    | .ok e, .ok o => done (w.addPair e relation o)
  | .removePair target relation object =>
    match target.resolve buffer spawned, object.resolve buffer spawned with
    | .error err, _ => (.error err, w)
    | .ok _, .error err => (.error err, w)
    | .ok e, .ok o => done (w.removePair e relation o)

/-- Apply commands in order, carrying on after a failure. -/
def applyAll (buffer : UInt32) : World → CommandReport → List Command → CommandReport × World
  | w, report, [] => (report, w)
  | w, report, c :: rest =>
    match w.applyCommand buffer report.spawned c with
    | (.ok spawned, w) =>
      applyAll buffer w { report with
        spawned := report.spawned ++ spawned.toList
        applied := report.applied + 1 } rest
    | (.error err, w) => applyAll buffer w { report with errors := report.errors ++ [err] } rest

def applyCommands (w : World) (b : CommandBuffer) : CommandReport × World :=
  applyAll b.id w .empty b.commands

end World
end EntityWorld
