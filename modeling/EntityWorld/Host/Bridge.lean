import EntityWorld.Host.Config
import EntityWorld.Host.IdentityMap
import EntityWorld.Host.Module
import EntityWorld.Replication.Replicator
set_option autoImplicit false

/-!
The bridge: one world with its scheduler, the map to host objects, its replication state and the
loaded modules. Whatever uses the world lets the map take note of the deaths.
-/
namespace EntityWorld

structure Bridge (Note : Type) where
  config : BridgeConfig
  world : World
  scheduler : Scheduler Note
  identities : IdentityMap
  replicator : Replicator
  modules : ModuleRegistry Note

namespace Bridge

variable {Note : Type}

def new (config : BridgeConfig) : Bridge Note where
  config := config
  world := World.new.listen .identityMap
  scheduler := .new config.scheduler .standard
  identities := .empty
  replicator := .new config.role config.authority.policy
  modules := .empty

def settle (b : Bridge Note) : Bridge Note :=
  let (identities, world) := b.identities.settle b.world
  { b with identities := identities, world := world }

def onWorld {α : Type} (b : Bridge Note) (f : World → α × World) : α × Bridge Note :=
  let (a, w) := f b.world
  (a, { b with world := w }.settle)

def onIdentities {α : Type} (b : Bridge Note)
    (f : IdentityMap → World → α × IdentityMap × World) : α × Bridge Note :=
  let (a, m, w) := f b.identities b.world
  (a, { b with identities := m, world := w }.settle)

def onReplicator {α : Type} (b : Bridge Note)
    (f : Replicator → World → α × Replicator × World) : α × Bridge Note :=
  let (a, p, w) := f b.replicator b.world
  (a, { b with replicator := p, world := w }.settle)

def forgetDead (b : Bridge Note) : Bridge Note :=
  { b with replicator := (b.replicator.retainAlive b.world).2 }

/-- Drop what the replicator remembers of an entity that was destroyed, and of all that died with
it. -/
def forget (b : Bridge Note) (e : Entity) : Bridge Note :=
  { b with replicator := b.replicator.forget e }.forgetDead

def liftEcs {α : Type} (r : Except EcsError α) : Except BridgeError α :=
  match r with
  | .ok a => .ok a
  | .error e => .error (.ecs e)

def liftSchedule {α : Type} (r : Except ScheduleError α) : Except BridgeError α :=
  match r with
  | .ok a => .ok a
  | .error e => .error (.schedule e)

def liftReplication {α : Type} (r : Except ReplicationError α) : Except BridgeError α :=
  match r with
  | .ok a => .ok a
  | .error e => .error (.replication e)

/-! ### Types and entities -/

def registerType (b : Bridge Note) (d : TypeDescription) :
    Except BridgeError TypeHandle × Bridge Note :=
  b.onWorld fun w =>
    let (r, w) := w.registerType d
    (match r with
      | .ok h => .ok h
      | .error e => .error (.ecs (.schema e)), w)

def spawn (b : Bridge Note) : Entity × Bridge Note := b.onWorld World.spawn

def destroy (b : Bridge Note) (e : Entity) : Bool × Bridge Note :=
  let (died, b) := b.onWorld fun w => w.despawn e
  (died, if died then b.forget e else b)

/-- Add a type with a value, which is used up, or with its default. -/
def add (b : Bridge Note) (e : Entity) (h : TypeHandle) (value : Option ComponentValue) :
    Except BridgeError Unit × Bridge Note :=
  b.onWorld fun w =>
    match value with
    | none =>
      let (r, w) := w.add e (Id.component h)
      ((liftEcs r).map fun _ => (), w)
    | some v =>
      if v.handle = h then
        let (r, w) := w.writeValue e v
        (liftEcs r, w)
      else
        let cause : EcsError :=
          match w.descriptor? h with
          | none => .unknownType h
          | some d => .typeMismatch d.path d.size d.align v.type.size v.type.align
        (.error (.ecs cause), w.note v.dropEvents)

def set (b : Bridge Note) (e : Entity) (h : TypeHandle) (t : HostType) (v : Value) :
    Except BridgeError Unit × Bridge Note :=
  b.onWorld fun w =>
    let (r, w) := w.write e h t v
    (liftEcs r, w)

def remove (b : Bridge Note) (e : Entity) (h : TypeHandle) :
    Except BridgeError Bool × Bridge Note :=
  b.onWorld fun w =>
    let (r, w) := w.remove e (Id.component h)
    (liftEcs r, w)

def get (b : Bridge Note) (e : Entity) (h : TypeHandle) (t : HostType) :
    Except BridgeError (Option Value) × Bridge Note :=
  b.onWorld fun w =>
    let (r, w) := w.read e h t
    (liftEcs r, w)

def getValue (b : Bridge Note) (e : Entity) (h : TypeHandle) :
    Option ComponentValue × Bridge Note :=
  b.onWorld fun w => w.readValue e (Id.component h)

def has (b : Bridge Note) (e : Entity) (h : TypeHandle) : Bool := b.world.has e (Id.component h)

/-! ### Host objects -/

def createObject (b : Bridge Note) (o : ObjectId) (r : EntityRecord) :
    Except BridgeError (Option Entity) × Bridge Note :=
  b.onIdentities fun m w => m.created w o r

def spawnObject (b : Bridge Note) (o : ObjectId) : Except BridgeError Entity × Bridge Note :=
  b.onIdentities fun m w => m.spawn w o

def attach (b : Bridge Note) (child parent : ObjectId) : Except BridgeError Entity × Bridge Note :=
  b.onIdentities fun m w => m.attach w child parent

def destroyObject (b : Bridge Note) (o : ObjectId) : Bool × Bridge Note :=
  let entity :=
    match b.identities.state o with
    | .bound e => some e
    | .destroying e => some e
    | .unbound => none
  let (ended, b) := b.onIdentities fun m w => m.destroyed w o
  (ended, match entity, ended with
    | some e, true => b.forget e
    | _, _ => b)

def entityOf (b : Bridge Note) (o : ObjectId) : Option Entity := b.identities.entityOf b.world o

/-! ### Queries and systems -/

def buildQuery (b : Bridge Note) (terms : TermList) : Except BridgeError Query :=
  match Query.compile b.world terms with
  | .ok q => .ok q
  | .error e => .error (.ecs (.query e))

def registerSystem (b : Bridge Note) (sys : SystemBuilder Note) :
    Except BridgeError SystemHandle × Bridge Note :=
  let (r, s) := b.scheduler.register b.world sys
  (liftSchedule r, { b with scheduler := s })

def unregisterSystem (b : Bridge Note) (h : SystemHandle) : Except BridgeError Unit × Bridge Note :=
  let (r, s) := b.scheduler.unregister h
  (liftSchedule r, { b with scheduler := s })

def tick (b : Bridge Note) (phase : Phase) (delta : UInt32) :
    Except BridgeError (PhaseReport Note) × Bridge Note :=
  let (r, s, w) := b.scheduler.runPhase b.world phase delta
  let b := { b with scheduler := s, world := w }.settle
  match r with
  | .ok report => (.ok report, if report.commands.applied > 0 then b.forgetDead else b)
  | .error e => (.error (.schedule e), b)

def progress (b : Bridge Note) (delta : UInt32) :
    Except BridgeError (FrameReport Note) × Bridge Note :=
  let (r, s, w) := b.scheduler.progress b.world delta
  let b := { b with scheduler := s, world := w }.settle
  match r with
  | .ok report => (.ok report, b.forgetDead)
  | .error e => (.error (.schedule e), b)

/-! ### Modules -/

def adopt (b : Bridge Note) (out : ModuleRegistry.Outcome Note) :
    Except BridgeError Unit × List Note × Bridge Note :=
  (out.result, out.notes,
    { b with modules := out.modules, world := out.world, scheduler := out.scheduler }.settle)

def loadModule (b : Bridge Note) (m : Module Note) :
    Except BridgeError Unit × List Note × Bridge Note :=
  b.adopt (b.modules.load b.world b.scheduler m)

def unloadModule (b : Bridge Note) (name : String) :
    Except BridgeError Unit × List Note × Bridge Note :=
  b.adopt (b.modules.unload b.world b.scheduler name)

/-! ### Replication -/

def snapshot (b : Bridge Note) (e : Entity) (components : List TypeHandle) :
    Except BridgeError Bytes × Bridge Note :=
  b.onWorld fun w =>
    let (r, w) := Replicator.snapshot w e components
    (liftReplication r, w)

def snapshotAll (b : Bridge Note) (e : Entity) : Except BridgeError Bytes × Bridge Note :=
  b.onWorld fun w =>
    let (r, w) := Replicator.snapshotAll w e
    (liftReplication r, w)

def snapshotDelta (b : Bridge Note) (e : Entity) : Except BridgeError Bytes × Bridge Note :=
  b.onReplicator fun p w =>
    let (r, p, w) := p.snapshotDelta w e
    (liftReplication r, p, w)

def applySnapshot (b : Bridge Note) (e : Entity) (bytes : Bytes) :
    Except BridgeError ApplyReport × Bridge Note :=
  b.onReplicator fun p w =>
    let (r, p, w) := p.apply w e bytes
    (liftReplication r, p, w)

/-! ### The whole -/

/-- Unload every module, end every entity without telling the host, and forget all types but the
built-in ones; also what the modules told. -/
def shutdown (b : Bridge Note) : List Note × Bridge Note :=
  let (modules, w, s, notes) := b.modules.unloadAll b.world b.scheduler
  let b := { b with modules := modules, world := w, scheduler := s }.settle
  let b := { b with identities := b.identities.beginShutdown, world := b.world.shutdown }.settle
  (notes, { b with replicator := .new b.config.role b.config.authority.policy })

/-- Put a new world in place of the old one, whose values are destroyed. Nothing listens to the
new world but the host, if it does. -/
def replaceWorld (b : Bridge Note) (w : World) : Bridge Note :=
  { b with world := w.note (b.world.events.reverse ++ b.world.storage.dropAll) }

def inspect (b : Bridge Note) : String :=
  s!"Bridge \x7b world: {Text.quote b.config.worldName}, entities: {b.world.entityCount}, " ++
    s!"scheduler: {b.scheduler.inspect}, lifecycle: {b.identities.inspect}, " ++
    s!"modules: {b.modules.inspect} \x7d"

end Bridge
end EntityWorld
