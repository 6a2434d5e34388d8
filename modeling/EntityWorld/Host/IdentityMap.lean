import EntityWorld.Host.Record
set_option autoImplicit false

/-!
The map between host objects and their entities. An object is bound when it is created, spawned
or attached; its binding ends when its entity dies, whichever side began that. The host is told
of the deaths that it did not ask for.
-/
namespace EntityWorld

structure Binding where
  entity : Entity
  /-- The host has asked for the end of the object. -/
  destroying : Bool
  deriving DecidableEq, Repr

inductive BindingState where
  | unbound
  | bound (e : Entity)
  | destroying (e : Entity)
  deriving DecidableEq, Repr

structure LifecycleStats where
  bound : Nat := 0
  unbound : Nat := 0
  /-- Bindings that ended without the host asking. -/
  externalDeletes : Nat := 0
  deriving DecidableEq, Repr

def LifecycleStats.inspect (s : LifecycleStats) : String :=
  s!"LifecycleStats \x7b bound: {s.bound}, unbound: {s.unbound}, " ++
    s!"external_deletes: {s.externalDeletes} \x7d"

structure IdentityMap where
  byObject : FinMap ObjectId Binding
  byEntity : FinMap Entity ObjectId
  stats : LifecycleStats
  /-- What the host is to be told, newest first. -/
  notices : List (ObjectId × Entity)

namespace IdentityMap

def empty : IdentityMap := ⟨.empty, .empty, {}, []⟩

def bind (m : IdentityMap) (o : ObjectId) (e : Entity) : IdentityMap :=
  let byEntity :=
    match m.byObject.get? o with
    | some stale => m.byEntity.erase stale.entity
    | none => m.byEntity
  { m with
    byObject := m.byObject.insert o ⟨e, false⟩
    byEntity := byEntity.insert e o
    stats := { m.stats with bound := m.stats.bound + 1 } }

/-- End the binding of an entity; tells the object if the host had not asked for it. -/
def unbind (m : IdentityMap) (e : Entity) : Option ObjectId × IdentityMap :=
  match m.byEntity.get? e with
  | none => (none, m)
  | some o =>
    let asked :=
      match m.byObject.get? o with
      | some b => b.destroying
      | none => false
    let stats := { m.stats with
      unbound := m.stats.unbound + 1
      externalDeletes := m.stats.externalDeletes + if asked then 0 else 1 }
    (if asked then none else some o,
      { m with byObject := m.byObject.erase o, byEntity := m.byEntity.erase e, stats := stats })

def onDespawn (m : IdentityMap) (e : Entity) : IdentityMap :=
  match m.unbind e with
  | (some o, m) => { m with notices := (o, e) :: m.notices }
  | (none, m) => m

def settle (m : IdentityMap) (w : World) : IdentityMap × World :=
  let (heard, w) := w.takeHeard .identityMap
  (heard.foldl onDespawn m, w)

def takeNotices (m : IdentityMap) : List (ObjectId × Entity) × IdentityMap :=
  (m.notices.reverse, { m with notices := [] })

/-- The live entity of an object that is not being destroyed. -/
def entityOf (m : IdentityMap) (w : World) (o : ObjectId) : Option Entity :=
  match m.byObject.get? o with
  | some b => if !b.destroying && w.isAlive b.entity then some b.entity else none
  | none => none

def objectOf (m : IdentityMap) (e : Entity) : Option ObjectId := m.byEntity.get? e

def state (m : IdentityMap) (o : ObjectId) : BindingState :=
  match m.byObject.get? o with
  | none => .unbound
  | some b => if b.destroying then .destroying b.entity else .bound b.entity

def boundCount (m : IdentityMap) : Nat := m.byObject.size

def spawn (m : IdentityMap) (w : World) (o : ObjectId) :
    Except BridgeError Entity × IdentityMap × World :=
  if (m.entityOf w o).isSome then (.error (.alreadyBound o), m, w)
  else
    let (e, w) := w.spawn
    (.ok e, m.bind o e, w)

def destroyed (m : IdentityMap) (w : World) (o : ObjectId) : Bool × IdentityMap × World :=
  match m.byObject.get? o with
  | none => (false, m, w)
  | some b =>
    if b.destroying then (false, m, w)
    else
      let m := { m with byObject := m.byObject.insert o { b with destroying := true } }
      let (died, w) := w.despawn b.entity
      let (m, w) := m.settle w
      (true, if died then m else (m.unbind b.entity).2, w)

/-- Bind a new object whose record attaches a registered type, and apply the record. If that
fails, the object is destroyed again. -/
def created (m : IdentityMap) (w : World) (o : ObjectId) (r : EntityRecord) :
    Except BridgeError (Option Entity) × IdentityMap × World :=
  if !r.participates w.registry then (.ok none, m, w)
  else
    let targets := r.pairTargets.filterMap fun t => (m.entityOf w t).map fun e => (t, e)
    match m.spawn w o with
    | (.error err, m, w) => (.error err, m, w)
    | (.ok e, m, w) =>
      let resolve (t : ObjectId) : Option Entity :=
        (targets.find? fun p => p.1 == t).map Prod.snd
      match r.apply resolve e w with
      | (.ok (), w) =>
        let (m, w) := m.settle w
        (.ok (some e), m, w)
      | (.error err, w) =>
        let (m, w) := m.settle w
        let (_, m, w) := m.destroyed w o
        (.error err, m, w)

/-- Put an object under another one, binding it first if need be. -/
def attach (m : IdentityMap) (w : World) (child parent : ObjectId) :
    Except BridgeError Entity × IdentityMap × World :=
  match m.entityOf w parent with
  | none => (.error (.notBound parent), m, w)
  | some p =>
    let (result, m, w) : Except BridgeError Entity × IdentityMap × World :=
      match m.entityOf w child with
      | some e => (.ok e, m, w)
      | none => m.spawn w child
    match result with
    | .error err => (.error err, m, w)
    | .ok c =>
      match w.setParent c p with
      | (.ok (), w) => (.ok c, m, w)
      | (.error err, w) => (.error (.ecs err), m, w)

/-- Mark every binding as being destroyed, so that none is reported when the world ends. -/
def beginShutdown (m : IdentityMap) : IdentityMap :=
  { m with byObject := m.byObject.mapValues fun b => { b with destroying := true } }

def inspect (m : IdentityMap) : String :=
  s!"LifecycleBridge \x7b bound: {m.boundCount}, stats: {m.stats.inspect} \x7d"

end IdentityMap
end EntityWorld
