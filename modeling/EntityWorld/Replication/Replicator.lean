import EntityWorld.Replication.Authority
import EntityWorld.Replication.NetworkIds
import EntityWorld.Replication.Wire
import EntityWorld.World.Value
set_option autoImplicit false

/-!
Snapshots of the components of an entity, and applying snapshots that came from another peer.
For every entity the replicator remembers the payloads it sent last and the components that were
written locally.
-/
namespace EntityWorld

inductive SkipReason where
  | unknownType
  | notReplicable (path : String)
  | undecodable (text : String)
  | rejected (text : String)
  deriving DecidableEq, Repr

namespace SkipReason

def name : SkipReason → String
  | unknownType => "UnknownType"
  | notReplicable _ => "NotReplicable"
  | undecodable _ => "Undecodable"
  | rejected _ => "Rejected"

def detail? : SkipReason → Option String
  | unknownType => none
  | notReplicable text | undecodable text | rejected text => some text

end SkipReason

structure SkippedRecord where
  typeId : UInt32
  bytes : Nat
  reason : SkipReason
  deriving DecidableEq, Repr

/-- What became of the records of a snapshot, each list in the order of the snapshot. -/
structure ApplyReport where
  applied : List TypeHandle := []
  skipped : List SkippedRecord := []
  keptLocal : List TypeHandle := []
  deriving DecidableEq, Repr

namespace ApplyReport

def skippedBytes (r : ApplyReport) : Nat := r.skipped.foldl (fun n s => n + s.bytes) 0

def isClean (r : ApplyReport) : Bool := r.skipped.isEmpty

end ApplyReport

/-- The payloads sent last for an entity, by stable id. -/
abbrev Baseline := FinMap UInt32 Bytes

structure Replicator where
  role : NetRole
  policy : AuthorityPolicy
  localWrites : FinMap (Entity × TypeHandle) Unit
  baselines : FinMap Entity Baseline
  ids : NetworkIds

namespace World

/-- The payload of a component: nothing for a tag, else a copy of the value in the type's codec.
The copy is destroyed afterwards. -/
def payload (w : World) (e : Entity) (d : TypeDescriptor) : Except ReplicationError Bytes × World :=
  if d.isTag then (.ok [], w)
  else
    match w.readValue e (Id.component d.handle) with
    | (none, w) => (.ok [], w)
    | (some v, w) =>
      match d.codec with
      | none => (.ok [], w.note v.dropEvents)
      | some codec =>
        let result :=
          match codec.encode v.value with
          | .ok bs => .ok bs
          | .error cause => .error (.serialize d.path cause)
        (result, w.note v.dropEvents)

/-- The records of the listed components that are replicable and there, each once; `done` holds
those made so far. -/
def collectFrom (e : Entity) : World → List Record → List TypeHandle →
    Except ReplicationError (List Record) × World
  | w, done, [] => (.ok done, w)
  | w, done, h :: rest =>
    match w.descriptor h with
    | .error err => (.error (.ecs err), w)
    | .ok d =>
      if !d.flags.replicable || !w.has e (Id.component h) then collectFrom e w done rest
      else if done.any fun r => r.typeId == d.stableId then collectFrom e w done rest
      else
        match w.payload e d with
        | (.error err, w) => (.error err, w)
        | (.ok bs, w) => collectFrom e w (done ++ [⟨d.stableId, bs⟩]) rest

def collect (w : World) (e : Entity) (components : List TypeHandle) :
    Except ReplicationError (List Record) × World :=
  if w.isAlive e then collectFrom e w [] components else (.error (.staleEntity e), w)

def replicableTypes (w : World) : List TypeHandle :=
  (w.registry.entries.filter fun d => d.flags.replicable).map TypeDescriptor.handle

/-- Store a payload that arrived: a tag is added, another value is decoded and written. -/
def applyPayload (w : World) (e : Entity) (d : TypeDescriptor) (payload : Bytes) :
    Except SkipReason Unit × World :=
  if d.isTag then
    match w.add e (Id.component d.handle) with
    | (.ok _, w) => (.ok (), w)
    | (.error err, w) => (.error (.rejected err.message), w)
  else
    match d.codec with
    | none => (.error (.notReplicable d.path), w)
    | some codec =>
      match ComponentValue.fill w.registry d.handle fun _ => codec.decode payload with
      | .error err => (.error (.rejected err.message), w)
      | .ok (.error cause) => (.error (.undecodable cause.message), w)
      | .ok (.ok v) =>
        match w.writeValue e v with
        | (.ok (), w) => (.ok (), w)
        | (.error err, w) => (.error (.rejected err.message), w)

end World

namespace Replicator

def new (role : NetRole) (policy : AuthorityPolicy) : Replicator :=
  ⟨role, policy, .empty, .empty, .empty⟩

def snapshot (w : World) (e : Entity) (components : List TypeHandle) :
    Except ReplicationError Bytes × World :=
  match w.collect e components with
  | (.error err, w) => (.error err, w)
  | (.ok records, w) => (Wire.encode records, w)

def snapshotAll (w : World) (e : Entity) : Except ReplicationError Bytes × World :=
  snapshot w e w.replicableTypes

/-- The records that differ from a baseline, and the baseline with them. -/
def changes : Baseline → List Record → List Record × Baseline
  | b, [] => ([], b)
  | b, r :: rest =>
    if b.get? r.typeId = some r.payload then changes b rest
    else
      let (changed, b) := changes (b.insert r.typeId r.payload) rest
      (r :: changed, b)

/-- The snapshot of the components whose payloads differ from those sent last. -/
def snapshotDelta (p : Replicator) (w : World) (e : Entity) :
    Except ReplicationError Bytes × Replicator × World :=
  match w.collect e w.replicableTypes with
  | (.error err, w) => (.error err, p, w)
  | (.ok records, w) =>
    let (changed, b) := changes ((p.baselines.get? e).getD .empty) records
    (Wire.encode changed, { p with baselines := p.baselines.insert e b }, w)

def hasLocalWrite (p : Replicator) (e : Entity) (h : TypeHandle) : Bool :=
  p.localWrites.contains (e, h)

def markLocalWrite (p : Replicator) (e : Entity) (h : TypeHandle) : Replicator :=
  { p with localWrites := p.localWrites.insert (e, h) () }

def writeLocal (p : Replicator) (w : World) (e : Entity) (h : TypeHandle) (t : HostType)
    (v : Value) : Except ReplicationError Unit × Replicator × World :=
  match w.write e h t v with
  | (.ok (), w) => (.ok (), p.markLocalWrite e h, w)
  | (.error err, w) => (.error (.ecs err), p, w)

/-- Apply one record. A local write is forgotten when a record meets it; the policy says which
of the two stays. -/
def applyRecord (p : Replicator) (w : World) (e : Entity) (report : ApplyReport) (r : Record) :
    ApplyReport × Replicator × World :=
  let skip (reason : SkipReason) : ApplyReport :=
    { report with skipped := report.skipped ++ [⟨r.typeId, r.wireSize, reason⟩] }
  match w.registry.ofStableId? r.typeId with
  | none => (skip .unknownType, p, w)
  | some h =>
    match w.descriptor? h with
    | none => (skip .unknownType, p, w)
    | some d =>
      if !d.flags.replicable then (skip (.notReplicable d.path), p, w)
      else
        let marked := p.hasLocalWrite e h
        let p := if marked then { p with localWrites := p.localWrites.erase (e, h) } else p
        if marked && p.policy ⟨e, h, d.path, p.role⟩ = .keepLocal then
          ({ report with keptLocal := report.keptLocal ++ [h] }, p, w)
        else
          match w.applyPayload e d r.payload with
          | (.ok (), w) => ({ report with applied := report.applied ++ [h] }, p, w)
          | (.error reason, w) => (skip reason, p, w)

def applyRecords (e : Entity) : Replicator → World → ApplyReport → List Record →
    ApplyReport × Replicator × World
  | p, w, report, [] => (report, p, w)
  | p, w, report, r :: rest =>
    let (report, p, w) := p.applyRecord w e report r
    applyRecords e p w report rest

/-- Apply a snapshot to an entity. Bad framing and a dead entity refuse it as a whole; any other
fault only skips a record. -/
def apply (p : Replicator) (w : World) (e : Entity) (bytes : Bytes) :
    Except ReplicationError ApplyReport × Replicator × World :=
  match Wire.decode bytes with
  | .error err => (.error err, p, w)
  | .ok records =>
    if w.isAlive e then
      let (report, p, w) := applyRecords e p w {} records
      (.ok report, p, w)
    else (.error (.staleEntity e), p, w)

def applyNetworked (p : Replicator) (w : World) (n : NetworkId) (bytes : Bytes) :
    Except ReplicationError ApplyReport × Replicator × World :=
  match p.ids.entity? n with
  | some e => p.apply w e bytes
  | none => (.error (.unboundNetworkId n), p, w)

def forget (p : Replicator) (e : Entity) : Replicator :=
  { p with
    baselines := p.baselines.erase e
    localWrites := p.localWrites.filter fun key _ => key.1 ≠ e
    ids := (p.ids.unbindEntity e).2 }

def retainAlive (p : Replicator) (w : World) : Nat × Replicator :=
  let baselines := p.baselines.filter fun e _ => w.isAlive e
  (p.baselines.size - baselines.size,
    { p with
      baselines := baselines
      localWrites := p.localWrites.filter fun key _ => w.isAlive key.1
      ids := (p.ids.retainAlive w).2 })

def inspect (p : Replicator) : String :=
  s!"ReplicationAdapter \x7b role: {p.role.inspect}, local_writes: {p.localWrites.size}, " ++
    s!"baselines: {p.baselines.size}, network_ids: {p.ids.size} \x7d"

end Replicator
end EntityWorld
