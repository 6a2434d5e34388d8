import EntityWorld.Failure
import EntityWorld.Host.Bridge
set_option autoImplicit false

/-!
Sessions: a host at work with some bridges, the queries that it compiled for each of them and the
snapshots that it kept. The host takes a turn at one bridge at a time; a turn may fail, and what
was done until then stays. After every turn the host gets to hear what happened meanwhile.
-/
namespace EntityWorld

structure Site (Note : Type) where
  bridge : Bridge Note
  queries : Array Query

/-- Snapshots are kept for all bridges together, so that one can apply what another wrote. -/
structure Session (Note : Type) where
  sites : Array (Site Note)
  snapshots : List (String × Bytes)

structure News (Note : Type) where
  calls : List HookEvent
  despawned : List Entity
  notices : List (ObjectId × Entity)
  modules : List Note
  systems : List (String × Note)

structure Turn (Note : Type) extends Site Note where
  snapshots : List (String × Bytes)
  ending : List HookEvent
  modules : List Note
  systems : List (String × Note)

variable {Note : Type}

abbrev Step (Note : Type) := ExceptT Failure (StateM (Turn Note))

namespace Step

variable {α ε : Type}

def orFail [Failing ε] : Except ε α → Step Note α
  | .ok a => return a
  | .error e => throw (failure e)

/-! ### At the bridge -/

def bridge : Step Note (Bridge Note) := do return (← get).bridge

def world : Step Note World := do return (← get).bridge.world

def onBridge (f : Bridge Note → α × Bridge Note) : Step Note α :=
  modifyGet fun t =>
    let (a, b) := f t.bridge
    (a, { t with bridge := b })

def onWorld (f : World → α × World) : Step Note α := onBridge fun b => b.onWorld f

def tryBridge [Failing ε] (f : Bridge Note → Except ε α × Bridge Note) : Step Note α := do
  orFail (← onBridge f)

def tryWorld [Failing ε] (f : World → Except ε α × World) : Step Note α := do
  orFail (← onWorld f)

def onScheduler (f : Scheduler Note → Except ScheduleError α × Scheduler Note) : Step Note α :=
  tryBridge fun b =>
    let (r, s) := f b.scheduler
    (r, { b with scheduler := s })

def onReplicator (f : Replicator → World → α × Replicator × World) : Step Note α :=
  onBridge fun b => b.onReplicator f

def tryReplicator [Failing ε] (f : Replicator → World → Except ε α × Replicator × World) :
    Step Note α := do
  orFail (← onReplicator f)

def onNetworkIds (f : NetworkIds → α × NetworkIds) : Step Note α :=
  onReplicator fun p w =>
    let (a, ids) := f p.ids
    (a, { p with ids := ids }, w)

/-! ### Values of the host -/

def note (events : List HookEvent) : Step Note Unit := onWorld fun w => ((), w.note events)

def endLater (events : List HookEvent) : Step Note Unit :=
  modify fun t => { t with ending := t.ending ++ events }

def takeCopy (v? : Option ComponentValue) : Step Note (Option ComponentValue) := do
  if let some v := v? then note v.dropEvents
  return v?

/-! ### Queries and snapshots -/

def addQuery (q : Query) : Step Note Nat := do
  let n := (← get).queries.size
  modify fun t => { t with queries := t.queries.push q }
  return n

def query (n : Nat) : Step Note Query := do
  match (← get).queries[n]? with
  | some q => return q
  | none => throw ⟨"SessionError.UnknownQuery", s!"query {n} is not compiled"⟩

def onQuery (n : Nat) (f : Query → World → Query × α) : Step Note α := do
  let (q, a) := f (← query n) (← world)
  modify fun t => { t with queries := t.queries.setIfInBounds n q }
  return a

def keepSnapshot (name : String) (bytes : Bytes) : Step Note Unit :=
  modify fun t => { t with snapshots := (name, bytes) :: t.snapshots }

def snapshot (name : String) : Step Note Bytes := do
  match (← get).snapshots.lookup name with
  | some bytes => return bytes
  | none => throw ⟨"SessionError.UnknownSnapshot", s!"snapshot {name} is not kept"⟩

/-! ### Systems and modules -/

def logPhases (reports : List (PhaseReport Note)) : Step Note Unit :=
  modify fun t => { t with systems := t.systems ++ reports.flatMap PhaseReport.notes }

def tick (phase : Phase) (delta : UInt32) : Step Note (PhaseReport Note) := do
  let report ← tryBridge fun b => b.tick phase delta
  logPhases [report]
  return report

def progress (delta : UInt32) : Step Note (FrameReport Note) := do
  let report ← tryBridge fun b => b.progress delta
  logPhases report.phases
  return report

def hearModules (notes : List Note) : Step Note Unit :=
  modify fun t => { t with modules := t.modules ++ notes }

/-- Load or unload a module. What it told is heard also if that fails. -/
def onModules (f : Bridge Note → Except BridgeError Unit × List Note × Bridge Note) :
    Step Note Unit := do
  let (r, notes) ← onBridge fun b =>
    let (r, notes, b) := f b
    ((r, notes), b)
  hearModules notes
  orFail r

def shutdown : Step Note Unit := do
  hearModules (← onBridge Bridge.shutdown)

end Step

namespace Session

def start (configs : List BridgeConfig) : Session Note where
  sites := (configs.map fun c =>
    let b : Bridge Note := Bridge.new c
    ⟨{ b with world := b.world.listen .host }, #[]⟩).toArray
  snapshots := []

def bridge? (s : Session Note) (i : Nat) : Option (Bridge Note) :=
  s.sites[i]?.map Site.bridge

def news (t : Turn Note) : News Note × Bridge Note :=
  let b := t.bridge
  let (calls, w) := (b.world.note t.ending).takeEvents
  let (despawned, w) := w.takeHeard .host
  let (notices, m) := b.identities.takeNotices
  (⟨calls, despawned, notices, t.modules, t.systems⟩, { b with world := w, identities := m })

def turn {α : Type} (s : Session Note) (i : Nat) (step : Step Note α) :
    Option (Except Failure α × News Note × Session Note) :=
  match s.sites[i]? with
  | none => none
  | some site =>
    let (result, t) := step.run.run ⟨site, s.snapshots, [], [], []⟩
    let (news, b) := news t
    some (result, news, ⟨s.sites.setIfInBounds i ⟨b, t.queries⟩, t.snapshots⟩)

end Session
end EntityWorld
