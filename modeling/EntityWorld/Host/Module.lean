import EntityWorld.Host.Error
import EntityWorld.Schedule.Run
set_option autoImplicit false

/-!
Modules: units of a host's functionality that are loaded into a world and its scheduler. A module
registers types and systems while it loads; its systems go when it is unloaded, its types stay.
-/
namespace EntityWorld

/-- What a module does while it loads. Next to registering types and systems it may use the world
and the scheduler as it likes. -/
inductive Loader (Note : Type) where
  | done (result : Except BridgeError Unit)
  | registerType (d : TypeDescription) (next : Except SchemaError TypeHandle → Loader Note)
  | registerSystem (b : SystemBuilder Note) (next : Except ScheduleError SystemHandle → Loader Note)
  | useWorld (f : World → World) (next : World → Loader Note)
  | useScheduler (f : Scheduler Note → Scheduler Note) (next : Scheduler Note → Loader Note)
  | tell (n : Note) (next : Loader Note)

structure Module (Note : Type) where
  name : String
  dependencies : List String
  load : Loader Note
  unload : World → World × List Note

structure LoadedModule (Note : Type) where
  name : String
  dependencies : List String
  systems : List SystemHandle
  unload : World → World × List Note

structure Loading (Note : Type) where
  world : World
  scheduler : Scheduler Note
  systems : List SystemHandle
  notes : List Note

variable {Note : Type}

namespace Loader

def run : Loader Note → Loading Note → Except BridgeError Unit × Loading Note
  | done result, l => (result, l)
  | registerType d next, l =>
    let (result, w) := l.world.registerType d
    (next result).run { l with world := w }
  | registerSystem b next, l =>
    match l.scheduler.register l.world b with
    | (.ok h, s) => (next (.ok h)).run { l with scheduler := s, systems := l.systems ++ [h] }
    | (.error e, s) => (next (.error e)).run { l with scheduler := s }
  | useWorld f next, l =>
    let w := f l.world
    (next w).run { l with world := w }
  | useScheduler f next, l =>
    let s := f l.scheduler
    (next s).run { l with scheduler := s }
  | tell n next, l => next.run { l with notes := l.notes ++ [n] }

end Loader

/-- Remove systems; those that are gone already are passed over. -/
def Scheduler.unregisterAll (s : Scheduler Note) (hs : List SystemHandle) : Scheduler Note :=
  hs.foldl (fun s h => (s.unregister h).2) s

structure ModuleRegistry (Note : Type) where
  loaded : List (LoadedModule Note)

namespace ModuleRegistry

def empty : ModuleRegistry Note := ⟨[]⟩

def find? (m : ModuleRegistry Note) (name : String) : Option (LoadedModule Note) :=
  m.loaded.find? fun l => l.name == name

def isLoaded (m : ModuleRegistry Note) (name : String) : Bool := (m.find? name).isSome

def names (m : ModuleRegistry Note) : List String := m.loaded.map LoadedModule.name

structure Outcome (Note : Type) where
  result : Except BridgeError Unit
  modules : ModuleRegistry Note
  world : World
  scheduler : Scheduler Note
  notes : List Note

/-- Load a module. If that fails, the systems it registered are removed again. -/
def load (m : ModuleRegistry Note) (w : World) (s : Scheduler Note) (mod : Module Note) :
    Outcome Note :=
  if m.isLoaded mod.name then ⟨.error (.duplicateModule mod.name), m, w, s, []⟩
  else
    match mod.dependencies.find? fun d => !m.isLoaded d with
    | some d => ⟨.error (.missingDependency mod.name d), m, w, s, []⟩
    | none =>
      match mod.load.run ⟨w, s, [], []⟩ with
      | (.ok (), l) =>
        ⟨.ok (), ⟨m.loaded ++ [⟨mod.name, mod.dependencies, l.systems, mod.unload⟩]⟩, l.world,
          l.scheduler, l.notes⟩
      | (.error e, l) => ⟨.error e, m, l.world, l.scheduler.unregisterAll l.systems, l.notes⟩

def dependents (m : ModuleRegistry Note) (name : String) : List String :=
  (m.loaded.filter fun l => l.dependencies.contains name).map LoadedModule.name

def unload (m : ModuleRegistry Note) (w : World) (s : Scheduler Note) (name : String) :
    Outcome Note :=
  match m.loaded.findIdx? fun l => l.name == name with
  | none => ⟨.error (.unknownModule name), m, w, s, []⟩
  | some i =>
    let users := m.dependents name
    if !users.isEmpty then ⟨.error (.moduleInUse name users), m, w, s, []⟩
    else
      match m.loaded[i]? with
      | none => ⟨.error (.unknownModule name), m, w, s, []⟩
      | some entry =>
        let (w, notes) := entry.unload w
        ⟨.ok (), ⟨m.loaded.eraseIdx i⟩, w, s.unregisterAll entry.systems, notes⟩

/-- Unload modules, the last one first; one that cannot be unloaded is dropped. -/
def unloadLast : Nat → ModuleRegistry Note → World → Scheduler Note →
    ModuleRegistry Note × World × Scheduler Note × List Note
  | 0, m, w, s => (m, w, s, [])
  | rounds + 1, m, w, s =>
    match m.loaded.getLast? with
    | none => (m, w, s, [])
    | some last =>
      let out := m.unload w s last.name
      let rest :=
        match out.result with
        | .ok () => out.modules
        | .error _ => ⟨out.modules.loaded.dropLast⟩
      let (m, w, s, notes) := unloadLast rounds rest out.world out.scheduler
      (m, w, s, out.notes ++ notes)

def unloadAll (m : ModuleRegistry Note) (w : World) (s : Scheduler Note) :
    ModuleRegistry Note × World × Scheduler Note × List Note :=
  unloadLast m.loaded.length m w s

def inspect (m : ModuleRegistry Note) : String :=
  "[" ++ ", ".intercalate (m.names.map Text.quote) ++ "]"

end ModuleRegistry
end EntityWorld
