import EntityWorld.FinMap
import EntityWorld.Schedule.Config
import EntityWorld.Schedule.Plan
set_option autoImplicit false

/-!
The scheduler: systems in order of registration and the plan of every phase that has any.
-/
namespace EntityWorld

structure SystemBuilder (Note : Type) where
  name : String
  terms : TermList := []
  phase : Phase := .onUpdate
  after : List SystemHandle := []
  before : List SystemHandle := []
  parallelSafe : Bool := false
  runWhenPaused : Bool := false
  body : Option (SystemBody Note) := none

def SystemBuilder.inspect {Note : Type} (b : SystemBuilder Note) : String :=
  s!"SystemBuilder \x7b name: {Text.quote b.name}, phase: {b.phase.inspect}, " ++
    s!"parallel_safe: {b.parallelSafe}, .. \x7d"

structure Scheduler (Note : Type) where
  config : SchedulerConfig
  pipeline : Pipeline
  systems : List (System Note)
  plans : FinMap Phase PhasePlan
  nextHandle : UInt64
  nextBuffer : UInt32
  paused : Bool
  started : Bool
  frame : UInt64

namespace Scheduler

variable {Note : Type}

def new (config : SchedulerConfig) (pipeline : Pipeline) : Scheduler Note :=
  ⟨config, pipeline, [], .empty, 0, 1, false, false, 0⟩

def find? (s : Scheduler Note) (h : SystemHandle) : Option (System Note) :=
  s.systems.find? fun sys => sys.handle == h

def rankOf (s : Scheduler Note) (h : SystemHandle) : Option Nat :=
  match s.find? h with
  | some sys => s.pipeline.rank? sys.phase
  | none => none

def stages (s : Scheduler Note) (phase : Phase) : List Stage :=
  match s.plans.get? phase with
  | some plan => plan.stages
  | none => []

def diagnostics (s : Scheduler Note) (phase : Phase) : List Overlap :=
  match s.plans.get? phase with
  | some plan => plan.overlaps
  | none => []

def insertPhaseAfter (s : Scheduler Note) (anchor phase : Phase) :
    Except ScheduleError Unit × Scheduler Note :=
  match s.pipeline.insertAfter? anchor phase with
  | some p => (.ok (), { s with pipeline := p })
  | none => (.error (.unknownPhase anchor), s)

def insertPhases (s : Scheduler Note) : List (Phase × Phase) → Except ScheduleError (Scheduler Note)
  | [] => .ok s
  | (anchor, phase) :: rest =>
    match s.insertPhaseAfter anchor phase with
    | (.ok (), s) => s.insertPhases rest
    | (.error e, _) => .error e

def unknown? (s : Scheduler Note) (hs : List SystemHandle) : Option SystemHandle :=
  hs.find? fun h => (s.find? h).isNone

/-- The first of the given systems whose phase does not fit: `misplaced` tells of its rank. -/
def misplaced? (s : Scheduler Note) (misplaced : Option Nat → Bool) (hs : List SystemHandle) :
    Option (System Note) :=
  match hs.find? fun h => misplaced (s.rankOf h) with
  | some h => s.find? h
  | none => none

def later (rank : Nat) : Option Nat → Bool
  | some r => rank < r
  | none => false

/-- Whether a rank is before `rank`; a phase that has none is before all. -/
def earlier (rank : Nat) : Option Nat → Bool
  | some r => r < rank
  | none => true

def prepare (s : Scheduler Note) (w : World) (b : SystemBuilder Note) :
    Except ScheduleError (System Note) :=
  match s.pipeline.rank? b.phase with
  | none => .error (.unknownPhase b.phase)
  | some rank =>
    match b.body with
    | none => .error (.missingCallback b.name)
    | some body =>
      match s.unknown? (b.after ++ b.before) with
      | some h => .error (.unknownSystem h)
      | none =>
        match s.misplaced? (later rank) b.after with
        | some other => .error (.orderingCycle [b.name, other.name])
        | none =>
          match s.misplaced? (earlier rank) b.before with
          | some other => .error (.orderingCycle [b.name, other.name])
          | none =>
            match Query.compile w b.terms with
            | .error e => .error (.query e)
            | .ok query =>
              .ok {
                handle := ⟨s.nextHandle⟩
                name := b.name
                query := query
                access := .ofTerms b.terms
                phase := b.phase
                after := b.after
                before := b.before
                parallelSafe := b.parallelSafe
                runWhenPaused := b.runWhenPaused
                enabled := true
                body := body }

def register (s : Scheduler Note) (w : World) (b : SystemBuilder Note) :
    Except ScheduleError SystemHandle × Scheduler Note :=
  match s.prepare w b with
  | .error e => (.error e, s)
  | .ok sys =>
    let systems := s.systems ++ [sys]
    match PhasePlan.build systems s.config.parallel sys.phase with
    | .error e => (.error e, s)
    | .ok plan =>
      (.ok sys.handle, { s with
        systems := systems
        plans := s.plans.insert sys.phase plan
        nextHandle := s.nextHandle + 1 })

def registerAll (s : Scheduler Note) (w : World) :
    List (SystemBuilder Note) → Except ScheduleError (Scheduler Note)
  | [] => .ok s
  | b :: rest =>
    match s.register w b with
    | (.ok _, s) => s.registerAll w rest
    | (.error e, _) => .error e

def rebuildPlans (systems : List (System Note)) (parallel : Bool) : FinMap Phase PhasePlan :=
  systems.foldl (fun plans sys =>
    if plans.contains sys.phase then plans
    else match PhasePlan.build systems parallel sys.phase with
      | .ok plan => plans.insert sys.phase plan
      | .error _ => plans) .empty

def release (h : SystemHandle) (sys : System Note) : System Note :=
  { sys with after := sys.after.filter (· ≠ h), before := sys.before.filter (· ≠ h) }

def unregister (s : Scheduler Note) (h : SystemHandle) :
    Except ScheduleError Unit × Scheduler Note :=
  match s.systems.findIdx? fun sys => sys.handle == h with
  | none => (.error (.unknownSystem h), s)
  | some i =>
    let systems := (s.systems.eraseIdx i).map (release h)
    (.ok (), { s with systems := systems, plans := rebuildPlans systems s.config.parallel })

def setEnabled (s : Scheduler Note) (h : SystemHandle) (enabled : Bool) :
    Except ScheduleError Unit × Scheduler Note :=
  match s.systems.findIdx? fun sys => sys.handle == h with
  | none => (.error (.unknownSystem h), s)
  | some i =>
    (.ok (), { s with systems := s.systems.modify i fun sys => { sys with enabled := enabled } })

def setPaused (s : Scheduler Note) (paused : Bool) : Scheduler Note := { s with paused := paused }

def inspect (s : Scheduler Note) : String :=
  s!"Scheduler \x7b systems: {s.systems.length}, frame: {s.frame}, paused: {s.paused}, " ++
    s!"parallel: {s.config.parallel} \x7d"

end Scheduler
end EntityWorld
