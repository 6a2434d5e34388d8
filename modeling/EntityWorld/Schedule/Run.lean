import EntityWorld.Schedule.Scheduler
set_option autoImplicit false

/-!
Running phases and frames. The systems of a phase run in the order of its plan; the commands they
recorded are applied after the last of them.
-/
namespace EntityWorld

structure SystemOutput (Note : Type) where
  system : String
  result : Except EcsError Unit
  commands : CommandBuffer
  notes : List Note

structure SystemFailure where
  system : String
  error : EcsError
  deriving DecidableEq, Repr

structure PhaseReport (Note : Type) where
  phase : Phase
  systemsRun : Nat
  stages : Nat
  failures : List SystemFailure
  commands : CommandReport
  notes : List (String × Note)

structure FrameReport (Note : Type) where
  frame : UInt64
  phases : List (PhaseReport Note)

namespace PhaseReport

variable {Note : Type}

def empty (phase : Phase) : PhaseReport Note := ⟨phase, 0, 0, [], .empty, []⟩

def isClean (r : PhaseReport Note) : Bool := r.failures.isEmpty && r.commands.isClean

end PhaseReport

namespace Scheduler

variable {Note : Type}

def eligible (s : Scheduler Note) (sys : System Note) : Bool :=
  sys.enabled && (!s.paused || sys.runWhenPaused)

def runSystem (s : Scheduler Note) (w : World) (delta : UInt32) (i : Nat) :
    Option (SystemOutput Note) × Scheduler Note × World :=
  match s.systems[i]? with
  | none => (none, s, w)
  | some sys =>
    if s.eligible sys then
      let facts : SystemFacts := ⟨sys.name, delta, s.frame, sys.access⟩
      let (result, st, w) := sys.body.run facts ⟨sys.query, [], .empty s.nextBuffer, []⟩ w
      let s := { s with
        systems := s.systems.modify i fun sys => { sys with query := st.query }
        nextBuffer := s.nextBuffer + 1 }
      (some ⟨sys.name, result, st.buffer, st.notes⟩, s, w)
    else (none, s, w)

def runSystems (delta : UInt32) : Scheduler Note → World → List Nat →
    List (SystemOutput Note) × Scheduler Note × World
  | s, w, [] => ([], s, w)
  | s, w, i :: rest =>
    let (output, s, w) := s.runSystem w delta i
    let (outputs, s, w) := runSystems delta s w rest
    (output.toList ++ outputs, s, w)

/-- Collect the failures, notes and commands of the systems, applying the commands. -/
def settle (w : World) (report : PhaseReport Note) :
    List (SystemOutput Note) → PhaseReport Note × World
  | [] => (report, w)
  | out :: rest =>
    let report := { report with
      failures := report.failures ++
        match out.result with
        | .ok _ => []
        | .error e => [⟨out.system, e⟩]
      notes := report.notes ++ out.notes.map fun n => (out.system, n) }
    if out.commands.isEmpty then settle w report rest
    else
      let (commands, w) := w.applyCommands out.commands
      settle w { report with commands := report.commands.merge commands } rest

def runPhase (s : Scheduler Note) (w : World) (phase : Phase) (delta : UInt32) :
    Except ScheduleError (PhaseReport Note) × Scheduler Note × World :=
  if !s.pipeline.contains phase then (.error (.unknownPhase phase), s, w)
  else
    match s.plans.get? phase with
    | none => (.ok (.empty phase), s, w)
    | some plan =>
      let (outputs, s, w) := runSystems delta s w (plan.stages.flatMap Stage.systems)
      let report := { PhaseReport.empty phase with
        systemsRun := outputs.length, stages := plan.stages.length }
      let (report, w) := settle w report outputs
      (.ok report, s, w)

def runPhases (delta : UInt32) : Scheduler Note → World → List Phase →
    Except ScheduleError (List (PhaseReport Note)) × Scheduler Note × World
  | s, w, [] => (.ok [], s, w)
  | s, w, phase :: rest =>
    match s.runPhase w phase delta with
    | (.error e, s, w) => (.error e, s, w)
    | (.ok report, s, w) =>
      let (reports, s, w) := runPhases delta s w rest
      (reports.map (report :: ·), s, w)

/-- Run a frame: the start phase if it is the first, then every phase of the pipeline. -/
def progress (s : Scheduler Note) (w : World) (delta : UInt32) :
    Except ScheduleError (FrameReport Note) × Scheduler Note × World :=
  let phases := (if s.started then [] else [Phase.onStart]) ++ s.pipeline.phases
  match runPhases delta { s with started := true } w phases with
  | (.error e, s, w) => (.error e, s, w)
  | (.ok reports, s, w) => (.ok ⟨s.frame, reports⟩, { s with frame := s.frame + 1 }, w)

end Scheduler
end EntityWorld
