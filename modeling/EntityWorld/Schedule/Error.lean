import EntityWorld.Error
import EntityWorld.Schedule.Phase
set_option autoImplicit false

/-!
Why a system cannot be registered or a phase cannot be run.
-/
namespace EntityWorld

/-- Number of a registered system; numbers are never given twice. -/
structure SystemHandle where
  raw : UInt64
  deriving DecidableEq, Repr

def SystemHandle.inspect (h : SystemHandle) : String := s!"SystemHandle({h.raw})"

inductive ScheduleError where
  | orderingCycle (systems : List String)
  | unknownSystem (handle : SystemHandle)
  | unknownPhase (phase : Phase)
  | missingCallback (system : String)
  | query (cause : QueryError)
  deriving DecidableEq, Repr

def ScheduleError.message : ScheduleError → String
  | .orderingCycle systems =>
    "ordering constraints form a cycle through: " ++ " -> ".intercalate systems
  | .unknownSystem handle => s!"system {handle.inspect} is not registered"
  | .unknownPhase phase => s!"phase {phase.name} is not part of the pipeline"
  | .missingCallback system => s!"system {system} has no run callback"
  | .query cause => s!"system term list rejected: {cause.message}"

def ScheduleError.code : ScheduleError → String
  | .orderingCycle .. => "ScheduleError.OrderingCycle"
  | .unknownSystem .. => "ScheduleError.UnknownSystem"
  | .unknownPhase .. => "ScheduleError.UnknownPhase"
  | .missingCallback .. => "ScheduleError.MissingCallback"
  | .query cause => cause.code

instance : Failing ScheduleError := ⟨fun e => ⟨e.code, e.message⟩⟩

end EntityWorld
