import EntityWorld.Replication.Error
import EntityWorld.Schedule.Error
set_option autoImplicit false

/-!
Why an operation of a bridge fails.
-/
namespace EntityWorld

structure ObjectId where
  raw : UInt64
  deriving DecidableEq, Repr

def ObjectId.text (o : ObjectId) : String := s!"obj#{o.raw}"

inductive BridgeError where
  | ecs (cause : EcsError)
  | schedule (cause : ScheduleError)
  | replication (cause : ReplicationError)
  | alreadyBound (object : ObjectId)
  | notBound (object : ObjectId)
  | missingDependency (module dependency : String)
  | moduleInUse (module : String) (dependents : List String)
  | duplicateModule (module : String)
  | unknownModule (module : String)
  deriving DecidableEq, Repr

def BridgeError.message : BridgeError → String
  | .ecs cause => cause.message
  | .schedule cause => cause.message
  | .replication cause => cause.message
  | .alreadyBound object => s!"host object {object.text} is already bound to an entity"
  | .notBound object => s!"host object {object.text} is not bound to an entity"
  | .missingDependency module dependency =>
    s!"module {module} depends on {dependency}, which is not loaded"
  | .moduleInUse module dependents =>
    s!"module {module} is required by " ++ ", ".intercalate dependents
  | .duplicateModule module => s!"module {module} is already loaded"
  | .unknownModule module => s!"module {module} is not loaded"

def BridgeError.code : BridgeError → String
  | .ecs cause => cause.code
  | .schedule cause => cause.code
  | .replication cause => cause.code
  | .alreadyBound .. => "BridgeError.AlreadyBound"
  | .notBound .. => "BridgeError.NotBound"
  | .missingDependency .. => "BridgeError.MissingDependency"
  | .moduleInUse .. => "BridgeError.ModuleInUse"
  | .duplicateModule .. => "BridgeError.DuplicateModule"
  | .unknownModule .. => "BridgeError.UnknownModule"

instance : Failing BridgeError := ⟨fun e => ⟨e.code, e.message⟩⟩

end EntityWorld
