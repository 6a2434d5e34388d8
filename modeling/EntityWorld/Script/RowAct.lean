import EntityWorld.Schedule.Action
import EntityWorld.Script.Reply
set_option autoImplicit false

/-!
Acts on rows, as data. The same act is done on a row of a query, with the whole world at hand, or
on a row of a system, within the system's access.
-/
namespace EntityWorld

/-- What can be done with rows, in a setting `m`. -/
structure RowAccess (m : Type → Type) where
  get : Row → TypeHandle → HostType → m (Except EcsError Value)
  tryGet : Row → TypeHandle → HostType → m (Except EcsError (Option Value))
  value : Row → Id → m (Except EcsError (Option ComponentValue))
  discard : ComponentValue → m Unit
  has : Row → Id → m Bool
  target : Row → TypeHandle → m (Option Entity)
  set : Row → TypeHandle → HostType → Value → m (Except EcsError Unit)
  inspect : Row → String

namespace RowAccess

def ofWorld : RowAccess (StateM World) where
  get r h t := fun w => w.rowGet r h t
  tryGet r h t := fun w => w.rowTryGet r h t
  value r id := fun w =>
    let (v, w) := w.rowValue r id
    (.ok v, w)
  discard v := modify fun w => w.note v.dropEvents
  has r id := fun w => (w.rowHas r id, w)
  target r h := fun w => (w.rowTarget r h, w)
  set r h t v := fun w => w.rowSet r h t v
  inspect := Row.inspect

def ofSystem (Note : Type) : RowAccess (Action Note) where
  get r h t := Action.request (.get r h t)
  tryGet r h t := Action.request (.tryGet r h t)
  value r id := Action.request (.value r id)
  discard v := Action.request (.discard v)
  has r id := Action.request (.has r id)
  target r h := Action.request (.target r h)
  set r h t v := Action.request (.set r h t v)
  inspect := Row.inspectInSystem

variable {m : Type → Type} [Monad m]

def getWord (a : RowAccess m) (r : Row) (h : TypeHandle) : ExceptT EcsError m UInt32 := do
  let v ← ExceptT.mk (a.get r h .u32)
  return UInt32.ofNat v.toNat

def setWord (a : RowAccess m) (r : Row) (h : TypeHandle) (n : UInt32) :
    ExceptT EcsError m Reply := do
  ExceptT.mk (a.set r h .u32 (.ofNat 4 n.toNat))
  return .number n.toNat

end RowAccess

inductive RowAct where
  | get (h : TypeHandle) (t : HostType)
  | tryGet (h : TypeHandle) (t : HostType)
  | value (id : Id)
  | has (id : Id)
  | target (relation : TypeHandle)
  | entity
  | inspect
  | set (h : TypeHandle) (t : HostType) (v : Value)
  | add (h : TypeHandle) (n : UInt32)
  | mul (h : TypeHandle) (n : UInt32)
  | mix (dst src : TypeHandle) (k : UInt32)
  | attempt (act : RowAct)
  deriving DecidableEq, Repr

instance : Inhabited RowAct := ⟨.entity⟩

namespace RowAct

variable {m : Type → Type} [Monad m]

def perform (a : RowAccess m) (r : Row) : RowAct → ExceptT EcsError m Reply
  | get h t => do
    let v ← ExceptT.mk (a.get r h t)
    return .typed t v
  | tryGet h t => do
    let v ← ExceptT.mk (a.tryGet r h t)
    return .ofOption (.typed t) v
  | value id => do
    match ← ExceptT.mk (a.value r id) with
    | none => return .nothing
    | some v =>
      a.discard v
      return .stored v
  | has id => do return .flag (← a.has r id)
  | target relation => do return .ofOption .entity (← a.target r relation)
  | entity => return .entity r.entity
  | inspect => return .text (a.inspect r)
  | set h t v => do
    ExceptT.mk (a.set r h t v)
    return .nothing
  | add h n => do
    let x ← a.getWord r h
    a.setWord r h (x + n)
  | mul h n => do
    let x ← a.getWord r h
    a.setWord r h (x * n)
  | mix dst src k => do
    let n ← a.getWord r src
    let x ← a.getWord r dst
    a.setWord r dst (x * k + n)
  | attempt act => do
    match ← ExceptT.lift (act.perform a r).run with
    | .ok reply => return reply
    | .error e => return .failure (.ecs e)

def performAll (acts : List RowAct) (r : Row) : StateM World Reply := do
  let replies ← acts.mapM fun act => do
    match ← (act.perform .ofWorld r).run with
    | .ok reply => return reply
    | .error e => return .failure (.ecs e)
  return .list (.entity r.entity :: replies)

end RowAct
end EntityWorld
