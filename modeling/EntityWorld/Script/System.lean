import EntityWorld.Script.Draft
import EntityWorld.Script.RowAct
set_option autoImplicit false

/-!
Systems as data: a script is a list of items that are done in order, up to the first that fails.
Every result is told.
-/
namespace EntityWorld

inductive RowItem where
  | act (a : RowAct)
  | command (d : Draft)
  deriving DecidableEq, Repr

inductive ScriptItem where
  | facts
  | count
  | inspect
  | lookup (path : String)
  | get (e : Entity) (h : TypeHandle) (t : HostType)
  | command (d : Draft)
  | fail (path : String)
  | attempt (item : ScriptItem)
  | rows (items : List RowItem)
  deriving Repr

instance : Inhabited ScriptItem := ⟨.facts⟩

/-- A script under way: it knows the tokens of its spawns. -/
abbrev Script := ExceptT RecipeError (StateT (List PendingEntity) (Action Reply))

namespace Script

def perform {α : Type} (a : Action Reply α) : Script α := ExceptT.lift (StateT.lift a)

def ask (q : Request) : Script q.Answer := perform (Action.request q)

def tell (r : Reply) : Script Unit := perform (Action.tell r (.done ()))

def orFail {α : Type} : Except EcsError α → Script α
  | .ok a => return a
  | .error e => throw (.ecs e)

def record (row? : Option Row) (d : Draft) : Script Unit := do
  let tokens ← get
  match ← perform (d.record (.ofSystem Reply) tokens row?).run with
  | .ok tokens => set tokens
  | .error e => throw e

def onRow (r : Row) : List RowItem → Script (List Reply)
  | [] => return []
  | .command d :: rest => do
    record (some r) d
    onRow r rest
  | .act a :: rest => do
    let reply ← orFail (← perform (a.perform (.ofSystem Reply) r).run)
    let replies ← onRow r rest
    return reply :: replies

def onRows (items : List RowItem) : List Row → Script Unit
  | [] => return ()
  | r :: rest => do
    let replies ← onRow r items
    tell (.list (.entity r.entity :: replies))
    onRows items rest

end Script

namespace ScriptItem

open Script

def run : ScriptItem → Script Reply
  | facts => do
    let f : SystemFacts ← ask .facts
    return .list [.text f.name, .number f.frame.toNat, .number f.delta.toNat]
  | count => do
    let rows : List Row ← ask .rows
    return .number rows.length
  | inspect => do
    let f : SystemFacts ← ask .facts
    return .text (f.inspect (← ask .pending))
  | lookup path => do
    let registry : Registry ← ask .registry
    return .ofOption (fun h => .number h.raw.toNat) (registry.lookup path)
  | get e h t => do
    let v ← orFail (← ask (.read e h t))
    return .list [.ofOption (.typed t) v]
  | command d => do
    record none d
    return .nothing
  | fail path => throw (.ecs (.tagValue path))
  | attempt item => do
    try item.run
    catch e => return .failure e
  | rows items => do
    let rows : List Row ← ask .rows
    onRows items rows
    return .rows rows.length

def runAll : List ScriptItem → Script Unit
  | [] => return ()
  | item :: rest => do
    let reply ← item.run
    if !reply.isNothing then tell reply
    runAll rest

def body (items : List ScriptItem) : SystemBody Reply :=
  let run : Action Reply (Except RecipeError Unit × List PendingEntity) :=
    (runAll items).run.run []
  run.bind fun p => .done (p.1.mapError RecipeError.toEcsError)

end ScriptItem
end EntityWorld
