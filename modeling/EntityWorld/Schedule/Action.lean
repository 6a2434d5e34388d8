import EntityWorld.Command
import EntityWorld.Query
import EntityWorld.Recipe
import EntityWorld.Schedule.AccessSet
set_option autoImplicit false

/-!
What systems do. A system is a program of requests to its context: it goes through the rows of
its query, reads and writes values within its declared access, and records commands. Rows are
good only after the context has handed them out.
-/
namespace EntityWorld

structure SystemFacts where
  name : String
  /-- Seconds since the last frame, as the bits of a single-precision number. -/
  delta : UInt32
  frame : UInt64
  access : AccessSet

def SystemFacts.inspect (facts : SystemFacts) (pending : Nat) : String :=
  s!"SystemContext \x7b name: {Text.quote facts.name}, frame: {facts.frame}, " ++
    s!"pending_commands: {pending} \x7d"

def Row.inspectInSystem (r : Row) : String := s!"SystemRow \x7b entity: {r.entity.inspect} \x7d"

inductive Request where
  | facts
  | registry
  | rows
  | get (r : Row) (h : TypeHandle) (t : HostType)
  | tryGet (r : Row) (h : TypeHandle) (t : HostType)
  | value (r : Row) (id : Id)
  | has (r : Row) (id : Id)
  | target (r : Row) (relation : TypeHandle)
  | set (r : Row) (h : TypeHandle) (t : HostType) (v : Value)
  | read (e : Entity) (h : TypeHandle) (t : HostType)
  | build (r : Recipe)
  | discard (v : ComponentValue)
  | spawn
  | record (c : Command)
  | pending

def Request.Answer : Request → Type
  | .facts => SystemFacts
  | .registry => Registry
  | .rows => List Row
  | .get .. => Except EcsError Value
  | .tryGet .. => Except EcsError (Option Value)
  | .value .. => Except EcsError (Option ComponentValue)
  | .has .. => Bool
  | .target .. => Option Entity
  | .set .. => Except EcsError Unit
  | .read .. => Except EcsError (Option Value)
  | .build _ => Except RecipeError ComponentValue
  | .discard _ => Unit
  | .spawn => PendingEntity
  | .record _ => Unit
  | .pending => Nat

/-- A program that ends with an `α` and tells its host some notes on the way. -/
inductive Action (Note α : Type) where
  | done (a : α)
  | ask (q : Request) (next : q.Answer → Action Note α)
  | tell (n : Note) (next : Action Note α)

namespace Action

variable {Note α β : Type}

def bind : Action Note α → (α → Action Note β) → Action Note β
  | done a, f => f a
  | ask q next, f => ask q fun a => (next a).bind f
  | tell n next, f => tell n (next.bind f)

instance : Monad (Action Note) where
  pure := done
  bind := bind

def request (q : Request) : Action Note q.Answer := ask q done

theorem bind_done (a : Action Note α) : a.bind done = a := by
  induction a with
  | done a => rfl
  | ask q next ih => simp [bind, ih]
  | tell n next ih => simp [bind, ih]

theorem bind_assoc {γ : Type} (a : Action Note α) (f : α → Action Note β) (g : β → Action Note γ) :
    (a.bind f).bind g = a.bind fun x => (f x).bind g := by
  induction a with
  | done a => rfl
  | ask q next ih => simp [bind, ih]
  | tell n next ih => simp [bind, ih]

end Action

/-- The body of a system. Its error is reported and stops nothing else. -/
abbrev SystemBody (Note : Type) := Action Note (Except EcsError Unit)

structure RunState (Note : Type) where
  query : Query
  rows : List Row
  buffer : CommandBuffer
  notes : List Note

/-- A use of a type outside the declared access. -/
def World.violation (w : World) (h : TypeHandle) : EcsError :=
  match w.descriptor? h with
  | some d => .accessViolation d.path
  | none => .accessViolation h.inspect

namespace RunState

variable {Note : Type}

/-- Do something with a row that was handed out and a type that may be used. -/
def guarded {α : Type} (st : RunState Note) (w : World) (r : Row) (allowed : Bool) (h : TypeHandle)
    (act : World → Except EcsError α × World) : Except EcsError α × World :=
  if !allowed then (.error (w.violation h), w)
  else if st.rows.contains r then act w
  else (.error (.staleHandle r.entity), w)

def perform (facts : SystemFacts) (st : RunState Note) (w : World) :
    (q : Request) → q.Answer × RunState Note × World
  | .facts => (facts, st, w)
  | .registry => (w.registry, st, w)
  | .rows =>
    let (query, rows) := st.query.rows w
    (rows, { st with query := query, rows := rows }, w)
  | .get r h t =>
    let (a, w) := st.guarded w r (facts.access.canRead h) h fun w => w.rowGet r h t
    (a, st, w)
  | .tryGet r h t =>
    let (a, w) := st.guarded w r (facts.access.canRead h) h fun w => w.rowTryGet r h t
    (a, st, w)
  | .value r id =>
    let (a, w) := st.guarded w r (facts.access.canRead id.typeHandle) id.typeHandle fun w =>
      let (v, w) := w.rowValue r id
      (.ok v, w)
    (a, st, w)
  | .has r id => (st.rows.contains r && w.rowHas r id, st, w)
  | .target r relation => (if st.rows.contains r then w.rowTarget r relation else none, st, w)
  | .set r h t v =>
    let (a, w) := st.guarded w r (facts.access.canWrite h) h fun w => w.rowSet r h t v
    (a, st, w)
  | .read e h t =>
    if facts.access.canRead h then
      let (a, w) := w.read e h t
      (a, st, w)
    else (.error (w.violation h), st, w)
  | .build r =>
    let (a, w) := w.build r
    (a, st, w)
  | .discard v => ((), st, w.note v.dropEvents)
  | .spawn =>
    let (token, buffer) := st.buffer.spawn
    (token, { st with buffer := buffer }, w)
  | .record c => ((), { st with buffer := st.buffer.record c }, w)
  | .pending => (st.buffer.size, st, w)

end RunState

def Action.run {Note α : Type} (facts : SystemFacts) :
    Action Note α → RunState Note → World → α × RunState Note × World
  | done a, st, w => (a, st, w)
  | ask q next, st, w =>
    let (answer, st, w) := st.perform facts w q
    (next answer).run facts st w
  | tell n next, st, w => next.run facts { st with notes := st.notes ++ [n] } w

end EntityWorld
