import EntityWorld.Command
import EntityWorld.Schedule.Action
import EntityWorld.Script.Reply
set_option autoImplicit false

/-!
Drafts of commands: their values are recipes and their targets are named by the order of spawns.
A draft becomes a command when it is recorded.
-/
namespace EntityWorld

inductive Referent where
  | live (e : Entity)
  /-- The entity of a spawn recorded before in the same buffer, counted from 0. -/
  | spawned (k : Nat)
  | foreign (k : UInt32)
  | self
  deriving DecidableEq, Repr

/-- The target of a command, given the tokens of the buffer and the row at hand. A token of no
buffer is never resolved. -/
def Referent.target (tokens : List PendingEntity) (row? : Option Row) : Referent → Target
  | live e => .live e
  | spawned k => .pending (tokens[k]?.getD ⟨0, UInt32.ofNat k⟩)
  | foreign k => .pending ⟨0, k⟩
  | self =>
    match row? with
    | some r => .live r.entity
    | none => .pending ⟨0, 0⟩

inductive Draft where
  | spawn
  | despawn (target : Referent)
  | insert (target : Referent) (value : Recipe)
  | add (target : Referent) (id : Id)
  | remove (target : Referent) (id : Id)
  | addPair (target : Referent) (relation : TypeHandle) (object : Referent)
  | removePair (target : Referent) (relation : TypeHandle) (object : Referent)
  deriving DecidableEq, Repr

structure Recorder (m : Type → Type) where
  build : Recipe → m (Except RecipeError ComponentValue)
  spawn : m PendingEntity
  record : Command → m Unit

namespace Recorder

def ofBuffer : Recorder (StateM (World × CommandBuffer)) where
  build r := fun (w, buffer) =>
    let (v, w) := w.build r
    (v, w, buffer)
  spawn := fun (w, buffer) =>
    let (token, buffer) := buffer.spawn
    (token, w, buffer)
  record c := fun (w, buffer) => ((), w, buffer.record c)

def ofSystem (Note : Type) : Recorder (Action Note) where
  build r := Action.request (.build r)
  spawn := Action.request .spawn
  record c := Action.request (.record c)

end Recorder

namespace Draft

variable {m : Type → Type} [Monad m]

def record (rec : Recorder m) (tokens : List PendingEntity) (row? : Option Row) (d : Draft) :
    ExceptT RecipeError m (List PendingEntity) := do
  let target (r : Referent) : Target := r.target tokens row?
  match d with
  | spawn =>
    let token ← ExceptT.lift rec.spawn
    return tokens ++ [token]
  | insert t recipe =>
    let v ← ExceptT.mk (rec.build recipe)
    rec.record (.insert (target t) v)
  | despawn t => rec.record (.despawn (target t))
  | add t id => rec.record (.add (target t) id)
  | remove t id => rec.record (.remove (target t) id)
  | addPair t relation o => rec.record (.addPair (target t) relation (target o))
  | removePair t relation o => rec.record (.removePair (target t) relation (target o))
  return tokens

def recordAll (rec : Recorder m) : List PendingEntity → List Draft → ExceptT RecipeError m Unit
  | _, [] => return ()
  | tokens, d :: rest => do
    let tokens ← d.record rec tokens none
    recordAll rec tokens rest

end Draft

/-- Apply drafts as one buffer; also the buffer as it was before. If a value cannot be made,
nothing is applied and the values made so far are given up. -/
def World.applyDrafts (w : World) (drafts : List Draft) :
    Except RecipeError (CommandBuffer × CommandReport) × World :=
  match (Draft.recordAll .ofBuffer [] drafts).run.run (w, .empty 1) with
  | (.ok (), w, buffer) =>
    let (report, w) := w.applyCommands buffer
    (.ok (buffer, report), w)
  | (.error e, w, buffer) => (.error e, w.note buffer.dropEvents)

end EntityWorld
