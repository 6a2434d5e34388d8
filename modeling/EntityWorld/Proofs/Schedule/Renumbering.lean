import EntityWorld.Proofs.Schedule.Interleaving
set_option autoImplicit false

/-!
The numbers of command buffers. Tokens carry the number of the buffer that made them; a system that
only passes its tokens on does the same whatever number its buffer has, up to that number.
-/
namespace EntityWorld

variable {Note : Type}

def PendingEntity.rename (f : UInt32 → UInt32) (p : PendingEntity) : PendingEntity :=
  { p with buffer := f p.buffer }

def Target.rename (f : UInt32 → UInt32) : Target → Target
  | .live e => .live e
  | .pending p => .pending (p.rename f)

def Command.rename (f : UInt32 → UInt32) : Command → Command
  | .spawn => .spawn
  | .despawn target => .despawn (target.rename f)
  | .insert target value => .insert (target.rename f) value
  | .add target id => .add (target.rename f) id
  | .remove target id => .remove (target.rename f) id
  | .addPair target relation object => .addPair (target.rename f) relation (object.rename f)
  | .removePair target relation object => .removePair (target.rename f) relation (object.rename f)

def CommandBuffer.rename (f : UInt32 → UInt32) (b : CommandBuffer) : CommandBuffer :=
  ⟨f b.id, b.commands.map (Command.rename f), b.spawns⟩

def RunState.rename (f : UInt32 → UInt32) (st : RunState Note) : RunState Note :=
  { st with buffer := st.buffer.rename f }

def Observation.rename (f : UInt32 → UInt32) : Observation → Observation
  | ⟨.spawn, token⟩ => ⟨.spawn, PendingEntity.rename f token⟩
  | ⟨.record c, a⟩ => ⟨.record (c.rename f), a⟩
  | o => o

def Task.rename (f : UInt32 → UInt32) (t : Task Note) : Task Note :=
  { t with state := t.state.rename f, seen := t.seen.map (Observation.rename f) }

/-- Neither of the requests that tokens are part of. -/
def Request.Plain : Request → Prop
  | .spawn | .record _ => False
  | _ => True

/-- Two programs do the same, the first with tokens of a buffer with the number `m` and the second
with those of one with the number `f m`. -/
inductive Action.Alike {α : Type} (m : UInt32) (f : UInt32 → UInt32) :
    Action Note α → Action Note α → Prop where
  | done (a : α) : Alike m f (.done a) (.done a)
  | tell (note : Note) {next next' : Action Note α} : Alike m f next next' →
      Alike m f (.tell note next) (.tell note next')
  | spawn {next next' : PendingEntity → Action Note α} :
      (∀ i, Alike m f (next ⟨m, i⟩) (next' ⟨f m, i⟩)) →
      Alike m f (.ask .spawn next) (.ask .spawn next')
  | record (c : Command) {next next' : Unit → Action Note α} : Alike m f (next ()) (next' ()) →
      Alike m f (.ask (.record c) next) (.ask (.record (c.rename f)) next')
  | ask {q : Request} (hq : q.Plain) {next next' : q.Answer → Action Note α} :
      (∀ a, Alike m f (next a) (next' a)) → Alike m f (.ask q next) (.ask q next')

variable {m : UInt32} {f : UInt32 → UInt32}

namespace CommandBuffer

theorem rename_spawn (b : CommandBuffer) :
    (b.rename f).spawn = (b.spawn.1.rename f, b.spawn.2.rename f) := by
  simp only [spawn, rename, List.map_append]
  rfl

theorem rename_record (b : CommandBuffer) (c : Command) :
    (b.rename f).record (c.rename f) = (b.record c).rename f := by
  cases c with
  | spawn => exact congrArg Prod.snd b.rename_spawn
  | _ => simp only [Command.rename, record, rename, List.map_append, List.map_cons, List.map_nil]

theorem id_record (b : CommandBuffer) (c : Command) : (b.record c).id = b.id := by
  cases c <;> rfl

end CommandBuffer

namespace RunState

theorem perform_rename {q : Request} (hq : q.Plain) (facts : SystemFacts) (st : RunState Note)
    (w : World) : (st.rename f).perform facts w q = ((st.perform facts w q).1,
      (st.perform facts w q).2.1.rename f, (st.perform facts w q).2.2) := by
  cases q with
  | spawn | record => exact hq.elim
  | read e h t =>
    simp only [perform]
    split <;> rfl
  | pending =>
    have hsize : (st.rename f).buffer.size = st.buffer.size := List.length_map _
    simp only [perform, hsize]
  | facts | registry | rows | get | tryGet | value | has | target | set | build | discard => rfl

theorem buffer_perform {q : Request} (hq : q.Plain) (facts : SystemFacts) (st : RunState Note)
    (w : World) : (st.perform facts w q).2.1.buffer = st.buffer := by
  cases q with
  | spawn | record => exact hq.elim
  | read e h t =>
    simp only [perform]
    split <;> rfl
  | facts | registry | rows | get | tryGet | value | has | target | set | build | discard
  | pending => rfl

end RunState

theorem Observation.rename_plain {q : Request} (hq : q.Plain) (a : q.Answer) :
    Observation.rename f ⟨q, a⟩ = ⟨q, a⟩ := by
  cases q with
  | spawn | record => exact hq.elim
  | _ => rfl

theorem Task.complete_rename (facts : SystemFacts) {a b : SystemBody Note}
    (h : Action.Alike m f a b) (st : RunState Note) (hst : st.buffer.id = m)
    (seen : List Observation) (w : World) :
    complete facts b (st.rename f) (seen.map (Observation.rename f)) w =
      ((complete facts a st seen w).1.rename f, (complete facts a st seen w).2) := by
  induction h generalizing st seen w with
  | done result => rfl
  | tell note _ ih => exact ih { st with notes := st.notes ++ [note] } hst seen w
  | @spawn next next' _ ih =>
    subst hst
    have hrun := ih st.buffer.spawns { st with buffer := st.buffer.spawn.2 } rfl
      (seen ++ [⟨.spawn, st.buffer.spawn.1⟩]) w
    rw [List.map_append] at hrun
    have hbuffer : (st.buffer.rename f).spawn.2 = st.buffer.spawn.2.rename f :=
      congrArg Prod.snd st.buffer.rename_spawn
    refine Eq.trans ?_ hrun
    exact congrArg (fun b => complete facts (next' ⟨f st.buffer.id, st.buffer.spawns⟩)
      { st with buffer := b } _ w) hbuffer
  | @record c next next' _ ih =>
    have hrun := ih { st with buffer := st.buffer.record c } ((st.buffer.id_record c).trans hst)
      (seen ++ [⟨.record c, ()⟩]) w
    rw [List.map_append] at hrun
    refine Eq.trans ?_ hrun
    exact congrArg (fun b => complete facts (next' ()) { st with buffer := b } _ w)
      (st.buffer.rename_record c)
  | @ask q hq next next' _ ih =>
    have hrun := ih (st.perform facts w q).1 (st.perform facts w q).2.1
      ((congrArg CommandBuffer.id (st.buffer_perform hq facts w)).trans hst)
      (seen ++ [⟨q, (st.perform facts w q).1⟩]) (st.perform facts w q).2.2
    rw [List.map_append, List.map_singleton, Observation.rename_plain hq] at hrun
    simp only [complete, RunState.perform_rename hq]
    exact hrun

end EntityWorld
