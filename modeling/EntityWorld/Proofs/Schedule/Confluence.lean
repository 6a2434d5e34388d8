import EntityWorld.Proofs.Schedule.Reachable
import EntityWorld.Proofs.Schedule.Renumbering
set_option autoImplicit false

/-!
Parallel stages are confluent. In whatever order the systems of such a stage get at the world, each
of them sees and does what it would if they ran one after another.
-/
namespace EntityWorld

variable {Note : Type}

def System.task (sys : System Note) (delta : UInt32) (frame : UInt64) (number : UInt32) :
    Task Note :=
  ⟨⟨sys.name, delta, frame, sys.access⟩, sys.body, ⟨sys.query, [], .empty number, []⟩, []⟩

def Task.output? (t : Task Note) : Option (SystemOutput Note) :=
  match t.program with
  | .done result => some ⟨t.facts.name, result, t.state.buffer, t.state.notes⟩
  | _ => none

def SystemOutput.rename (f : UInt32 → UInt32) (out : SystemOutput Note) : SystemOutput Note :=
  { out with commands := out.commands.rename f }

theorem Task.output?_rename (f : UInt32 → UInt32) (t : Task Note) :
    (t.rename f).output? = t.output?.map (SystemOutput.rename f) := by
  obtain ⟨facts, program, st, seen⟩ := t
  cases program <;> rfl

theorem Task.complete_eq (facts : SystemFacts) (a : SystemBody Note) (st : RunState Note)
    (seen : List Observation) (w : World) : ∃ seen', complete facts a st seen w =
      (⟨facts, .done (a.run facts st w).1, (a.run facts st w).2.1, seen'⟩,
        (a.run facts st w).2.2) := by
  induction a generalizing st seen w with
  | done result => exact ⟨seen, rfl⟩
  | ask q next ih => exact ih _ _ _ _
  | tell note next ih => exact ih _ _ _

namespace Scheduler

variable {s : Scheduler Note} {w : World} {is : List Nat}

def participants (s : Scheduler Note) (is : List Nat) : List (System Note) :=
  is.filterMap fun i => (s.systems[i]?).filter s.eligible

def tasks (s : Scheduler Note) (delta : UInt32) (number : Nat → UInt32) (is : List Nat) :
    List (Task Note) :=
  (s.participants is).mapIdx fun k sys => sys.task delta s.frame (number k)

def numberOf (s : Scheduler Note) (k : Nat) : UInt32 := s.nextBuffer + .ofNat k

def after (s : Scheduler Note) (i : Nat) (t : Task Note) : Scheduler Note :=
  { s with
    systems := s.systems.modify i fun sys => { sys with query := t.state.query }
    nextBuffer := s.nextBuffer + 1 }

theorem runSystem_eq (s : Scheduler Note) (w : World) (delta : UInt32) (i : Nat) :
    s.runSystem w delta i = match (s.systems[i]?).filter s.eligible with
      | none => (none, s, w)
      | some sys =>
        let (t, w) := (sys.task delta s.frame s.nextBuffer).finish w
        (t.output?, s.after i t, w) := by
  unfold runSystem
  cases s.systems[i]? with
  | none => rfl
  | some sys =>
    obtain ⟨seen, hend⟩ := Task.complete_eq ⟨sys.name, delta, s.frame, sys.access⟩ sys.body
      ⟨sys.query, [], .empty s.nextBuffer, []⟩ [] w
    simp only [Option.filter_some]
    split
    · simp only [Task.finish, System.task, hend]
      rfl
    · rfl

theorem participants_after {i : Nat} (hi : i ∉ is) (t : Task Note) :
    (s.after i t).participants is = s.participants is := by
  refine List.filterMap_congr fun j hj => ?_
  have hij : i ≠ j := fun h => hi (h ▸ hj)
  have hsame : (s.after i t).systems[j]? = s.systems[j]? := by
    rw [after, List.getElem?_modify]
    simp [hij]
  rw [hsame]
  rfl

theorem numberOf_after (s : Scheduler Note) (i : Nat) (t : Task Note) (k : Nat) :
    (s.after i t).numberOf k = s.numberOf (k + 1) := by
  have hone : (UInt32.ofNat (k + 1)) = 1 + UInt32.ofNat k := by
    rw [Nat.add_comm, UInt32.ofNat_add]
    rfl
  rw [numberOf, numberOf, hone, ← UInt32.add_assoc]
  rfl

theorem runSystems_eq (delta : UInt32) (his : is.Nodup) (s : Scheduler Note) (w : World) :
    (runSystems delta s w is).1 =
        (inTurn (s.tasks delta s.numberOf is) w).1.filterMap Task.output? ∧
      (runSystems delta s w is).2.2 = (inTurn (s.tasks delta s.numberOf is) w).2 := by
  induction is generalizing s w with
  | nil => exact ⟨rfl, rfl⟩
  | cons i rest ih =>
    obtain ⟨hi, hrest⟩ := List.nodup_cons.1 his
    have hrun := s.runSystem_eq w delta i
    cases hsys : (s.systems[i]?).filter s.eligible with
    | none =>
      have htasks : s.tasks delta s.numberOf (i :: rest) = s.tasks delta s.numberOf rest := by
        rw [tasks, participants, List.filterMap_cons, hsys]
        rfl
      simp only [hsys] at hrun
      rw [runSystems, hrun, htasks]
      exact ih hrest s w
    | some sys =>
      simp only [hsys] at hrun
      have htasks (t : Task Note) : s.tasks delta s.numberOf (i :: rest) =
          sys.task delta s.frame s.nextBuffer ::
            (s.after i t).tasks delta (s.after i t).numberOf rest := by
        have hfirst : s.numberOf 0 = s.nextBuffer := UInt32.add_zero _
        rw [tasks, participants, List.filterMap_cons, hsys, tasks, participants_after hi]
        simp only [List.mapIdx_cons, hfirst, numberOf_after]
        rfl
      obtain ⟨houtputs, hworld⟩ := ih hrest
        (s.after i ((sys.task delta s.frame s.nextBuffer).finish w).1)
        ((sys.task delta s.frame s.nextBuffer).finish w).2
      rw [runSystems, hrun, htasks]
      refine ⟨?_, hworld⟩
      simp only [inTurn, List.filterMap_cons, houtputs]
      cases ((sys.task delta s.frame s.nextBuffer).finish w).1.output? <;> rfl

theorem inTurn_renumber (f : Nat → UInt32 → UInt32) (number : Nat → UInt32) (delta : UInt32)
    (frame : UInt64) (systems : List (System Note)) (w : World)
    (h : ∀ k sys, systems[k]? = some sys → Action.Alike (number k) (f k) sys.body sys.body) :
    inTurn (systems.mapIdx fun k sys => sys.task delta frame (f k (number k))) w =
      ((inTurn (systems.mapIdx fun k sys => sys.task delta frame (number k)) w).1.mapIdx
          fun k t => t.rename (f k),
        (inTurn (systems.mapIdx fun k sys => sys.task delta frame (number k)) w).2) := by
  induction systems generalizing f number w with
  | nil => rfl
  | cons sys rest ih =>
    have hfirst : (sys.task delta frame (f 0 (number 0))).finish w =
        (((sys.task delta frame (number 0)).finish w).1.rename (f 0),
          ((sys.task delta frame (number 0)).finish w).2) :=
      Task.complete_rename ⟨sys.name, delta, frame, sys.access⟩ (h 0 sys rfl)
        ⟨sys.query, [], .empty (number 0), []⟩ rfl [] w
    have hrest := ih (fun k => f (k + 1)) (fun k => number (k + 1))
      ((sys.task delta frame (number 0)).finish w).2 fun k other hk => h (k + 1) other hk
    simp only [List.mapIdx_cons, inTurn, hfirst, hrest]

theorem independent_tasks {parallel : Bool} {phase : Phase} {stages : List Stage}
    (hplan : PhasePlan.Sound s.systems parallel phase stages) (his : .parallel is ∈ stages)
    (delta : UInt32) (number : Nat → UInt32) : Independent (s.tasks delta number is) := by
  have hapart : is.Pairwise (PhasePlan.Apart s.systems) :=
    ((List.nodup_flatMap.1 hplan.once).1 _ his).pairwise_of_forall_ne fun i hi j hj hij =>
      (hplan.independent is his i hi j hj hij).1
  have hsystems : (s.participants is).Pairwise fun a b => a.access.Apart b.access := by
    refine hapart.filterMap _ fun i j hij a ha b hb => ?_
    exact hij a b (Option.filter_eq_some_iff.1 ha).1 (Option.filter_eq_some_iff.1 hb).1
  rw [Independent, List.pairwise_iff_getElem]
  intro i j hi hj hij
  simp only [tasks, List.getElem_mapIdx]
  exact List.pairwise_iff_getElem.1 hsystems i j _ _ hij

/-! ### States in the course of phases -/

/-- Schedulers and worlds as calls, changes of the world and runs of systems lead to them. -/
inductive Underway : Scheduler Note → World → Prop where
  | new (config : SchedulerConfig) (pipeline : Pipeline) : Underway (.new config pipeline) .new
  | call {s : Scheduler Note} {w : World} (c : Call Note) : Underway s w → Underway (s.call c) w
  | perform {s : Scheduler Note} {w : World} (op : Operation) : Underway s w →
      Underway s (w.perform op)
  | turn {s : Scheduler Note} {w : World} (started : Bool) (frame : UInt64) : Underway s w →
      Underway { s with started, frame } w
  | system {s : Scheduler Note} {w : World} (delta : UInt32) (i : Nat) : Underway s w →
      Underway (s.runSystem w delta i).2.1 (s.runSystem w delta i).2.2

namespace Underway

theorem run (h : Underway s w) (ops : List Operation) : Underway s (w.run ops) := by
  induction ops generalizing w with
  | nil => exact h
  | cons op rest ih => exact ih (h.perform op)

theorem runSystems (h : Underway s w) (delta : UInt32) (is : List Nat) :
    Underway (Scheduler.runSystems delta s w is).2.1 (Scheduler.runSystems delta s w is).2.2 := by
  induction is generalizing s w with
  | nil => exact h
  | cons i rest ih => exact ih (h.system delta i)

theorem settle (h : Underway s w) (report : PhaseReport Note)
    (outputs : List (SystemOutput Note)) :
    Underway s (Scheduler.settle w report outputs).2 := by
  induction outputs generalizing w report with
  | nil => exact h
  | cons out rest ih =>
    simp only [Scheduler.settle]
    split
    · exact ih h _
    · exact ih (h.perform (.applyCommands out.commands)) _

theorem runPhase (h : Underway s w) (phase : Phase) (delta : UInt32) :
    Underway (s.runPhase w phase delta).2.1 (s.runPhase w phase delta).2.2 := by
  unfold Scheduler.runPhase
  split
  · exact h
  · split
    · exact h
    · exact (h.runSystems delta _).settle _ _

theorem runPhases (h : Underway s w) (phases : List Phase) (delta : UInt32) :
    Underway (Scheduler.runPhases delta s w phases).2.1
      (Scheduler.runPhases delta s w phases).2.2 := by
  induction phases generalizing s w with
  | nil => exact h
  | cons phase rest ih =>
    have hphase := h.runPhase phase delta
    unfold Scheduler.runPhases
    split
    · next heq => rwa [heq] at hphase
    · next heq =>
      rw [heq] at hphase
      exact ih hphase

theorem progress (h : Underway s w) (delta : UInt32) :
    Underway (s.progress w delta).2.1 (s.progress w delta).2.2 := by
  have hphases := (h.turn true s.frame).runPhases
    ((if s.started then [] else [Phase.onStart]) ++ s.pipeline.phases) delta
  unfold Scheduler.progress
  simp only
  split
  · next heq => rwa [heq] at hphases
  · next heq =>
    rw [heq] at hphases
    exact hphases.turn _ _

theorem consistent (h : Underway s w) : Consistent s := by
  induction h with
  | new config pipeline => exact consistent_new config pipeline
  | call c _ ih => exact ih.call c
  | perform op _ ih => exact ih
  | turn started frame _ ih => exact ih.like ⟨rfl, rfl, rfl, rfl, rfl⟩
  | @system s w delta i _ ih => exact ih.like (s.like_runSystem w delta i)

theorem numbered (h : Underway s w) : w.storage.Numbered := by
  induction h with
  | new config pipeline => exact World.WellFormed.new.storage.numbered
  | call c _ ih => exact ih
  | @perform s w op _ ih =>
    by_cases hop : op = .shutdown
    · obtain ⟨heard, heq⟩ := w.shutdown_eq
      rw [hop, World.perform, heq]
      exact World.WellFormed.new.storage.numbered
    · exact (World.perform_keeps w hop ih).1
  | turn started frame _ ih => exact ih
  | @system s w delta i _ ih =>
    rw [runSystem_eq]
    split
    · exact ih
    · exact Task.numbered_finish _ ih

end Underway

/-! ### Confluence -/

/-- Systems at the given positions may run in any order. -/
structure Confluent (s : Scheduler Note) (w : World) (delta : UInt32) (is : List Nat) :
    Prop where
  serial : (runSystems delta s w is).1 =
      (inTurn (s.tasks delta s.numberOf is) w).1.filterMap Task.output? ∧
    (runSystems delta s w is).2.2 = (inTurn (s.tasks delta s.numberOf is) w).2
  ends : ∀ number, ∃ n, ∀ order : List Nat,
    (∀ k < (s.participants is).length, n ≤ order.count k) →
    ∀ t ∈ (interleave order (s.tasks delta number is, w)).1, t.Finished
  /-- When all have ended, each one has seen and done what it would if they ran one after another,
  and the world is the same but for the record of hook calls. -/
  same : ∀ number order,
    (∀ t ∈ (interleave order (s.tasks delta number is, w)).1, t.Finished) →
    (interleave order (s.tasks delta number is, w)).1 = (inTurn (s.tasks delta number is) w).1 ∧
      { (interleave order (s.tasks delta number is, w)).2 with
        events := (inTurn (s.tasks delta number is) w).2.events } =
        (inTurn (s.tasks delta number is) w).2
  renumbered : ∀ (number : Nat → UInt32) (f : Nat → UInt32 → UInt32),
    (∀ k sys, (s.participants is)[k]? = some sys →
      Action.Alike (number k) (f k) sys.body sys.body) →
    inTurn (s.tasks delta (fun k => f k (number k)) is) w =
      ((inTurn (s.tasks delta number is) w).1.mapIdx fun k t => t.rename (f k),
        (inTurn (s.tasks delta number is) w).2)

/-- The systems of a parallel stage may run in any order. -/
theorem Underway.confluent {phase : Phase} (h : Underway s w)
    (his : .parallel is ∈ s.stages phase) (delta : UInt32) : Confluent s w delta is := by
  have hplan := PhasePlan.Sound.of_build (h.consistent.fresh phase)
  have hlength (number : Nat → UInt32) :
      (s.tasks delta number is).length = (s.participants is).length := List.length_mapIdx
  refine ⟨runSystems_eq delta ((List.nodup_flatMap.1 hplan.once).1 _ his) s w, fun number => ?_,
    fun number order => interleave_eq_inTurn (independent_tasks hplan his delta number) h.numbered,
    fun number f => inTurn_renumber f number delta s.frame _ w⟩
  rw [← hlength number]
  exact exists_finished (independent_tasks hplan his delta number) h.numbered

/-- Spawn an entity with a component, and copy the value of another one of the first row to it. -/
def copying (source target : TypeHandle) : SystemBody Unit :=
  .ask .spawn fun token =>
    .ask (.record (.add (.pending token) (Id.component target))) fun _ =>
      .ask .rows fun rows =>
        match rows with
        | [] => .done (.ok ())
        | r :: _ => .ask (.get r source .u32) fun v =>
          match v with
          | .error err => .done (.error err)
          | .ok v => .ask (.set r target .u32 v) .done

theorem alike_copying (m : UInt32) (f : UInt32 → UInt32) (source target : TypeHandle) :
    Action.Alike m f (copying source target) (copying source target) := by
  refine .spawn fun i => .record (.add (.pending ⟨m, i⟩) _) ?_
  refine .ask (q := .rows) trivial fun rows => ?_
  cases rows with
  | nil => exact .done _
  | cons r _ =>
    refine .ask (q := .get r source .u32) trivial fun v => ?_
    cases v with
    | error err => exact .done _
    | ok v => exact .ask (q := .set r target .u32 v) trivial .done

def desk : World :=
  World.new.run [.registerType (.plain .u32 "Game.Left"), .registerType (.plain .u32 "Game.Right"),
    .registerType (.plain .u32 "Game.Source"), .spawn,
    .edit (.write ⟨0, 0⟩ ⟨1⟩ .u32 (.ofNat 4 1)), .edit (.write ⟨0, 0⟩ ⟨2⟩ .u32 (.ofNat 4 2)),
    .edit (.write ⟨0, 0⟩ ⟨3⟩ .u32 (.ofNat 4 7))]

def copier (name : String) (target : TypeHandle) : SystemBuilder Unit :=
  { name, terms := [.read ⟨3⟩, .write target], parallelSafe := true,
    body := some (copying ⟨3⟩ target) }

def copiers : Scheduler Unit :=
  ((new {} .standard).call (.register desk (copier "left" ⟨1⟩))).call
    (.register desk (copier "right" ⟨2⟩))

theorem underway_copiers : Underway copiers desk :=
  (((Underway.new {} .standard).run _).call _).call _

/-- The systems take turns, and the second one has the earlier command buffer. -/
theorem confluent_copiers :
    Underway copiers desk ∧ copiers.stages .onUpdate = [.parallel [0, 1]] ∧
    (∀ t ∈ (interleave [1, 0, 0, 1, 1, 0, 0, 1, 1, 0]
      (copiers.tasks 0 (fun k => 9 - .ofNat k) [0, 1], desk)).1, t.Finished) ∧
    (∀ m f target, Action.Alike m f (copying ⟨3⟩ target) (copying ⟨3⟩ target)) ∧
    Confluent copiers desk 0 [0, 1] :=
  ⟨underway_copiers, by decide +kernel, by decide +kernel,
    fun m f target => alike_copying m f ⟨3⟩ target,
    underway_copiers.confluent (by decide +kernel : .parallel [0, 1] ∈ copiers.stages .onUpdate) 0⟩

end Scheduler

end EntityWorld
