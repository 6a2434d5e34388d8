import EntityWorld.Proofs.Schedule.Confluence
set_option autoImplicit false

/-!
How a plan is executed. Stage after stage, the systems of a stage take turns in any order until all
of them have ended. To run them one after another is one way of executing the plan, and the one that
reports are made from.
-/
namespace EntityWorld

variable {Note : Type}

structure Slice where
  system : Nat
  world : World

def slices (is : List Nat) : List Nat → List (Task Note) × World → List Slice
  | [], _ => []
  | k :: order, x => ((is[k]?).map fun i => ⟨i, x.2⟩).toList ++ slices is order (stepAt x k)

theorem length_interleave (order : List Nat) (x : List (Task Note) × World) :
    (interleave order x).1.length = x.1.length := by
  induction order generalizing x with
  | nil => rfl
  | cons k order ih =>
    refine (ih (stepAt x k)).trans ?_
    unfold stepAt
    split
    · exact List.length_set
    · rfl

theorem inTurn_append (first second : List (Task Note)) (w : World) :
    inTurn (first ++ second) w =
      ((inTurn first w).1 ++ (inTurn second (inTurn first w).2).1,
        (inTurn second (inTurn first w).2).2) := by
  induction first generalizing w with
  | nil => rfl
  | cons t rest ih => simp only [List.cons_append, inTurn, ih]

def SystemOutput.failures (out : SystemOutput Note) : List SystemFailure :=
  match out.result with
  | .ok _ => []
  | .error e => [⟨out.system, e⟩]

def SystemOutput.told (out : SystemOutput Note) : List (String × Note) :=
  out.notes.map fun n => (out.system, n)

def World.applyBuffers (w : World) (buffers : List CommandBuffer) : World :=
  buffers.foldl (fun w b => (w.applyCommands b).2) w

namespace Scheduler

variable {s : Scheduler Note} {w v : World} {delta : UInt32} {is : List Nat}

def lineup (s : Scheduler Note) (is : List Nat) : List (Nat × System Note) :=
  is.filterMap fun i => ((s.systems[i]?).filter s.eligible).map fun sys => (i, sys)

theorem map_snd_lineup (s : Scheduler Note) (is : List Nat) :
    (s.lineup is).map Prod.snd = s.participants is := by
  rw [lineup, List.map_filterMap, participants]
  exact List.filterMap_congr fun i _ => by rw [Option.map_map]; exact Option.map_id'

theorem mem_lineup {x : Nat × System Note} :
    x ∈ s.lineup is ↔ x.1 ∈ is ∧ s.systems[x.1]? = some x.2 ∧ s.eligible x.2 = true := by
  simp only [lineup, List.mem_filterMap, Option.map_eq_some_iff, Option.filter_eq_some_iff]
  constructor
  · intro hx
    obtain ⟨i, hi, sys, hsys, rfl⟩ := hx
    exact ⟨hi, hsys⟩
  · intro hx
    exact ⟨x.1, hx.1, x.2, hx.2, rfl⟩

theorem length_tasks (s : Scheduler Note) (delta : UInt32) (number : Nat → UInt32)
    (is : List Nat) : (s.tasks delta number is).length = (s.lineup is).length := by
  rw [tasks, List.length_mapIdx, ← map_snd_lineup, List.length_map]

theorem tasks_append (s : Scheduler Note) (delta : UInt32) (number : Nat → UInt32)
    (first second : List Nat) : s.tasks delta number (first ++ second) =
      s.tasks delta number first ++
        s.tasks delta (fun k => number (k + (s.participants first).length)) second := by
  rw [tasks, participants, List.filterMap_append, List.mapIdx_append]
  rfl

/-- The stages are executed one after another. The systems of a stage, with command buffers of any
numbers, take turns until all of them have ended. -/
inductive Played (s : Scheduler Note) (delta : UInt32) :
    World → List Stage → List Slice → List (Nat × Task Note) → World → Prop where
  | done (w : World) : Played s delta w [] [] [] w
  | stage {w v : World} {stage : Stage} {rest : List Stage} {later : List Slice}
      {ended : List (Nat × Task Note)} (order : List Nat) (number : Nat → UInt32)
      (hend : ∀ t ∈ (interleave order (s.tasks delta number stage.systems, w)).1, t.Finished)
      (hrest : Played s delta (interleave order (s.tasks delta number stage.systems, w)).2 rest
        later ended v) :
      Played s delta w (stage :: rest)
        (slices ((s.lineup stage.systems).map Prod.fst) order
          (s.tasks delta number stage.systems, w) ++ later)
        (((s.lineup stage.systems).map Prod.fst).zip
          (interleave order (s.tasks delta number stage.systems, w)).1 ++ ended) v

variable {stages : List Stage} {order : List Slice} {ended : List (Nat × Task Note)}

theorem Played.map_fst (h : Played s delta w stages order ended v) :
    ended.map Prod.fst = (s.lineup (stages.flatMap Stage.systems)).map Prod.fst := by
  induction h with
  | done w => rfl
  | @stage w v stage rest later ended order number _ _ ih =>
    have hlength : ((s.lineup stage.systems).map Prod.fst).length ≤
        (interleave order (s.tasks delta number stage.systems, w)).1.length := by
      rw [length_interleave, length_tasks, List.length_map]
    rw [List.map_append, List.map_fst_zip hlength, ih, List.flatMap_cons, lineup,
      lineup, lineup, List.filterMap_append, List.map_append]

theorem Played.finished (h : Played s delta w stages order ended v) :
    ∀ x ∈ ended, x.2.Finished := by
  induction h with
  | done w => exact fun x hx => absurd hx List.not_mem_nil
  | stage order number hend _ ih =>
    intro x hx
    obtain hx | hx := List.mem_append.1 hx
    · exact hend x.2 (List.of_mem_zip hx).2
    · exact ih x hx

theorem exists_played_inTurn (stages : List Stage) (number : Nat → UInt32) (w : World) :
    ∃ order ended, Played s delta w stages order ended
        (inTurn (s.tasks delta number (stages.flatMap Stage.systems)) w).2 ∧
      ended.map Prod.snd = (inTurn (s.tasks delta number (stages.flatMap Stage.systems)) w).1 := by
  induction stages generalizing number w with
  | nil => exact ⟨[], [], .done w, rfl⟩
  | cons stage rest ih =>
    obtain ⟨order, horder⟩ := exists_interleave_eq_inTurn (s.tasks delta number stage.systems) w
    have hend := finished_inTurn (s.tasks delta number stage.systems) w
    have hlength : (interleave order (s.tasks delta number stage.systems, w)).1.length ≤
        ((s.lineup stage.systems).map Prod.fst).length := by
      rw [length_interleave, length_tasks, List.length_map]
    rw [← horder] at hend
    obtain ⟨later, ended, hrest, hended⟩ := ih
      (fun k => number (k + (s.participants stage.systems).length))
      (interleave order (s.tasks delta number stage.systems, w)).2
    rw [List.flatMap_cons, tasks_append, inTurn_append, ← horder]
    refine ⟨_, _, .stage order number hend hrest, ?_⟩
    rw [List.map_append, List.map_snd_zip hlength, hended]

def afterAll (s : Scheduler Note) (ended : List (Nat × Task Note)) : Scheduler Note :=
  ended.foldl (fun s x => s.after x.1 x.2) s

theorem lineup_after {i : Nat} (hi : i ∉ is) (t : Task Note) :
    (s.after i t).lineup is = s.lineup is := by
  refine List.filterMap_congr fun j hj => ?_
  have hij : i ≠ j := fun h => hi (h ▸ hj)
  have hsame : (s.after i t).systems[j]? = s.systems[j]? := by
    rw [after, List.getElem?_modify]
    simp [hij]
  rw [hsame]
  rfl

theorem runSystems_scheduler (delta : UInt32) (his : is.Nodup) (s : Scheduler Note) (w : World) :
    (runSystems delta s w is).2.1 = s.afterAll (((s.lineup is).map Prod.fst).zip
      (inTurn ((s.lineup is).map Prod.snd |>.mapIdx fun k sys =>
        sys.task delta s.frame (s.numberOf k)) w).1) := by
  induction is generalizing s w with
  | nil => rfl
  | cons i rest ih =>
    obtain ⟨hi, hrest⟩ := List.nodup_cons.1 his
    have hrun := s.runSystem_eq w delta i
    cases hsys : (s.systems[i]?).filter s.eligible with
    | none =>
      have hlineup : s.lineup (i :: rest) = s.lineup rest := by
        rw [lineup, List.filterMap_cons, hsys]
        rfl
      simp only [hsys] at hrun
      rw [runSystems, hrun, hlineup]
      exact ih hrest s w
    | some sys =>
      have hlineup : s.lineup (i :: rest) = (i, sys) :: s.lineup rest := by
        rw [lineup, List.filterMap_cons, hsys]
        rfl
      have hfirst : s.numberOf 0 = s.nextBuffer := UInt32.add_zero _
      simp only [hsys] at hrun
      rw [runSystems, hrun, hlineup]
      simp only [List.map_cons, List.mapIdx_cons, inTurn, hfirst, List.zip_cons_cons]
      refine (ih hrest _ _).trans ?_
      simp only [lineup_after hi, numberOf_after]
      rfl

theorem exists_played (hstages : (stages.flatMap Stage.systems).Nodup) (s : Scheduler Note)
    (w : World) (delta : UInt32) : ∃ order ended,
      Played s delta w stages order ended
        (runSystems delta s w (stages.flatMap Stage.systems)).2.2 ∧
      (runSystems delta s w (stages.flatMap Stage.systems)).1 =
        (ended.filterMap fun x => x.2.output?) ∧
      (runSystems delta s w (stages.flatMap Stage.systems)).2.1 = s.afterAll ended := by
  obtain ⟨houtputs, hworld⟩ := runSystems_eq delta hstages s w
  obtain ⟨order, ended, hplayed, hended⟩ := exists_played_inTurn stages s.numberOf w
  refine ⟨order, ended, hworld ▸ hplayed, ?_, ?_⟩
  · rw [houtputs, ← hended, List.filterMap_map]
    rfl
  · rw [runSystems_scheduler delta hstages s w, map_snd_lineup]
    exact congrArg s.afterAll (List.zip_of_prod hplayed.map_fst hended).symm

/-! ### Phases -/

theorem applyCommands_of_isEmpty {b : CommandBuffer} (h : b.isEmpty = true) (w : World) :
    (w.applyCommands b).2 = w := by
  rw [CommandBuffer.isEmpty, List.isEmpty_iff] at h
  rw [World.applyCommands, h]
  rfl

theorem settle_snd (w : World) (report : PhaseReport Note) (outputs : List (SystemOutput Note)) :
    (settle w report outputs).2 = w.applyBuffers (outputs.map SystemOutput.commands) := by
  induction outputs generalizing w report with
  | nil => rfl
  | cons out rest ih =>
    simp only [settle]
    split
    · next hempty =>
      rw [ih, World.applyBuffers, World.applyBuffers, List.map_cons, List.foldl_cons,
        applyCommands_of_isEmpty hempty]
    · exact ih _ _

theorem phase_settle (w : World) (report : PhaseReport Note) (outputs : List (SystemOutput Note)) :
    (settle w report outputs).1.phase = report.phase := by
  induction outputs generalizing w report with
  | nil => rfl
  | cons out rest ih =>
    simp only [settle]
    split <;> exact ih _ _

theorem commands_of_finished {ended : List (Nat × Task Note)} (h : ∀ x ∈ ended, x.2.Finished) :
    (ended.filterMap fun x => x.2.output?).map SystemOutput.commands =
      ended.map fun x => x.2.state.buffer := by
  induction ended with
  | nil => rfl
  | cons x rest ih =>
    obtain ⟨result, hdone⟩ := h x List.mem_cons_self
    have hout : x.2.output? = some ⟨x.2.facts.name, result, x.2.state.buffer, x.2.state.notes⟩ := by
      rw [Task.output?, hdone]
    simp only [List.filterMap_cons, hout, List.map_cons,
      ih fun y hy => h y (List.mem_cons_of_mem x hy)]

theorem settle_of_silent {outputs : List (SystemOutput Note)}
    (h : ∀ out ∈ outputs, out.commands.isEmpty = true) (w : World) (report : PhaseReport Note) :
    settle w report outputs = ({ report with
      failures := report.failures ++ outputs.flatMap SystemOutput.failures
      notes := report.notes ++ outputs.flatMap SystemOutput.told }, w) := by
  induction outputs generalizing report with
  | nil => simp only [settle, List.flatMap_nil, List.append_nil]
  | cons out rest ih =>
    have hrest := ih (fun o ho => h o (List.mem_cons_of_mem out ho)) { report with
      failures := report.failures ++ out.failures, notes := report.notes ++ out.told }
    rw [settle, if_pos (h out List.mem_cons_self)]
    refine hrest.trans ?_
    simp only [List.flatMap_cons, List.append_assoc]

theorem runPhase_eq {phase : Phase} (hphase : s.pipeline.contains phase = true) (w : World)
    (delta : UInt32) : s.runPhase w phase delta =
      let run := runSystems delta s w ((s.stages phase).flatMap Stage.systems)
      let settled := settle run.2.2 { PhaseReport.empty phase with
        systemsRun := run.1.length, stages := (s.stages phase).length } run.1
      (.ok settled.1, run.2.1, settled.2) := by
  unfold runPhase
  rw [hphase, Bool.not_true, if_neg Bool.false_ne_true]
  cases hplan : s.plans.get? phase with
  | none =>
    have hstages : s.stages phase = [] := by rw [stages, hplan]
    rw [hstages]
    rfl
  | some plan =>
    have hstages : s.stages phase = plan.stages := by rw [stages, hplan]
    rw [hstages]

end Scheduler
end EntityWorld
