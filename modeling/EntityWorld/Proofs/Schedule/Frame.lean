import EntityWorld.Proofs.Schedule.Execution
import EntityWorld.Proofs.World.Agreement
set_option autoImplicit false

/-!
The course of a frame. Its phases come one after another. While the systems of a phase take turns no
row moves, and when the last of them has ended, the commands of all of them are applied in the order
of the plan before the next phase begins.
-/
namespace EntityWorld

variable {Note : Type}

structure PhaseRun (Note : Type) where
  phase : Phase
  entered : World
  slices : List Slice
  ended : List (Nat × Task Note)
  left : World

def PhaseRun.committed (r : PhaseRun Note) : World :=
  r.left.applyBuffers (r.ended.map fun x => x.2.state.buffer)

/-- The system as it is apart from what its query remembers. -/
def System.steady (sys : System Note) : System Note := { sys with query := ⟨[], [], [], 0⟩ }

namespace Scheduler

variable {s s' s'' : Scheduler Note} {w v : World} {delta : UInt32} {phase : Phase}
  {phases : List Phase} {runs : List (PhaseRun Note)} {i : Nat}

/-! ### What runs change of a scheduler -/

/-- The second scheduler is the first one after runs of systems. -/
structure Ran (s s' : Scheduler Note) : Prop where
  rest : s' = { s with systems := s'.systems, nextBuffer := s'.nextBuffer }
  systems : s'.systems.map System.steady = s.systems.map System.steady

namespace Ran

theorem refl (s : Scheduler Note) : Ran s s := ⟨rfl, rfl⟩

theorem trans (h : Ran s s') (h' : Ran s' s'') : Ran s s'' := by
  refine ⟨h'.rest.trans ?_, h'.systems.trans h.systems⟩
  rw [h.rest]

theorem after (s : Scheduler Note) (i : Nat) (t : Task Note) : Ran s (s.after i t) :=
  ⟨rfl, map_modify _ _ fun _ _ => rfl⟩

theorem afterAll (s : Scheduler Note) (ended : List (Nat × Task Note)) :
    Ran s (s.afterAll ended) := by
  induction ended generalizing s with
  | nil => exact .refl s
  | cons x rest ih => exact (after s x.1 x.2).trans (ih _)

theorem pipeline (h : Ran s s') : s'.pipeline = s.pipeline := by rw [h.rest]

theorem started (h : Ran s s') : s'.started = s.started := by rw [h.rest]

theorem stages (h : Ran s s') : s'.stages = s.stages := by
  rw [h.rest]
  rfl

theorem eligible (h : Ran s s') {a b : System Note} (hab : a.steady = b.steady) :
    s'.eligible a = s.eligible b := by
  rw [h.rest]
  change (a.steady.enabled && (!s.paused || a.steady.runWhenPaused)) = _
  rw [hab]
  rfl

theorem takesPart_iff (h : Ran s s') :
    (∃ sys, s'.systems[i]? = some sys ∧ sys.phase = phase ∧ s'.eligible sys = true) ↔
      ∃ sys, s.systems[i]? = some sys ∧ sys.phase = phase ∧ s.eligible sys = true := by
  have hsteady := congrArg (fun l : List (System Note) => l[i]?) h.systems
  simp only [List.getElem?_map] at hsteady
  constructor
  · intro hex
    obtain ⟨sys, hsys, hphase, htakes⟩ := hex
    rw [hsys, Option.map_some, eq_comm, Option.map_eq_some_iff] at hsteady
    obtain ⟨old, hold, heq⟩ := hsteady
    exact ⟨old, hold, (congrArg System.phase heq).trans hphase,
      (h.eligible heq.symm).symm.trans htakes⟩
  · intro hex
    obtain ⟨sys, hsys, hphase, htakes⟩ := hex
    rw [hsys, Option.map_some, Option.map_eq_some_iff] at hsteady
    obtain ⟨new, hnew, heq⟩ := hsteady
    exact ⟨new, hnew, (congrArg System.phase heq).trans hphase, (h.eligible heq).trans htakes⟩

theorem constraints (h : Ran s s') :
    s'.systems.map System.constraints = s.systems.map System.constraints := by
  have hmap := congrArg (List.map System.constraints) h.systems
  rwa [List.map_map, List.map_map] at hmap

end Ran

/-- The plan of every phase is the one that its systems have now. -/
def Fresh (s : Scheduler Note) : Prop :=
  ∀ phase, PhasePlan.build s.systems s.config.parallel phase =
    .ok ⟨s.stages phase, s.diagnostics phase⟩

theorem Fresh.ran (h : Fresh s) (hr : Ran s s') : Fresh s' := by
  intro phase
  have houtline : s'.systems.map System.outline = s.systems.map System.outline := by
    have hmap := congrArg (List.map System.outline) hr.systems
    rwa [List.map_map, List.map_map] at hmap
  have hconfig : s'.config = s.config := by rw [hr.rest]
  have hdiagnostics : s'.diagnostics = s.diagnostics := by
    rw [hr.rest]
    rfl
  rw [PhasePlan.build_of_outline houtline, hconfig, hr.stages, hdiagnostics]
  exact h phase

/-! ### Frames -/

/-- Phases are run one after another, each of them by executing its plan in some way. -/
inductive Framed (delta : UInt32) : Scheduler Note → World → List Phase → List (PhaseRun Note) →
    Scheduler Note → World → Prop where
  | done (s : Scheduler Note) (w : World) : Framed delta s w [] [] s w
  | phase {s s' : Scheduler Note} {w v : World} {rest : List Phase} {runs : List (PhaseRun Note)}
      (r : PhaseRun Note)
      (hplayed : Played s delta r.entered (s.stages r.phase) r.slices r.ended r.left)
      (hrest : Framed delta (s.afterAll r.ended) r.committed rest runs s' v) (hw : r.entered = w) :
      Framed delta s w (r.phase :: rest) (r :: runs) s' v

theorem Framed.ran (h : Framed delta s w phases runs s' v) : Ran s s' := by
  induction h with
  | done s w => exact .refl s
  | phase r _ _ _ ih => exact (Ran.afterAll _ r.ended).trans ih

theorem exists_framed (hs : Fresh s) (hphases : ∀ phase ∈ phases, s.pipeline.contains phase = true)
    (w : World) (delta : UInt32) : ∃ reports runs s' v,
      runPhases delta s w phases = (.ok reports, s', v) ∧ Framed delta s w phases runs s' v ∧
        reports.map PhaseReport.phase = phases := by
  induction phases generalizing s w with
  | nil => exact ⟨[], [], s, w, rfl, .done s w, rfl⟩
  | cons phase rest ih =>
    have hplan := PhasePlan.Sound.of_build (hs phase)
    obtain ⟨order, ended, hplayed, houtputs, hscheduler⟩ := exists_played hplan.once s w delta
    obtain ⟨report, v, hrun, hreport, hworld⟩ : ∃ report v, s.runPhase w phase delta =
        (.ok report, s.afterAll ended, v) ∧ report.phase = phase ∧
        v = (runSystems delta s w ((s.stages phase).flatMap Stage.systems)).2.2.applyBuffers
          (ended.map fun x => x.2.state.buffer) := by
      have heq := runPhase_eq (hphases phase List.mem_cons_self) w delta
      simp only [houtputs, hscheduler] at heq
      refine ⟨_, _, heq, phase_settle _ _ _, ?_⟩
      rw [settle_snd, commands_of_finished hplayed.finished]
    have hran := Ran.afterAll s ended
    obtain ⟨reports, runs, s', v', hruns, hframed, hall⟩ := ih (hs.ran hran)
      (fun p hp => hran.pipeline ▸ hphases p (List.mem_cons_of_mem phase hp)) v
    refine ⟨report :: reports, ⟨phase, w, order, ended, _⟩ :: runs, s', v', ?_,
      .phase ⟨phase, w, order, ended, _⟩ hplayed ?_ rfl, by rw [List.map_cons, hreport, hall]⟩
    · rw [runPhases, hrun]
      simp only [hruns]
      rfl
    · rw [hworld] at hframed
      exact hframed

def framePhases (s : Scheduler Note) : List Phase :=
  (if s.started then [] else [Phase.onStart]) ++ s.pipeline.phases

theorem exists_progress (hs : Fresh s) (w : World) (delta : UInt32) : ∃ reports runs s' v,
    s.progress w delta = (.ok ⟨s.frame, reports⟩, { s' with frame := s.frame + 1 }, v) ∧
      Framed delta { s with started := true } w s.framePhases runs s' v ∧
      reports.map PhaseReport.phase = s.framePhases := by
  have hphases : ∀ phase ∈ s.framePhases, s.pipeline.contains phase = true := by
    intro phase hphase
    rw [Pipeline.contains, Bool.or_eq_true, beq_iff_eq, List.contains_iff_mem]
    obtain hphase | hphase := List.mem_append.1 hphase
    · split at hphase
      · cases hphase
      · exact .inl (List.mem_singleton.1 hphase)
    · exact .inr hphase
  have hstarted : Fresh { s with started := true } := hs
  obtain ⟨reports, runs, s', v, hruns, hframed, hreports⟩ := exists_framed hstarted hphases w delta
  have hframe : s'.frame = s.frame := by rw [hframed.ran.rest]
  refine ⟨reports, runs, s', v, ?_, hframed, hreports⟩
  unfold progress
  rw [framePhases] at hruns
  simp only [hruns, hframe]

end Scheduler
end EntityWorld
