import EntityWorld.Proofs.Schedule.Upkeep
import EntityWorld.Proofs.World.Survival
set_option autoImplicit false

/-!
Who ends an entity while systems run. A system ends nobody by itself: it can only record a command
for it. So a phase after which no command was applied has left everyone alive, and only a phase
that is not there fails.
-/
namespace EntityWorld

variable {Note : Type}

namespace World.Furnishing

variable {R : World → World → Prop} (h : Furnishing R)
include h

theorem rowGet (w : World) (r : Row) (k : TypeHandle) (t : HostType) : R w (w.rowGet r k t).2 := by
  have hcopy := h.copyOut w k t (w.rowPeek r (Id.component k))
  unfold World.rowGet
  rw [rowTryGet_eq]
  split <;>
  · next hr =>
    rw [hr] at hcopy
    exact hcopy

theorem build (w : World) (r : Recipe) : R w (w.build r).2 := by
  cases r with
  | typed k t v => exact h.refl w
  | bytes k bs => exact h.refl w
  | default k =>
    unfold World.build
    simp only
    split
    · exact h.events w _
    · exact h.refl w
  | filled k bs =>
    unfold World.build
    simp only
    split <;> exact h.refl w

theorem guarded {α : Type} (st : RunState Note) (w : World) (r : Row) (allowed : Bool)
    (k : TypeHandle) (act : World → Except EcsError α × World) (hact : R w (act w).2) :
    R w (st.guarded w r allowed k act).2 := by
  unfold RunState.guarded
  split
  · exact h.refl w
  · split
    · exact hact
    · exact h.refl w

theorem answer (facts : SystemFacts) (st : RunState Note) (w : World) (q : Request) :
    R w (st.perform facts w q).2.2 := by
  cases q with
  | get r k t => exact h.guarded st w r _ k (fun w => w.rowGet r k t) (h.rowGet w r k t)
  | tryGet r k t => exact h.guarded st w r _ k (fun w => w.rowTryGet r k t) (h.copyOut w k t _)
  | value r id =>
    exact h.guarded st w r _ _ (fun w => (.ok (w.rowValue r id).1, (w.rowValue r id).2))
      (h.valueOut w id _)
  | set r k t v => exact h.guarded st w r _ k (fun w => w.rowSet r k t v) (h.rowSet w r k t v)
  | read e k t =>
    unfold RunState.perform
    simp only
    split
    · exact h.read w e k t
    · exact h.refl w
  | build r => exact h.build w r
  | discard v => exact h.events w _
  | facts | registry | rows | has | target | spawn | record | pending => exact h.refl w

theorem action {α : Type} (facts : SystemFacts) (a : Action Note α) (st : RunState Note)
    (w : World) : R w (a.run facts st w).2.2 := by
  induction a generalizing st w with
  | done a => exact h.refl w
  | ask q next ih => exact h.trans (h.answer facts st w q) (ih _ _ _)
  | tell n next ih => exact ih _ _

theorem runSystem (s : Scheduler Note) (w : World) (delta : UInt32) (i : Nat) :
    R w (s.runSystem w delta i).2.2 := by
  unfold Scheduler.runSystem
  split
  · exact h.refl w
  · next sys _ =>
    split
    · exact h.action _ sys.body _ w
    · exact h.refl w

theorem runSystems (delta : UInt32) (is : List Nat) (s : Scheduler Note) (w : World) :
    R w (Scheduler.runSystems delta s w is).2.2 := by
  induction is generalizing s w with
  | nil => exact h.refl w
  | cons i rest ih => exact h.trans (h.runSystem s w delta i) (ih _ _)

end World.Furnishing

namespace Scheduler

open World (furnishing_losesNone)

variable {s s' : Scheduler Note} {w v : World} {phase : Phase}

theorem losesNone_settle (outputs : List (SystemOutput Note)) {w : World}
    {report : PhaseReport Note} (hnone : (settle w report outputs).1.commands.applied = 0) :
    report.commands.applied = 0 ∧ w.LosesNone (settle w report outputs).2 := by
  induction outputs generalizing w report with
  | nil => exact ⟨hnone, furnishing_losesNone.refl w⟩
  | cons out rest ih =>
    unfold settle at hnone ⊢
    simp only at hnone ⊢
    split at hnone
    · next hempty =>
      rw [if_pos hempty]
      exact ih hnone
    · next hempty =>
      rw [if_neg hempty]
      obtain ⟨hsum, hrest⟩ := ih hnone
      obtain ⟨hreport, hout⟩ := Nat.add_eq_zero_iff.1 hsum
      exact ⟨hreport, furnishing_losesNone.trans
        (World.losesNone_applyAll out.commands.id out.commands.commands hout) hrest⟩

theorem losesNone_runPhase {delta : UInt32} {report : PhaseReport Note}
    (hr : s.runPhase w phase delta = (.ok report, s', v)) (hnone : report.commands.applied = 0) :
    w.LosesNone v := by
  unfold runPhase at hr
  split at hr
  · cases (Prod.mk.inj hr).1
  · split at hr
    · obtain ⟨-, -, rfl⟩ := (Prod.mk.inj hr).imp_right Prod.mk.inj
      exact furnishing_losesNone.refl w
    · next plan _ =>
      simp only at hr
      obtain ⟨hreport, -, rfl⟩ := (Prod.mk.inj hr).imp_right Prod.mk.inj
      rw [← Except.ok.inj hreport] at hnone
      exact furnishing_losesNone.trans (furnishing_losesNone.runSystems delta _ s w)
        (losesNone_settle _ hnone).2

theorem runPhase_error {delta : UInt32} {err : ScheduleError}
    (hr : s.runPhase w phase delta = (.error err, s', v)) :
    s.pipeline.contains phase = false ∧ v = w := by
  unfold runPhase at hr
  split at hr
  · next hphase =>
    obtain ⟨-, -, rfl⟩ := (Prod.mk.inj hr).imp_right Prod.mk.inj
    exact ⟨Bool.not_eq_true' _ ▸ hphase, rfl⟩
  · split at hr
    · cases (Prod.mk.inj hr).1
    · cases (Prod.mk.inj hr).1

theorem exists_runPhases_eq_ok (delta : UInt32) (phases : List Phase) (s : Scheduler Note)
    (w : World) (h : ∀ phase ∈ phases, s.pipeline.contains phase = true) :
    ∃ reports, (runPhases delta s w phases).1 = .ok reports := by
  induction phases generalizing s w with
  | nil => exact ⟨[], rfl⟩
  | cons phase rest ih =>
    have hlike := s.like_runPhase w phase delta
    unfold runPhases
    split
    · next hr =>
      obtain ⟨hphase, -⟩ := runPhase_error hr
      rw [h phase List.mem_cons_self] at hphase
      cases hphase
    · next report s' v hr =>
      rw [hr] at hlike
      have hrest : ∀ p ∈ rest, s'.pipeline.contains p = true := by
        intro p hp
        rw [hlike.pipeline]
        exact h p (List.mem_cons_of_mem phase hp)
      obtain ⟨reports, hreports⟩ := ih s' v hrest
      exact ⟨report :: reports, congrArg (Except.map (report :: ·)) hreports⟩

theorem exists_progress_eq_ok (s : Scheduler Note) (w : World) (delta : UInt32) :
    ∃ report, (s.progress w delta).1 = .ok report := by
  have hphases : ∀ phase ∈ (if s.started then [] else [Phase.onStart]) ++ s.pipeline.phases,
      s.pipeline.contains phase = true := by
    intro phase hphase
    obtain hstart | hphase := List.mem_append.1 hphase
    · split at hstart
      · cases hstart
      · obtain rfl := List.mem_singleton.1 hstart
        rfl
    · simp [Pipeline.contains, hphase]
  obtain ⟨reports, hreports⟩ :=
    exists_runPhases_eq_ok delta _ { s with started := true } w hphases
  unfold progress
  simp only
  split
  · next hr =>
    rw [hr] at hreports
    cases hreports
  · exact ⟨_, rfl⟩

end Scheduler
end EntityWorld
