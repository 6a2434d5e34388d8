import EntityWorld.Proofs.Query.Cache
import EntityWorld.Proofs.Schedule.Changes
import EntityWorld.Proofs.Schedule.Registration
import EntityWorld.Schedule.Run
set_option autoImplicit false

/-!
Plans are kept up to date. Whatever is registered, removed, switched and run, the plan that is kept
for a phase is the one that its systems have now.
-/
namespace EntityWorld

variable {Note : Type}

/-! ### A run changes no terms -/

namespace Query

theorem source_refresh (q : Query) (w : World) : (q.refresh w).source = q.source := by
  unfold refresh
  simp only
  split
  · rfl
  · split <;> rfl

theorem source_rows (q : Query) (w : World) : (q.rows w).1.source = q.source := by
  obtain h | h := q.use_cases w .rows
  · exact congrArg Query.source h
  · exact (congrArg Query.source h).trans (q.source_refresh w)

end Query

theorem RunState.source_perform (facts : SystemFacts) (st : RunState Note) (w : World)
    (q : Request) : (st.perform facts w q).2.1.query.source = st.query.source := by
  cases q with
  | rows => exact st.query.source_rows w
  | read e h t =>
    unfold perform
    simp only
    split <;> rfl
  | facts | registry | get | tryGet | value | has | target | set | build | discard | spawn | record
  | pending => rfl

theorem Action.source_run {α : Type} (facts : SystemFacts) (a : Action Note α)
    (st : RunState Note) (w : World) : (a.run facts st w).2.1.query.source = st.query.source := by
  induction a generalizing st w with
  | done a => rfl
  | ask q next ih => exact (ih _ _ _).trans (st.source_perform facts w q)
  | tell n next ih => exact ih _ _

/-- What a system keeps as long as it is registered, but for constraints on systems that go. -/
def System.fixed (s : System Note) : Outline × TermList := (s.outline, s.query.source)

namespace Scheduler

variable {s s' : Scheduler Note} {issued : List SystemHandle} {phase : Phase} {sys : System Note}
  {plan : PhasePlan} {parallel : Bool}

/-- The schedulers differ in nothing that plans depend on. -/
structure Like (s s' : Scheduler Note) : Prop where
  config : s'.config = s.config
  pipeline : s'.pipeline = s.pipeline
  plans : s'.plans = s.plans
  nextHandle : s'.nextHandle = s.nextHandle
  systems : s'.systems.map System.fixed = s.systems.map System.fixed

namespace Like

theorem refl (s : Scheduler Note) : Like s s := ⟨rfl, rfl, rfl, rfl, rfl⟩

theorem trans {s'' : Scheduler Note} (h : Like s s') (h' : Like s' s'') : Like s s'' :=
  ⟨h'.config.trans h.config, h'.pipeline.trans h.pipeline, h'.plans.trans h.plans,
    h'.nextHandle.trans h.nextHandle, h'.systems.trans h.systems⟩

end Like

theorem map_modify {α β : Type} {f : α → β} {g : α → α} (l : List α) (i : Nat)
    (hfg : ∀ x, l[i]? = some x → f (g x) = f x) : (l.modify i g).map f = l.map f := by
  refine List.ext_getElem? fun j => ?_
  rw [List.getElem?_map, List.getElem?_map, List.getElem?_modify]
  by_cases hij : i = j
  · subst hij
    cases hx : l[i]? with
    | none => rfl
    | some x => simp [hfg x hx]
  · simp [hij]

theorem like_runSystem (s : Scheduler Note) (w : World) (delta : UInt32) (i : Nat) :
    Like s (s.runSystem w delta i).2.1 := by
  unfold runSystem
  split
  · exact .refl s
  · next sys hsys =>
    split
    · refine ⟨rfl, rfl, rfl, rfl, map_modify _ _ fun x hx => ?_⟩
      cases hsys.symm.trans hx
      exact congrArg (Prod.mk sys.outline) (sys.body.source_run _ _ w)
    · exact .refl s

theorem like_runSystems (delta : UInt32) (is : List Nat) (s : Scheduler Note) (w : World) :
    Like s (runSystems delta s w is).2.1 := by
  induction is generalizing s w with
  | nil => exact .refl s
  | cons i rest ih => exact (s.like_runSystem w delta i).trans (ih _ _)

theorem like_runPhase (s : Scheduler Note) (w : World) (phase : Phase) (delta : UInt32) :
    Like s (s.runPhase w phase delta).2.1 := by
  unfold runPhase
  split
  · exact .refl s
  · split
    · exact .refl s
    · exact like_runSystems delta _ s w

theorem like_runPhases (delta : UInt32) (phases : List Phase) (s : Scheduler Note) (w : World) :
    Like s (runPhases delta s w phases).2.1 := by
  induction phases generalizing s w with
  | nil => exact .refl s
  | cons phase rest ih =>
    have hphase := s.like_runPhase w phase delta
    unfold runPhases
    split
    · next heq => rwa [heq] at hphase
    · next heq =>
      rw [heq] at hphase
      exact hphase.trans (ih _ _)

theorem like_progress (s : Scheduler Note) (w : World) (delta : UInt32) :
    Like s (s.progress w delta).2.1 := by
  have hphases (phases : List Phase) := like_runPhases delta phases { s with started := true } w
  have hstart : Like s { s with started := true } := ⟨rfl, rfl, rfl, rfl, rfl⟩
  unfold progress
  simp only
  split
  · next heq =>
    have hlike := hphases ((if s.started then [] else [Phase.onStart]) ++ s.pipeline.phases)
    rw [heq] at hlike
    exact hstart.trans hlike
  · next heq =>
    have hlike := hphases ((if s.started then [] else [Phase.onStart]) ++ s.pipeline.phases)
    rw [heq] at hlike
    exact hstart.trans (hlike.trans ⟨rfl, rfl, rfl, rfl, rfl⟩)

/-! ### Up to date -/

structure Consistent (s : Scheduler Note) : Prop where
  fresh : ∀ phase, PhasePlan.build s.systems s.config.parallel phase =
    .ok ⟨s.stages phase, s.diagnostics phase⟩
  placed : ∀ sys ∈ s.systems, s.pipeline.contains sys.phase = true
  declared : ∀ sys ∈ s.systems, sys.access = .ofTerms sys.query.source

theorem consistent_new (config : SchedulerConfig) (pipeline : Pipeline) :
    Consistent (new config pipeline : Scheduler Note) := ⟨fun _ => rfl, nofun, nofun⟩

theorem stages_eq (h : s.plans.get? phase = some plan) :
    (⟨s.stages phase, s.diagnostics phase⟩ : PhasePlan) = plan := by
  simp only [stages, diagnostics, h]

theorem stages_eq_nil (h : s.plans.get? phase = none) :
    (⟨s.stages phase, s.diagnostics phase⟩ : PhasePlan) = ⟨[], []⟩ := by
  simp only [stages, diagnostics, h]

theorem Consistent.like (h : Consistent s) (hl : Like s s') : Consistent s' := by
  have hfixed {f : Outline × TermList → Prop} (hall : ∀ sys ∈ s.systems, f sys.fixed) :
      ∀ sys ∈ s'.systems, f sys.fixed := by
    intro sys hsys
    have hmem := List.mem_map_of_mem (f := System.fixed) hsys
    rw [hl.systems] at hmem
    obtain ⟨old, hold, heq⟩ := List.mem_map.1 hmem
    exact heq ▸ hall old hold
  have houtline : s'.systems.map System.outline = s.systems.map System.outline := by
    have hfst := congrArg (List.map Prod.fst) hl.systems
    rwa [List.map_map, List.map_map] at hfst
  refine ⟨fun phase => ?_, ?_, ?_⟩
  · rw [hl.config, PhasePlan.build_of_outline houtline, h.fresh phase, stages, stages, diagnostics,
      diagnostics, hl.plans]
  · rw [hl.pipeline]
    exact hfixed (f := fun x => s.pipeline.contains x.1.phase = true) h.placed
  · exact hfixed (f := fun x => x.1.access = .ofTerms x.2) h.declared

/-! ### Removing a system -/

def planPhase (systems : List (System Note)) (parallel : Bool) (plans : FinMap Phase PhasePlan)
    (sys : System Note) : FinMap Phase PhasePlan :=
  if plans.contains sys.phase then plans
  else
    match PhasePlan.build systems parallel sys.phase with
    | .ok plan => plans.insert sys.phase plan
    | .error _ => plans

theorem rebuildPlans_eq (systems : List (System Note)) (parallel : Bool) :
    rebuildPlans systems parallel = systems.foldl (planPhase systems parallel) .empty := rfl

theorem get?_planPhase {systems : List (System Note)} (plans : FinMap Phase PhasePlan)
    (hplan : PhasePlan.build systems parallel phase = .ok plan) (sys : System Note) :
    (planPhase systems parallel plans sys).get? phase =
      (plans.get? phase).or (if sys.phase = phase then some plan else none) := by
  unfold planPhase
  by_cases hphase : sys.phase = phase
  · subst hphase
    rw [if_pos rfl]
    cases hold : plans.get? sys.phase with
    | some old => simp [FinMap.contains, hold]
    | none => simp [FinMap.contains, hold, hplan, FinMap.get?_insert]
  · rw [if_neg hphase, Option.or_none]
    split
    · rfl
    · split
      · rw [FinMap.get?_insert, if_neg (Ne.symm hphase)]
      · rfl

theorem get?_foldl_planPhase {systems : List (System Note)}
    (hplan : PhasePlan.build systems parallel phase = .ok plan) (l : List (System Note))
    (plans : FinMap Phase PhasePlan) : (l.foldl (planPhase systems parallel) plans).get? phase =
      (plans.get? phase).or (if ∃ sys ∈ l, sys.phase = phase then some plan else none) := by
  induction l generalizing plans with
  | nil => simp
  | cons sys l ih =>
    rw [List.foldl_cons, ih, get?_planPhase plans hplan, Option.or_assoc]
    congr 1
    by_cases hphase : sys.phase = phase <;> simp [hphase]

theorem build_eq_rebuilt {systems : List (System Note)}
    (hplan : PhasePlan.build systems s.config.parallel phase = .ok plan)
    (hplans : s.plans = rebuildPlans systems s.config.parallel) :
    plan = ⟨s.stages phase, s.diagnostics phase⟩ := by
  have hget := get?_foldl_planPhase hplan systems .empty
  rw [← rebuildPlans_eq, ← hplans, FinMap.get?_empty, Option.none_or] at hget
  by_cases hsome : ∃ sys ∈ systems, sys.phase = phase
  · rw [if_pos hsome] at hget
    exact (stages_eq hget).symm
  · rw [if_neg hsome] at hget
    rw [stages_eq_nil hget]
    have hnone : PhasePlan.members systems phase = [] := by
      rw [List.eq_nil_iff_forall_not_mem]
      intro i hi
      obtain ⟨sys, hsys, hphase⟩ := PhasePlan.mem_members.1 hi
      exact hsome ⟨sys, List.mem_of_getElem? hsys, hphase⟩
    exact Except.ok.inj (hplan.symm.trans (PhasePlan.build_of_no_members hnone))

theorem constraints_release (h : SystemHandle) (systems : List (System Note)) (k : Nat) :
    ((systems.eraseIdx k).map (release h)).map System.constraints =
      ((systems.map System.constraints).eraseIdx k).map (Constraints.release h) := by
  rw [List.eraseIdx_map, List.map_map, List.map_map]
  rfl

theorem handle_of_findIdx? {h : SystemHandle} {k : Nat}
    (hk : s.systems.findIdx? (fun sys => sys.handle == h) = some k) :
    ∀ c, (s.systems.map System.constraints)[k]? = some c → c.handle = h := by
  intro c hc
  obtain ⟨hlt, hhandle, -⟩ := List.findIdx?_eq_some_iff_getElem.1 hk
  rw [List.getElem?_map, List.getElem?_eq_getElem hlt] at hc
  cases hc
  exact eq_of_beq hhandle

theorem Consistent.unregister (hc : Consistent s) (h : SystemHandle) :
    Consistent (s.unregister h).2 := by
  unfold Scheduler.unregister
  split
  · exact hc
  · next k hk =>
    have hgone := handle_of_findIdx? hk
    have hmem : ∀ sys ∈ (s.systems.eraseIdx k).map (release h), ∃ old ∈ s.systems,
        release h old = sys := by
      intro sys hsys
      obtain ⟨old, hold, heq⟩ := List.mem_map.1 hsys
      exact ⟨old, List.mem_of_mem_eraseIdx hold, heq⟩
    refine ⟨fun phase => ?_, fun sys hsys => ?_, fun sys hsys => ?_⟩
    · have hacyclic := (PhasePlan.build_eq_ok (hc.fresh phase)).1.release hgone
      rw [← constraints_release] at hacyclic
      obtain ⟨plan, hplan⟩ := PhasePlan.exists_build_iff.2 hacyclic
      refine (hplan : PhasePlan.build _ s.config.parallel phase = _).trans (congrArg Except.ok ?_)
      exact build_eq_rebuilt hplan rfl
    · obtain ⟨old, hold, rfl⟩ := hmem sys hsys
      exact hc.placed old hold
    · obtain ⟨old, hold, rfl⟩ := hmem sys hsys
      exact hc.declared old hold

/-! ### A new system -/

theorem Consistent.withSystem (hc : Consistent s) (hphase : s.pipeline.contains sys.phase = true)
    (haccess : sys.access = .ofTerms sys.query.source)
    (hbuild : PhasePlan.build (s.systems ++ [sys]) s.config.parallel sys.phase = .ok plan) :
    Consistent (s.withSystem sys plan) := by
  have hmem {p : System Note → Prop} (hall : ∀ old ∈ s.systems, p old) (hnew : p sys) :
      ∀ x ∈ s.systems ++ [sys], p x := by
    intro x hx
    obtain hx | hx := List.mem_append.1 hx
    · exact hall x hx
    · rwa [List.mem_singleton.1 hx]
  refine ⟨fun phase => ?_, hmem hc.placed hphase, hmem hc.declared haccess⟩
  have hget : (s.withSystem sys plan).plans.get? phase =
      if phase = sys.phase then some plan else s.plans.get? phase := FinMap.get?_insert _ _ _ _
  by_cases hsame : phase = sys.phase
  · subst hsame
    rw [if_pos rfl] at hget
    rw [stages_eq hget]
    exact hbuild
  · rw [if_neg hsame] at hget
    refine (PhasePlan.build_concat (Ne.symm hsame)).trans ?_
    refine (hc.fresh phase).trans ?_
    rw [stages, stages, diagnostics, diagnostics, hget]

theorem Consistent.register (hc : Consistent s) (w : World) (b : SystemBuilder Note) :
    Consistent (s.register w b).2 := by
  obtain ⟨e, he, -⟩ | ⟨sys, plan, hprepare, hbuild, hok⟩ := s.register_cases w b
  · rwa [he]
  · obtain ⟨rank, body, query, hrank, -, -, -, -, hquery, rfl⟩ := prepare_eq_ok_iff.1 hprepare
    rw [hok]
    refine hc.withSystem (Pipeline.exists_rank?_iff.1 ⟨rank, hrank⟩) ?_ hbuild
    obtain ⟨rfl, -⟩ := Query.compile_eq_ok hquery
    rfl

/-! ### Switches and phases -/

theorem like_setEnabled (s : Scheduler Note) (h : SystemHandle) (enabled : Bool) :
    Like s (s.setEnabled h enabled).2 := by
  unfold setEnabled
  split
  · exact .refl s
  · exact ⟨rfl, rfl, rfl, rfl, map_modify _ _ fun _ _ => rfl⟩

theorem contains_insertAfter? {p q : Pipeline} {anchor new : Phase}
    (hq : p.insertAfter? anchor new = some q) (hp : p.contains phase = true) :
    q.contains phase = true := by
  unfold Pipeline.insertAfter? at hq
  split at hq
  · cases hq
    exact hp
  · obtain ⟨i, hi, rfl⟩ := Option.map_eq_some_iff.1 hq
    simp only [Pipeline.contains, Bool.or_eq_true, List.contains_iff_mem] at hp ⊢
    refine hp.imp_right fun hmem => ?_
    have hle : i + 1 ≤ p.phases.length := (List.idxOf?_eq_some_iff.1 hi).1
    exact (List.mem_insertIdx hle).2 (.inr hmem)

theorem Consistent.insertPhaseAfter (hc : Consistent s) (anchor new : Phase) :
    Consistent (s.insertPhaseAfter anchor new).2 := by
  unfold Scheduler.insertPhaseAfter
  split
  · next p hp => exact ⟨hc.fresh, fun sys hsys => contains_insertAfter? hp (hc.placed sys hsys),
      hc.declared⟩
  · exact hc

end Scheduler
end EntityWorld
