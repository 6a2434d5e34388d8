import EntityWorld.Proofs.Schedule.Execution
import EntityWorld.Proofs.Schedule.Reordering
set_option autoImplicit false

/-!
Settings of the scheduler do not matter. With and without parallel stages a phase has different
plans, but systems that record no commands end the same in both of them, as long as constraints put
those in order that clash.
-/
namespace EntityWorld

variable {Note : Type}

open World

/-! ### Systems that record nothing -/

theorem RunState.size_buffer_perform (facts : SystemFacts) (st : RunState Note) (w : World)
    (q : Request) : q.Plain ∨
      st.buffer.size < (st.perform facts w q).2.1.buffer.size := by
  cases q with
  | spawn =>
    right
    simp [perform, CommandBuffer.spawn, CommandBuffer.size]
  | record c =>
    right
    cases c <;> simp [perform, CommandBuffer.record, CommandBuffer.spawn, CommandBuffer.size]
  | _ => exact .inl trivial

theorem Action.size_buffer_run {α : Type} (facts : SystemFacts) (a : Action Note α)
    (st : RunState Note) (w : World) : st.buffer.size ≤ (a.run facts st w).2.1.buffer.size := by
  induction a generalizing st w with
  | done a => exact Nat.le_refl _
  | ask q next ih =>
    have hstep : st.buffer.size ≤ (st.perform facts w q).2.1.buffer.size := by
      obtain hplain | hless := st.size_buffer_perform facts w q
      · rw [st.buffer_perform hplain]
      · exact Nat.le_of_lt hless
    exact Nat.le_trans hstep (ih _ _ _)
  | tell n next ih => exact ih { st with notes := st.notes ++ [n] } w

theorem Task.complete_silent (f : UInt32 → UInt32) (facts : SystemFacts) (a : SystemBody Note)
    (st : RunState Note) (seen : List Observation) (w : World)
    (h : (a.run facts st w).2.1.buffer.size = st.buffer.size) :
    complete facts a (st.rename f) (seen.map (Observation.rename f)) w =
      ((complete facts a st seen w).1.rename f, (complete facts a st seen w).2) := by
  induction a generalizing st seen w with
  | done result => rfl
  | ask q next ih =>
    obtain hplain | hless := st.size_buffer_perform facts w q
    · have hbuffer := st.buffer_perform hplain facts w
      have hrun := ih (st.perform facts w q).1 (st.perform facts w q).2.1
        (seen ++ [⟨q, (st.perform facts w q).1⟩]) (st.perform facts w q).2.2
        (by rw [hbuffer]; exact h)
      rw [List.map_append, List.map_singleton, Observation.rename_plain hplain] at hrun
      simp only [complete, RunState.perform_rename hplain]
      exact hrun
    · exact absurd h (Nat.ne_of_gt (Nat.lt_of_lt_of_le hless (Action.size_buffer_run facts _ _ _)))
  | tell note next ih => exact ih { st with notes := st.notes ++ [note] } seen w h

def System.Silent (sys : System Note) : Prop :=
  ∀ (facts : SystemFacts) (query : Query) (number : UInt32) (w : World),
    (sys.body.run facts ⟨query, [], .empty number, []⟩ w).2.1.buffer = .empty number

def Task.unnumber (t : Task Note) : Task Note := t.rename fun _ => 0

theorem System.Silent.finish_task {sys : System Note} (h : sys.Silent) (delta : UInt32)
    (frame : UInt64) (number : UInt32) (w : World) :
    (sys.task delta frame 0).finish w =
      (((sys.task delta frame number).finish w).1.unnumber,
        ((sys.task delta frame number).finish w).2) :=
  Task.complete_silent (fun _ => 0) ⟨sys.name, delta, frame, sys.access⟩ sys.body
    ⟨sys.query, [], .empty number, []⟩ [] w
    (by rw [h ⟨sys.name, delta, frame, sys.access⟩ sys.query number w])

def unnumber (ended : List (Nat × Task Note)) : List (Nat × Task Note) :=
  ended.map fun x => (x.1, x.2.unnumber)

theorem unnumber_append (first second : List (Nat × Task Note)) :
    unnumber (first ++ second) = unnumber first ++ unnumber second := List.map_append

theorem rounds_append (first second : List (Nat × Task Note)) (w : World) :
    rounds (first ++ second) w =
      ((rounds first w).1 ++ (rounds second (rounds first w).2).1,
        (rounds second (rounds first w).2).2) := by
  induction first generalizing w with
  | nil => rfl
  | cons x rest ih => simp only [List.cons_append, rounds, ih]

namespace Scheduler

variable {s s' : Scheduler Note} {w v : World} {delta : UInt32} {is : List Nat} {phase : Phase}
  {stages : List Stage} {order : List Slice} {ended : List (Nat × Task Note)}

def entrants (s : Scheduler Note) (delta : UInt32) (is : List Nat) : List (Nat × Task Note) :=
  (s.lineup is).map fun x => (x.1, x.2.task delta s.frame 0)

theorem entrants_append (s : Scheduler Note) (delta : UInt32) (first second : List Nat) :
    s.entrants delta (first ++ second) = s.entrants delta first ++ s.entrants delta second := by
  rw [entrants, lineup, List.filterMap_append, List.map_append]
  rfl

theorem rounds_lineup (lineup : List (Nat × System Note)) (frame : UInt64)
    (number : Nat → UInt32) (w : World) (hsilent : ∀ x ∈ lineup, x.2.Silent) :
    rounds (lineup.map fun x => (x.1, x.2.task delta frame 0)) w =
      (unnumber ((lineup.map Prod.fst).zip
          (inTurn ((lineup.map Prod.snd).mapIdx fun k sys => sys.task delta frame (number k)) w).1),
        (inTurn ((lineup.map Prod.snd).mapIdx fun k sys => sys.task delta frame (number k))
          w).2) := by
  induction lineup generalizing number w with
  | nil => rfl
  | cons x rest ih =>
    have hx := (hsilent x List.mem_cons_self).finish_task delta frame (number 0) w
    have hrest := ih (fun k => number (k + 1))
      ((x.2.task delta frame (number 0)).finish w).2
      fun y hy => hsilent y (List.mem_cons_of_mem x hy)
    simp only [List.map_cons, List.mapIdx_cons, rounds, inTurn, hx, hrest, unnumber,
      List.zip_cons_cons]

theorem Played.rounds (h : Played s delta w stages order ended v)
    (hindependent : ∀ stage ∈ stages, ∀ number, Independent (s.tasks delta number stage.systems))
    (hsilent : ∀ x ∈ s.lineup (stages.flatMap Stage.systems), x.2.Silent)
    (hn : w.storage.Numbered) :
    unnumber ended = (rounds (s.entrants delta (stages.flatMap Stage.systems)) w).1 ∧
      SameButEvents v (rounds (s.entrants delta (stages.flatMap Stage.systems)) w).2 := by
  induction h with
  | done w => exact ⟨rfl, .refl w⟩
  | @stage w v stage rest later ended order number hend hrest ih =>
    obtain ⟨htasks, hworld⟩ :=
      interleave_eq_inTurn (hindependent stage List.mem_cons_self number) hn hend
    have hsplit : s.lineup ((stage :: rest).flatMap Stage.systems) =
        s.lineup stage.systems ++ s.lineup (rest.flatMap Stage.systems) := by
      rw [List.flatMap_cons, lineup, List.filterMap_append]
      rfl
    have hstage : EntityWorld.rounds (s.entrants delta stage.systems) w = _ :=
      rounds_lineup (s.lineup stage.systems) s.frame number w fun x hx =>
        hsilent x (hsplit ▸ List.mem_append_left _ hx)
    rw [map_snd_lineup] at hstage
    have hnumbered := numbered_rounds (s.entrants delta stage.systems) hn
    have hfirst : SameButEvents (interleave order (s.tasks delta number stage.systems, w)).2
        (EntityWorld.rounds (s.entrants delta stage.systems) w).2 := by
      rw [hstage]
      exact hworld
    obtain ⟨hended, hlast⟩ := ih
      (fun st hst => hindependent st (List.mem_cons_of_mem stage hst))
      (fun x hx => hsilent x (hsplit ▸ List.mem_append_right _ hx)) (hfirst.symm.numbered hnumbered)
    obtain ⟨hsame, hrounds⟩ := rounds_same (s.entrants delta (rest.flatMap Stage.systems))
      (hfirst.symm.numbered hnumbered) hfirst
    rw [List.flatMap_cons, entrants_append, rounds_append]
    refine ⟨?_, hlast.trans hrounds⟩
    rw [unnumber_append, hended, htasks, hsame, hstage]
    rfl

theorem isEmpty_of_rounds {lineup : List (Nat × System Note)} (hsilent : ∀ x ∈ lineup, x.2.Silent)
    (frame : UInt64) (w : World) :
    ∀ y ∈ (EntityWorld.rounds (lineup.map fun x => (x.1, x.2.task delta frame 0)) w).1,
      y.2.state.buffer.isEmpty = true := by
  induction lineup generalizing w with
  | nil => exact fun y hy => absurd hy List.not_mem_nil
  | cons x rest ih =>
    intro y hy
    obtain rfl | hy := List.mem_cons.1 hy
    · obtain ⟨seen, hend⟩ := Task.complete_eq ⟨x.2.name, delta, frame, x.2.access⟩ x.2.body
        ⟨x.2.query, [], .empty 0, []⟩ [] w
      have hbuffer := hsilent x List.mem_cons_self ⟨x.2.name, delta, frame, x.2.access⟩
        x.2.query 0 w
      simp only [System.task, hend, hbuffer]
      rfl
    · exact ih (fun z hz => hsilent z (List.mem_cons_of_mem x hz)) _ y hy

/-! ### Schedulers with other settings -/

def Call.Setup : Call Note → Prop
  | .runPhase .. | .progress .. => False
  | _ => True

/-- The schedulers differ in their settings and plans alone. -/
def Twins (s s' : Scheduler Note) : Prop :=
  ∃ config plans, s' = { s with config := config, plans := plans }

theorem Twins.call (h : Twins s s') {c : Call Note} (hc : c.Setup) :
    Twins (s.call c) (s'.call c) := by
  obtain ⟨config, plans, rfl⟩ := h
  cases c with
  | register w b =>
    -- whether there is a plan does not depend on the settings
    have hprepare : { s with config, plans }.prepare w b = s.prepare w b := rfl
    have hbuild {sys : System Note} :
        (∃ plan, PhasePlan.build (s.systems ++ [sys]) s.config.parallel sys.phase = .ok plan) ↔
          ∃ plan, PhasePlan.build (s.systems ++ [sys]) config.parallel sys.phase = .ok plan :=
      PhasePlan.exists_build_iff.trans PhasePlan.exists_build_iff.symm
    simp only [Scheduler.call]
    obtain ⟨e, he, hnone⟩ | ⟨sys, plan, hsys, hplan, hok⟩ := s.register_cases w b
    · obtain ⟨e', he', -⟩ | ⟨sys, plan, hsys, hplan, -⟩ :=
        { s with config, plans }.register_cases w b
      · rw [he, he']
        exact ⟨config, plans, rfl⟩
      · obtain ⟨plan', hplan'⟩ := hbuild.2 ⟨plan, hplan⟩
        exact absurd hplan' (hnone sys plan' (hprepare ▸ hsys))
    · obtain ⟨plan', hplan'⟩ := hbuild.1 ⟨plan, hplan⟩
      obtain ⟨e', -, hnone⟩ | ⟨sys', plan'', hsys', -, hok'⟩ :=
        { s with config, plans }.register_cases w b
      · exact absurd hplan' (hnone sys plan' (hprepare ▸ hsys))
      · obtain rfl : sys = sys' := Except.ok.inj (hsys.symm.trans (hprepare ▸ hsys'))
        rw [hok, hok']
        exact ⟨config, plans.insert sys.phase plan'', rfl⟩
  | unregister h =>
    simp only [Scheduler.call, Scheduler.unregister]
    split <;> exact ⟨config, _, rfl⟩
  | setEnabled h enabled =>
    simp only [Scheduler.call, Scheduler.setEnabled]
    split <;> exact ⟨config, plans, rfl⟩
  | setPaused paused => exact ⟨config, plans, rfl⟩
  | insertPhaseAfter anchor phase =>
    simp only [Scheduler.call, Scheduler.insertPhaseAfter]
    split <;> exact ⟨config, plans, rfl⟩
  | runPhase | progress => exact hc.elim

theorem Twins.calls (h : Twins s s') {cs : List (Call Note)} (hcs : ∀ c ∈ cs, c.Setup) :
    Twins (cs.foldl Scheduler.call s) (cs.foldl Scheduler.call s') := by
  induction cs generalizing s s' with
  | nil => exact h
  | cons c cs ih =>
    exact ih (h.call (hcs c List.mem_cons_self)) fun d hd => hcs d (List.mem_cons_of_mem c hd)

theorem Consistent.calls (h : Consistent s) (cs : List (Call Note)) :
    Consistent (cs.foldl Scheduler.call s) := by
  induction cs generalizing s with
  | nil => exact h
  | cons c cs ih => exact ih (h.call c)

theorem body_of_call {c : Call Note} (hc : c.Setup) {body : SystemBody Note}
    (h : body ∈ (s.call c).systems.map System.body) : body ∈ s.systems.map System.body ∨
      ∃ w b, c = .register w b ∧ b.body = some body := by
  cases c with
  | register w b =>
    obtain ⟨e, he, -⟩ | ⟨sys, plan, hsys, -, hok⟩ := s.register_cases w b
    · rw [Scheduler.call, he] at h
      exact .inl h
    · obtain ⟨rank, body', query, -, hbody, -, -, -, -, rfl⟩ := prepare_eq_ok_iff.1 hsys
      rw [Scheduler.call, hok, withSystem, List.map_append, List.mem_append] at h
      refine h.imp_right fun hlast => ⟨w, b, rfl, ?_⟩
      rw [List.map_singleton, List.mem_singleton] at hlast
      rw [hbody, hlast]
      rfl
  | unregister x =>
    simp only [Scheduler.call, Scheduler.unregister] at h
    split at h
    · exact .inl h
    · rw [List.map_map] at h
      exact .inl (((List.eraseIdx_sublist _ _).map System.body).subset h)
  | setEnabled x enabled =>
    have hbodies (k : Nat) : (s.systems.modify k fun sys => { sys with enabled }).map System.body =
        s.systems.map System.body := map_modify _ _ fun _ _ => rfl
    simp only [Scheduler.call, Scheduler.setEnabled] at h
    split at h
    · exact .inl h
    · exact .inl (hbodies _ ▸ h)
  | setPaused paused => exact .inl h
  | insertPhaseAfter anchor phase =>
    simp only [Scheduler.call, Scheduler.insertPhaseAfter] at h
    split at h <;> exact .inl h
  | runPhase | progress => exact hc.elim

theorem body_of_calls {cs : List (Call Note)} (hcs : ∀ c ∈ cs, c.Setup) {body : SystemBody Note}
    (h : body ∈ (cs.foldl Scheduler.call s).systems.map System.body) :
    body ∈ s.systems.map System.body ∨ ∃ w b, .register w b ∈ cs ∧ b.body = some body := by
  induction cs generalizing s with
  | nil => exact .inl h
  | cons c cs ih =>
    obtain hold | ⟨w, b, hb, hbody⟩ := ih (fun d hd => hcs d (List.mem_cons_of_mem c hd)) h
    · refine (body_of_call (hcs c List.mem_cons_self) hold).imp_right fun hnew => ?_
      obtain ⟨w, b, rfl, hbody⟩ := hnew
      exact ⟨w, b, List.mem_cons_self, hbody⟩
    · exact .inr ⟨w, b, List.mem_cons_of_mem c hb, hbody⟩

/-! ### Runs with other settings -/

/-- Systems of the phase that clash are in an order that constraints demand. -/
def ClashesOrdered (s : Scheduler Note) (phase : Phase) : Prop :=
  ∀ (i j : Nat) (a b : System Note), s.systems[i]? = some a → s.systems[j]? = some b →
    a.phase = phase → b.phase = phase → i ≠ j → a.access.conflicts b.access ≠ [] →
    Constraints.Before (s.systems.map System.constraints) phase i j ∨
      Constraints.Before (s.systems.map System.constraints) phase j i

/-- The report of a phase whose systems recorded no commands. -/
def reportOf (phase : Phase) (stages : Nat) (ended : List (Nat × Task Note)) : PhaseReport Note :=
  let outputs := ended.filterMap fun x => x.2.output?
  ⟨phase, outputs.length, stages, outputs.flatMap SystemOutput.failures, .empty,
    outputs.flatMap SystemOutput.told⟩

structure SameReport (r r' : PhaseReport Note) : Prop where
  phase : r.phase = r'.phase
  systemsRun : r.systemsRun = r'.systemsRun
  failures : r.failures.Perm r'.failures
  notes : r.notes.Perm r'.notes
  commands : r.commands = r'.commands

structure SameRun (s s' : Scheduler Note) (w : World) (delta : UInt32) (phase : Phase) : Prop where
  systems : s.systems = s'.systems
  /-- However the two plans are executed, the same systems run, each of them sees the same and ends
  the same, and the same values are left behind. -/
  played : ∀ {order order' : List Slice} {ended ended' : List (Nat × Task Note)} {v v' : World},
    Played s delta w (s.stages phase) order ended v →
    Played s' delta w (s'.stages phase) order' ended' v' →
    SameEnd (unnumber ended, v) (unnumber ended', v')
  first : s.pipeline.contains phase = true → ∃ order ended,
    Played s delta w (s.stages phase) order ended (s.runPhase w phase delta).2.2 ∧
      (s.runPhase w phase delta).1 = .ok (reportOf phase (s.stages phase).length ended)
  second : s'.pipeline.contains phase = true → ∃ order ended,
    Played s' delta w (s'.stages phase) order ended (s'.runPhase w phase delta).2.2 ∧
      (s'.runPhase w phase delta).1 = .ok (reportOf phase (s'.stages phase).length ended)
  world : SameButEvents (s.runPhase w phase delta).2.2 (s'.runPhase w phase delta).2.2
  reports :
    (∃ e, (s.runPhase w phase delta).1 = .error e ∧ (s'.runPhase w phase delta).1 = .error e) ∨
    ∃ r r', (s.runPhase w phase delta).1 = .ok r ∧ (s'.runPhase w phase delta).1 = .ok r' ∧
      SameReport r r'

theorem pairwise_flatMap_stages {systems : List (System Note)} {parallel : Bool} {plan : PhasePlan}
    (h : PhasePlan.build systems parallel phase = .ok plan) :
    (plan.stages.flatMap Stage.systems).Pairwise fun i j =>
      ¬ Constraints.Before (systems.map System.constraints) phase j i := by
  rw [List.pairwise_flatMap]
  constructor
  · intro stage hstage
    exact List.pairwise_of_forall_mem_list fun i hi j hj =>
      PhasePlan.stage_free h hstage j hj i hi
  · exact (PhasePlan.stages_pairwise h).imp fun hfree i hi j hj => hfree j hj i hi

theorem independent_stage {parallel : Bool}
    (hplan : PhasePlan.Sound s.systems parallel phase stages) {stage : Stage}
    (hstage : stage ∈ stages) (number : Nat → UInt32) :
    Independent (s.tasks delta number stage.systems) := by
  cases stage with
  | parallel is => exact independent_tasks hplan hstage delta number
  | serial i =>
    have hlength : (s.tasks delta number [i]).length ≤ 1 := by
      rw [length_tasks]
      exact List.length_filterMap_le _ _
    match hlist : s.tasks delta number [i], hlength with
    | [], _ =>
      exact hlist ▸ List.Pairwise.nil
    | [t], _ => exact hlist ▸ List.pairwise_singleton _ t

theorem pairwise_entrants (hordered : ClashesOrdered s phase) (hn : is.Nodup)
    (hmem : ∀ i ∈ is, ∃ sys, s.systems[i]? = some sys ∧ sys.phase = phase)
    (his : is.Pairwise fun i j => ¬ Constraints.Before (s.systems.map System.constraints) phase j i)
    (delta : UInt32) : (s.entrants delta is).Pairwise fun x y =>
      x.2.facts.access.Apart y.2.facts.access ∨
        Constraints.Before (s.systems.map System.constraints) phase x.1 y.1 := by
  have hpairs : is.Pairwise fun i j => ∀ a b, s.systems[i]? = some a → s.systems[j]? = some b →
      a.access.Apart b.access ∨
        Constraints.Before (s.systems.map System.constraints) phase i j := by
    refine (hn.and his).imp_of_mem fun {i j} hi hj hij a b ha hb => ?_
    obtain ⟨a', ha', hpa⟩ := hmem i hi
    obtain ⟨b', hb', hpb⟩ := hmem j hj
    cases ha.symm.trans ha'
    cases hb.symm.trans hb'
    by_cases hclash : a.access.conflicts b.access = []
    · exact .inl (AccessSet.conflicts_eq_nil_iff.1 hclash)
    · exact .inr ((hordered i j a b ha hb hpa hpb hij.1 hclash).resolve_right hij.2)
  rw [entrants, List.pairwise_map, lineup]
  refine hpairs.filterMap _ fun i j hij x hx y hy => ?_
  obtain ⟨a, ha, rfl⟩ := Option.map_eq_some_iff.1 hx
  obtain ⟨b, hb, rfl⟩ := Option.map_eq_some_iff.1 hy
  exact hij a b (Option.filter_eq_some_iff.1 ha).1 (Option.filter_eq_some_iff.1 hb).1

theorem reportOf_unnumber (phase : Phase) (stages : Nat) (ended : List (Nat × Task Note)) :
    reportOf phase stages (unnumber ended) = reportOf phase stages ended := by
  have houtputs : (unnumber ended).filterMap (fun x => x.2.output?) =
      (ended.filterMap fun x => x.2.output?).map (SystemOutput.rename fun _ => 0) := by
    rw [unnumber, List.filterMap_map, List.map_filterMap]
    exact List.filterMap_congr fun x _ => Task.output?_rename _ x.2
  simp only [reportOf, houtputs, List.length_map, List.flatMap_map]
  rfl

theorem sameReport_of_perm {first second : List (Nat × Task Note)} (h : first.Perm second)
    (phase : Phase) (m n : Nat) :
    SameReport (reportOf phase m first) (reportOf phase n second) := by
  have houtputs := h.filterMap fun x => x.2.output?
  exact ⟨rfl, houtputs.length_eq, houtputs.flatMap_right _, houtputs.flatMap_right _, rfl⟩

section

variable (hs : Consistent s) (hsilent : ∀ sys ∈ s.systems, sys.phase = phase → sys.Silent)
  (hn : w.storage.Numbered)

include hs hsilent

theorem silent_lineup :
    ∀ x ∈ s.lineup ((s.stages phase).flatMap Stage.systems), x.2.Silent := by
  intro x hx
  obtain ⟨hi, hsys, -⟩ := mem_lineup.1 hx
  obtain ⟨sys, hsys', hphase⟩ := ((PhasePlan.Sound.of_build (hs.fresh phase)).exactly x.1).1 hi
  cases hsys.symm.trans hsys'
  exact hsilent x.2 (List.mem_of_getElem? hsys) hphase

include hn

theorem Played.sameEnd (h : Played s delta w (s.stages phase) order ended v) :
    SameEnd (unnumber ended, v)
      (EntityWorld.rounds (s.entrants delta ((s.stages phase).flatMap Stage.systems)) w) := by
  have hplan := PhasePlan.Sound.of_build (hs.fresh phase)
  obtain ⟨hended, hworld⟩ := h.rounds (fun stage hstage => independent_stage hplan hstage)
    (silent_lineup hs hsilent) hn
  exact ⟨.of_eq hended, hworld⟩

theorem exists_played_runPhase (hphase : s.pipeline.contains phase = true) (delta : UInt32) :
    ∃ order ended, Played s delta w (s.stages phase) order ended (s.runPhase w phase delta).2.2 ∧
      (s.runPhase w phase delta).1 = .ok (reportOf phase (s.stages phase).length ended) := by
  have hplan := PhasePlan.Sound.of_build (hs.fresh phase)
  obtain ⟨order, ended, hplayed, houtputs, -⟩ := exists_played hplan.once s w delta
  have hempty : ∀ out ∈ (runSystems delta s w ((s.stages phase).flatMap Stage.systems)).1,
      out.commands.isEmpty = true := by
    intro out hout
    rw [houtputs] at hout
    obtain ⟨x, hx, houtput⟩ := List.mem_filterMap.1 hout
    have hbuffer := isEmpty_of_rounds (silent_lineup hs hsilent) s.frame w (x.1, x.2.unnumber)
      ((Played.sameEnd hs hsilent hn hplayed).ended.mem_iff.1 (List.mem_map.2 ⟨x, hx, rfl⟩))
    have hcommands : out.commands = x.2.state.buffer := by
      unfold Task.output? at houtput
      split at houtput
      · cases houtput
        rfl
      · cases houtput
    rw [hcommands]
    exact List.isEmpty_map.symm.trans hbuffer
  rw [runPhase_eq hphase]
  simp only [settle_of_silent hempty]
  refine ⟨order, ended, hplayed, ?_⟩
  rw [houtputs]
  simp only [reportOf, PhaseReport.empty, List.nil_append]

end

theorem Twins.sameRun (h : Twins s s') (hs : Consistent s) (hs' : Consistent s')
    (hordered : ClashesOrdered s phase)
    (hsilent : ∀ sys ∈ s.systems, sys.phase = phase → sys.Silent) (hn : w.storage.Numbered)
    (delta : UInt32) : SameRun s s' w delta phase := by
  have hplan := PhasePlan.Sound.of_build (hs.fresh phase)
  have hplan' := PhasePlan.Sound.of_build (hs'.fresh phase)
  have hkept' := pairwise_flatMap_stages (hs'.fresh phase)
  obtain ⟨config, plans, rfl⟩ := h
  have hperm := (List.perm_ext_iff_of_nodup hplan.once hplan'.once).2 fun i =>
    (hplan.exactly i).trans (hplan'.exactly i).symm
  have hrounds : SameEnd
      (EntityWorld.rounds (s.entrants delta ((s.stages phase).flatMap Stage.systems)) w)
      (EntityWorld.rounds (s.entrants delta
        (({ s with config, plans } : Scheduler Note).stages phase |>.flatMap Stage.systems))
        w) := by
    refine rounds_perm _ ((hperm.filterMap _).map _) (pairwise_entrants hordered hplan.once
      (fun i hi => (hplan.exactly i).1 hi) (pairwise_flatMap_stages (hs.fresh phase)) delta) ?_ hn
    rw [entrants, List.pairwise_map, lineup]
    refine hkept'.filterMap _ fun i j hij x hx y hy => ?_
    obtain ⟨a, -, rfl⟩ := Option.map_eq_some_iff.1 hx
    obtain ⟨b, -, rfl⟩ := Option.map_eq_some_iff.1 hy
    exact hij
  have hplayed {order order' : List Slice} {ended ended' : List (Nat × Task Note)} {v v' : World}
      (h : Played s delta w (s.stages phase) order ended v)
      (h' : Played { s with config, plans } delta w
        (({ s with config, plans } : Scheduler Note).stages phase) order' ended' v') :
      SameEnd (unnumber ended, v) (unnumber ended', v') :=
    (Played.sameEnd hs hsilent hn h).trans
      (hrounds.trans (Played.sameEnd hs' hsilent hn h').symm)
  by_cases hphase : s.pipeline.contains phase = true
  · obtain ⟨order, ended, hrun, hreport⟩ := exists_played_runPhase hs hsilent hn hphase delta
    obtain ⟨order', ended', hrun', hreport'⟩ := exists_played_runPhase hs' hsilent hn hphase delta
    have hend := hplayed hrun hrun'
    refine ⟨rfl, hplayed, fun _ => ⟨order, ended, hrun, hreport⟩,
      fun _ => ⟨order', ended', hrun', hreport'⟩, hend.world, .inr ⟨_, _, hreport, hreport', ?_⟩⟩
    rw [← reportOf_unnumber phase _ ended, ← reportOf_unnumber phase _ ended']
    exact sameReport_of_perm hend.ended phase _ _
  · have hunknown (t : Scheduler Note) (ht : ¬ t.pipeline.contains phase = true) :
        t.runPhase w phase delta = (.error (.unknownPhase phase), t, w) := by
      rw [Bool.not_eq_true] at ht
      rw [runPhase, ht, Bool.not_false, if_pos rfl]
    refine ⟨rfl, hplayed, fun hc => absurd hc hphase, fun hc => absurd hc hphase, ?_,
      .inl ⟨.unknownPhase phase, ?_, ?_⟩⟩
    · rw [hunknown s hphase, hunknown { s with config, plans } hphase]
      exact .refl w
    · rw [hunknown s hphase]
    · rw [hunknown { s with config, plans } hphase]

/-- Whatever the settings are, in particular with and without parallel stages, systems that are
registered alike run the same if they record no commands and clash in an order only. -/
theorem sameRun_of_settings (config config' : SchedulerConfig) (pipeline : Pipeline)
    {cs : List (Call Note)} (hcs : ∀ c ∈ cs, c.Setup)
    (hordered : ClashesOrdered (cs.foldl Scheduler.call (new config pipeline)) phase)
    (hsilent : ∀ sys ∈ (cs.foldl Scheduler.call (new config pipeline)).systems,
      sys.phase = phase → sys.Silent)
    (hn : w.storage.Numbered) (delta : UInt32) :
    SameRun (cs.foldl Scheduler.call (new config pipeline))
      (cs.foldl Scheduler.call (new config' pipeline)) w delta phase :=
  (Twins.calls ⟨config', .empty, rfl⟩ hcs).sameRun ((consistent_new config pipeline).calls cs)
    ((consistent_new config' pipeline).calls cs) hordered hsilent hn delta

def passing (source target : TypeHandle) : SystemBody Unit :=
  .ask .rows fun rows =>
    match rows with
    | [] => .done (.ok ())
    | r :: _ => .ask (.get r source .u32) fun v =>
      match v with
      | .error err => .done (.error err)
      | .ok v => .ask (.set r target .u32 v) .done

theorem silent_passing {sys : System Unit} {source target : TypeHandle}
    (h : sys.body = passing source target) : sys.Silent := by
  intro facts query number w
  rw [h]
  simp only [passing, Action.run, RunState.perform]
  split
  · rfl
  · simp only [Action.run, RunState.perform]
    split <;> rfl

def passer (name : String) (source target : TypeHandle) (parallelSafe : Bool)
    (after : List SystemHandle) : SystemBuilder Unit :=
  { name, terms := [.read source, .write target], after, parallelSafe,
    body := some (passing source target) }

/-- The last system clashes with the other ones and comes after them. -/
def passers : List (Call Unit) :=
  [.register desk (passer "left" ⟨3⟩ ⟨1⟩ false []), .register desk (passer "right" ⟨3⟩ ⟨2⟩ true []),
    .register desk (passer "back" ⟨1⟩ ⟨2⟩ true [⟨0⟩, ⟨1⟩])]

def passersWith (parallel : Bool) : Scheduler Unit :=
  passers.foldl Scheduler.call (new { parallel } .standard)

theorem clashesOrdered_passers : ClashesOrdered (passersWith true) .onUpdate := by
  have hlength : (passersWith true).systems.length = 3 := by decide +kernel
  have hdirect : ∀ i < 3, ∀ j < 3, i ≠ j → ((passersWith true).systems[i]?.all fun a =>
      (passersWith true).systems[j]?.all fun b => a.access.conflicts b.access = [] ∨
        a.handle ∈ b.after ∨ b.handle ∈ a.after) = true := by decide +kernel
  intro i j a b ha hb hpa hpb hij hclash
  have hi : i < 3 := hlength ▸ (List.getElem?_eq_some_iff.1 ha).1
  have hj : j < 3 := hlength ▸ (List.getElem?_eq_some_iff.1 hb).1
  have hcase := hdirect i hi j hj hij
  simp only [ha, hb, Option.all_some, decide_eq_true_eq] at hcase
  have hhandles : ((passersWith true).systems.map System.handle).Nodup := by decide +kernel
  refine (hcase.resolve_left hclash).imp (fun hab => .single ?_) fun hba => .single ?_
  · exact (PhasePlan.precedes_iff hhandles).2 ⟨a, b, ha, hb, hpa, hpb, .inl hab⟩
  · exact (PhasePlan.precedes_iff hhandles).2 ⟨b, a, hb, ha, hpb, hpa, .inl hba⟩

/-- The plans have different orders. -/
theorem sameRun_passers :
    (passersWith true).stages .onUpdate = [.serial 1, .serial 0, .serial 2] ∧
    (passersWith false).stages .onUpdate = [.serial 0, .serial 1, .serial 2] ∧
    (∀ c ∈ passers, c.Setup) ∧ ClashesOrdered (passersWith true) .onUpdate ∧
    (∀ sys ∈ (passersWith true).systems, sys.phase = .onUpdate → sys.Silent) ∧
    desk.storage.Numbered ∧
    SameRun (passersWith true) (passersWith false) desk 0 .onUpdate := by
  have hsetup : ∀ c ∈ passers, c.Setup := by
    simp [passers, Call.Setup]
  have hsilent : ∀ sys ∈ (passersWith true).systems, sys.phase = .onUpdate → sys.Silent := by
    intro sys hsys _
    obtain hnone | ⟨w, b, hb, hbody⟩ := body_of_calls hsetup (List.mem_map.2 ⟨sys, hsys, rfl⟩)
    · cases hnone
    · simp only [passers, List.mem_cons, Call.register.injEq, List.not_mem_nil, or_false] at hb
      obtain ⟨-, rfl⟩ | ⟨-, rfl⟩ | ⟨-, rfl⟩ := hb <;>
        exact silent_passing (Option.some.inj hbody).symm
  exact ⟨by decide +kernel, by decide +kernel, hsetup, clashesOrdered_passers, hsilent,
    underway_copiers.numbered, sameRun_of_settings _ _ _ hsetup clashesOrdered_passers hsilent
      underway_copiers.numbered 0⟩

end Scheduler
end EntityWorld
