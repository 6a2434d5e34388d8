import EntityWorld.Proofs.Schedule.Lifetime
set_option autoImplicit false

/-!
What a frame promises. Exactly the systems that take part run, each of them once and in its phase.
What a constraint demands is kept, within a phase and across phases. Within a phase no row moves,
and its commands are applied before the next one begins.
-/
namespace EntityWorld

variable {Note : Type}

open World

/-! ### Turns -/

section

variable {is order : List Nat} {y : List (Task Note) × World} {x : Slice}

theorem mem_of_mem_slices (hx : x ∈ slices is order y) : x.system ∈ is := by
  induction order generalizing y with
  | nil => cases hx
  | cons k order ih =>
    obtain hx | hx := List.mem_append.1 hx
    · obtain ⟨i, hi, rfl⟩ := Option.map_eq_some_iff.1 (Option.mem_toList.1 hx)
      exact List.mem_of_getElem? hi
    · exact ih hx

theorem sameRows_stepAt (hn : y.2.storage.Numbered) (k : Nat) : SameRows y.2 (stepAt y k).2 := by
  unfold stepAt
  split
  · exact .of_mask (Task.mask_step (p := fun _ => false) hn fun _ _ => rfl).symm
  · exact .refl y.2

theorem sameRows_interleave (hn : y.2.storage.Numbered) (order : List Nat) :
    SameRows y.2 (interleave order y).2 := by
  induction order generalizing y with
  | nil => exact .refl y.2
  | cons k order ih =>
    have hstep := sameRows_stepAt hn k
    exact hstep.trans (ih (hstep.numbered hn))

theorem sameRows_of_mem_slices (hn : y.2.storage.Numbered) (hx : x ∈ slices is order y) :
    SameRows y.2 x.world := by
  induction order generalizing y with
  | nil => cases hx
  | cons k order ih =>
    have hstep := sameRows_stepAt hn k
    obtain hx | hx := List.mem_append.1 hx
    · obtain ⟨i, -, rfl⟩ := Option.map_eq_some_iff.1 (Option.mem_toList.1 hx)
      exact .refl y.2
    · exact hstep.trans (ih (hstep.numbered hn) hx)

end

theorem numbered_applyBuffers {w : World} (hn : w.storage.Numbered) (buffers : List CommandBuffer) :
    (w.applyBuffers buffers).storage.Numbered := by
  induction buffers generalizing w with
  | nil => exact hn
  | cons b rest ih =>
    rw [World.applyBuffers, List.foldl_cons]
    refine ih ?_
    rw [World.applyCommands]
    exact (throughout_keeps.applyAll _ _ _ _ hn).1

namespace Scheduler

variable {s s' : Scheduler Note} {w v : World} {delta : UInt32} {phase : Phase} {n i j : Nat}
  {stages : List Stage} {order : List Slice} {ended : List (Nat × Task Note)}
  {phases : List Phase} {runs : List (PhaseRun Note)}

theorem lineup_sublist (s : Scheduler Note) (is : List Nat) :
    ((s.lineup is).map Prod.fst).Sublist is := by
  induction is with
  | nil => exact .slnil
  | cons i is ih =>
    rw [lineup, List.filterMap_cons]
    cases (s.systems[i]?).filter s.eligible with
    | none => exact ih.cons i
    | some sys => exact ih.cons_cons i

namespace Played

theorem sameRows (h : Played s delta w stages order ended v) (hn : w.storage.Numbered) :
    (∀ x ∈ order, SameRows w x.world) ∧ SameRows w v := by
  induction h with
  | done w => exact ⟨fun x hx => absurd hx List.not_mem_nil, .refl w⟩
  | @stage w v stage rest later ended order number hend hrest ih =>
    have hfirst := sameRows_interleave (y := (s.tasks delta number stage.systems, w)) hn order
    obtain ⟨hlater, hlast⟩ := ih (hfirst.numbered hn)
    refine ⟨fun x hx => ?_, hfirst.trans hlast⟩
    obtain hx | hx := List.mem_append.1 hx
    · exact sameRows_of_mem_slices (y := (s.tasks delta number stage.systems, w)) hn hx
    · exact hfirst.trans (hlater x hx)

theorem mem_lineup (h : Played s delta w stages order ended v) {x : Slice} (hx : x ∈ order) :
    x.system ∈ (s.lineup (stages.flatMap Stage.systems)).map Prod.fst := by
  induction h with
  | done w => cases hx
  | @stage w v stage rest later ended order number hend hrest ih =>
    rw [List.flatMap_cons, lineup, List.filterMap_append, List.map_append]
    obtain hx | hx := List.mem_append.1 hx
    · exact List.mem_append_left _ (mem_of_mem_slices hx)
    · exact List.mem_append_right _ (ih hx)

theorem pairwise (h : Played s delta w stages order ended v) {r : Nat → Nat → Prop}
    (hstages : stages.Pairwise fun first second =>
      ∀ i ∈ first.systems, ∀ j ∈ second.systems, r i j)
    (hstage : ∀ stage ∈ stages, ∀ i ∈ stage.systems, ∀ j ∈ stage.systems, r i j) :
    order.Pairwise fun x y => r x.system y.system := by
  induction h with
  | done w => exact .nil
  | @stage w v stage rest later ended order number hend hrest ih =>
    obtain ⟨hfirst, hrests⟩ := List.pairwise_cons.1 hstages
    have hsystem {x : Slice} (hx : x ∈ slices ((s.lineup stage.systems).map Prod.fst) order
        (s.tasks delta number stage.systems, w)) : x.system ∈ stage.systems :=
      (s.lineup_sublist _).subset (mem_of_mem_slices hx)
    refine List.pairwise_append.2
      ⟨?_, ih hrests fun t ht => hstage t (List.mem_cons_of_mem _ ht), ?_⟩
    · exact List.pairwise_of_forall_mem_list fun x hx y hy =>
        hstage stage List.mem_cons_self _ (hsystem hx) _ (hsystem hy)
    · intro x hx y hy
      obtain ⟨t, ht, hy⟩ := List.mem_flatMap.1 ((s.lineup_sublist _).subset (hrest.mem_lineup hy))
      exact hfirst t ht _ (hsystem hx) _ hy

theorem mem_ended (h : Played s delta w (s.stages phase) order ended v) (hs : Fresh s) :
    i ∈ ended.map Prod.fst ↔
      ∃ sys, s.systems[i]? = some sys ∧ sys.phase = phase ∧ s.eligible sys = true := by
  have hplan := (PhasePlan.Sound.of_build (hs phase)).exactly i
  rw [h.map_fst, List.mem_map]
  constructor
  · intro hx
    obtain ⟨x, hx, rfl⟩ := hx
    obtain ⟨hi, hsys, htakes⟩ := Scheduler.mem_lineup.1 hx
    obtain ⟨sys, hsys', hphase⟩ := hplan.1 hi
    cases hsys.symm.trans hsys'
    exact ⟨x.2, hsys, hphase, htakes⟩
  · intro hex
    obtain ⟨sys, hsys, hphase, htakes⟩ := hex
    exact ⟨(i, sys), Scheduler.mem_lineup.2 ⟨hplan.2 ⟨sys, hsys, hphase⟩, hsys, htakes⟩, rfl⟩

end Played

/-! ### Frames -/

/-- A phase is entered with the world that the one before it has committed. -/
def Linked : World → List (PhaseRun Note) → World → Prop
  | w, [], v => w = v
  | w, r :: rest, v => r.entered = w ∧ Linked r.committed rest v

namespace Framed

theorem map_phase (h : Framed delta s w phases runs s' v) : runs.map PhaseRun.phase = phases := by
  induction h with
  | done s w => rfl
  | phase r _ _ _ ih => rw [List.map_cons, ih]

theorem linked (h : Framed delta s w phases runs s' v) : Linked w runs v := by
  induction h with
  | done s w => rfl
  | phase r _ _ hw ih => exact ⟨hw, ih⟩

theorem played (h : Framed delta s w phases runs s' v) : ∀ r ∈ runs, ∃ s₁, Ran s s₁ ∧
    Played s₁ delta r.entered (s₁.stages r.phase) r.slices r.ended r.left := by
  induction h with
  | done s w => exact fun r hr => absurd hr List.not_mem_nil
  | @phase s s' w v rest runs r hplayed _ _ ih =>
    intro r' hr'
    obtain rfl | hr' := List.mem_cons.1 hr'
    · exact ⟨s, .refl s, hplayed⟩
    · obtain ⟨s₁, hran, hplayed'⟩ := ih r' hr'
      exact ⟨s₁, (Ran.afterAll s r.ended).trans hran, hplayed'⟩

theorem numbered (h : Framed delta s w phases runs s' v) (hn : w.storage.Numbered) :
    ∀ r ∈ runs, r.entered.storage.Numbered := by
  induction h with
  | done s w => exact fun r hr => absurd hr List.not_mem_nil
  | phase r hplayed _ hw ih =>
    subst hw
    intro r' hr'
    obtain rfl | hr' := List.mem_cons.1 hr'
    · exact hn
    · exact ih (numbered_applyBuffers ((hplayed.sameRows hn).2.numbered hn) _) r' hr'

end Framed

/-! ### Order -/

/-- A constraint of one of two systems demands that the one at `i` comes before the one at `j`. -/
def Demands (s : Scheduler Note) (i j : Nat) : Prop :=
  (∃ b, s.systems[j]? = some b ∧ ∃ h ∈ b.after,
    s.systems.findIdx? (fun sys => sys.handle == h) = some i) ∨
  ∃ a, s.systems[i]? = some a ∧ ∃ h ∈ a.before,
    s.systems.findIdx? (fun sys => sys.handle == h) = some j

theorem Demands.precedes (h : Demands s i j) {a b : System Note} (ha : s.systems[i]? = some a)
    (hb : s.systems[j]? = some b) (hpa : a.phase = phase) (hpb : b.phase = phase) :
    Constraints.Precedes (s.systems.map System.constraints) phase i j := by
  have hget {k : Nat} {sys : System Note} (hsys : s.systems[k]? = some sys) :
      (s.systems.map System.constraints)[k]? = some sys.constraints := by
    rw [List.getElem?_map, hsys, Option.map_some]
  have hmeans {k : Nat} {sys : System Note} {x : SystemHandle} (hsys : s.systems[k]? = some sys)
      (hphase : sys.phase = phase)
      (hfirst : s.systems.findIdx? (fun sys => sys.handle == x) = some k) :
      Constraints.Means (s.systems.map System.constraints) phase x k := by
    obtain ⟨hlt, hhandle, hmin⟩ := List.findIdx?_eq_some_iff_getElem.1 hfirst
    have hhere : s.systems[k] = sys := (List.getElem?_eq_some_iff.1 hsys).2
    refine Constraints.means_iff.2
      ⟨⟨_, hget hsys, hphase, hhere ▸ eq_of_beq hhandle⟩, fun l hl c hc _ heq => ?_⟩
    rw [List.getElem?_map, List.getElem?_eq_getElem (Nat.lt_trans hl hlt)] at hc
    cases hc
    exact hmin l hl (beq_iff_eq.2 heq)
  obtain ⟨b', hb', x, hx, hfirst⟩ | ⟨a', ha', x, hx, hfirst⟩ := h
  · cases hb.symm.trans hb'
    exact .inl ⟨_, hget hb, hpb, x, hx, hmeans ha hpa hfirst⟩
  · cases ha.symm.trans ha'
    exact .inr ⟨_, hget ha, hpa, x, hx, hmeans hb hpb hfirst⟩

theorem Demands.ranked (h : Demands s i j)
    (hr : Constraints.Ranked s.pipeline (s.systems.map System.constraints)) {a b : System Note}
    (ha : s.systems[i]? = some a) (hb : s.systems[j]? = some b) :
    ¬ s.pipeline.Earlier b.phase a.phase := by
  have hfind {k : Nat} {sys : System Note} {x : SystemHandle} {ok : Phase → Prop}
      (hsys : s.systems[k]? = some sys)
      (hfirst : s.systems.findIdx? (fun sys => sys.handle == x) = some k)
      (hstands : Constraints.Stands (s.systems.map System.constraints) ok x) : ok sys.phase := by
    obtain ⟨hlt, hhandle, hmin⟩ := List.findIdx?_eq_some_iff_getElem.1 hfirst
    have hhere : s.systems[k] = sys := (List.getElem?_eq_some_iff.1 hsys).2
    have hfound : s.find? x = some sys :=
      List.find?_eq_some_iff_getElem.2 ⟨hhere ▸ hhandle, k, hlt, hhere,
        fun l hl => by rw [Bool.not_eq_true', ← Bool.not_eq_true]; exact hmin l hl⟩
    obtain ⟨sys', hsys', hok⟩ := stands_iff.1 hstands
    cases hfound.symm.trans hsys'
    exact hok
  obtain ⟨b', hb', x, hx, hfirst⟩ | ⟨a', ha', x, hx, hfirst⟩ := h
  · cases hb.symm.trans hb'
    exact hfind ha hfirst (hr.after _ (List.mem_map_of_mem (List.mem_of_getElem? hb)) x hx)
  · cases ha.symm.trans ha'
    exact hfind hb hfirst (hr.before _ (List.mem_map_of_mem (List.mem_of_getElem? ha)) x hx)

namespace Framed

section

variable (h : Framed delta s w phases runs s' v) {r : PhaseRun Note} (hr : r ∈ runs)

include h hr

theorem ended_sublist :
    (r.ended.map Prod.fst).Sublist ((s.stages r.phase).flatMap Stage.systems) := by
  obtain ⟨s₁, hran, hplayed⟩ := h.played r hr
  rw [hplayed.map_fst, hran.stages]
  exact s₁.lineup_sublist _

theorem mem_ended (hs : Fresh s) : i ∈ r.ended.map Prod.fst ↔
    ∃ sys, s.systems[i]? = some sys ∧ sys.phase = r.phase ∧ s.eligible sys = true := by
  obtain ⟨s₁, hran, hplayed⟩ := h.played r hr
  exact (hplayed.mem_ended (hs.ran hran)).trans hran.takesPart_iff

theorem finished : ∀ x ∈ r.ended, x.2.Finished := by
  obtain ⟨s₁, -, hplayed⟩ := h.played r hr
  exact hplayed.finished

theorem system_mem {x : Slice} (hx : x ∈ r.slices) : x.system ∈ r.ended.map Prod.fst := by
  obtain ⟨s₁, -, hplayed⟩ := h.played r hr
  rw [hplayed.map_fst]
  exact hplayed.mem_lineup hx

theorem frozen (hn : w.storage.Numbered) :
    (∀ x ∈ r.slices, SameRows r.entered x.world) ∧ SameRows r.entered r.left := by
  obtain ⟨s₁, -, hplayed⟩ := h.played r hr
  exact hplayed.sameRows (h.numbered hn r hr)

theorem ordered_phase (hs : Fresh s) (hij : Demands s i j) :
    r.slices.Pairwise fun x y => ¬ (x.system = j ∧ y.system = i) := by
  obtain ⟨s₁, hran, hplayed⟩ := h.played r hr
  have hplan := hs.ran hran r.phase
  have hkept := hplayed.pairwise
    (r := fun i j => ¬ Constraints.Before (s₁.systems.map System.constraints) r.phase j i)
    ((PhasePlan.stages_pairwise hplan).imp fun hfree i hi j hj => hfree j hj i hi)
    fun stage hstage i hi j hj => PhasePlan.stage_free hplan hstage j hj i hi
  refine hkept.imp_of_mem fun {x y} hx hy hxy hsame => ?_
  obtain ⟨b, hb, hpb, -⟩ := (h.mem_ended hr hs).1 (h.system_mem hr hx)
  obtain ⟨a, ha, hpa, -⟩ := (h.mem_ended hr hs).1 (h.system_mem hr hy)
  rw [hsame.1] at hb hxy
  rw [hsame.2] at ha hxy
  rw [hran.constraints] at hxy
  exact hxy (.single (hij.precedes ha hb hpa hpb))

end

theorem once (h : Framed delta s w phases runs s' v) (hs : Fresh s)
    (hphases : phases.Pairwise s.pipeline.Earlier) :
    ((runs.flatMap PhaseRun.ended).map Prod.fst).Nodup := by
  rw [← h.map_phase, List.pairwise_map] at hphases
  rw [List.map_flatMap, List.nodup_flatMap]
  constructor
  · exact fun r hr => (PhasePlan.Sound.of_build (hs r.phase)).once.sublist (h.ended_sublist hr)
  · refine hphases.imp_of_mem fun {r r'} hr hr' hlt i hi hi' => ?_
    obtain ⟨sys, hsys, hphase, -⟩ := (h.mem_ended hr hs).1 hi
    obtain ⟨sys', hsys', hphase', -⟩ := (h.mem_ended hr' hs).1 hi'
    cases hsys.symm.trans hsys'
    rw [← hphase, ← hphase'] at hlt
    exact s.pipeline.not_earlier_self _ hlt

theorem ordered (h : Framed delta s w phases runs s' v) (hs : Fresh s)
    (hphases : phases.Pairwise s.pipeline.Earlier)
    (hranked : Constraints.Ranked s.pipeline (s.systems.map System.constraints))
    (hij : Demands s i j) : (runs.flatMap PhaseRun.slices).Pairwise fun x y =>
      ¬ (x.system = j ∧ y.system = i) := by
  rw [← h.map_phase, List.pairwise_map] at hphases
  rw [List.pairwise_flatMap]
  refine ⟨fun r hr => h.ordered_phase hr hs hij, ?_⟩
  refine hphases.imp_of_mem fun {r r'} hr hr' hlt x hx y hy hxy => ?_
  obtain ⟨b, hb, hpb, -⟩ := (h.mem_ended hr hs).1 (h.system_mem hr hx)
  obtain ⟨a, ha, hpa, -⟩ := (h.mem_ended hr' hs).1 (h.system_mem hr' hy)
  rw [hxy.1] at hb
  rw [hxy.2] at ha
  rw [← hpb, ← hpa] at hlt
  exact hij.ranked hranked ha hb hlt

end Framed

/-- How a frame of a scheduler goes that had `n` frames and recorded the given constraints. -/
structure FrameOrder (s : Scheduler Note) (n : Nat) (rules : List (SystemHandle × SystemHandle))
    (w : World) (runs : List (PhaseRun Note)) (v : World) : Prop where
  phases : runs.map PhaseRun.phase = (if n = 0 then [Phase.onStart] else []) ++ s.pipeline.phases
  start : Phase.onStart ∉ s.pipeline.phases
  exactly : ∀ r ∈ runs, ∀ i, i ∈ r.ended.map Prod.fst ↔
    ∃ sys, s.systems[i]? = some sys ∧ sys.phase = r.phase ∧ s.eligible sys = true
  once : ((runs.flatMap PhaseRun.ended).map Prod.fst).Nodup
  planned : ∀ r ∈ runs,
    (r.ended.map Prod.fst).Sublist ((s.stages r.phase).flatMap Stage.systems)
  finished : ∀ r ∈ runs, ∀ x ∈ r.ended, x.2.Finished
  running : ∀ r ∈ runs, ∀ x ∈ r.slices, x.system ∈ r.ended.map Prod.fst
  demanded : ∀ rule ∈ rules, ∃ i j, (s.systems[i]?).map System.handle = some rule.1 ∧
    (s.systems[j]?).map System.handle = some rule.2 ∧ Demands s i j
  /-- What has to come first has its last turn before the other one has its first. -/
  ordered : ∀ i j, Demands s i j → (runs.flatMap PhaseRun.slices).Pairwise fun x y =>
    ¬ (x.system = j ∧ y.system = i)
  frozen : ∀ r ∈ runs, (∀ x ∈ r.slices, SameRows r.entered x.world) ∧ SameRows r.entered r.left
  linked : Linked w runs v

namespace Kept

variable {rules : List (SystemHandle × SystemHandle)}

theorem framePhases_eq (h : Kept n rules s) : s.framePhases =
    (if n = 0 then [Phase.onStart] else []) ++ s.pipeline.phases := by
  rw [framePhases, h.started]
  simp only [decide_eq_true_eq, ite_not]

theorem pairwise_framePhases (h : Kept n rules s) :
    s.framePhases.Pairwise s.pipeline.Earlier := by
  refine h.built.pairwise.sublist ?_
  unfold framePhases
  split
  · exact List.sublist_cons_self _ _
  · exact .refl _

theorem exists_demands (h : Kept n rules s) {rule : SystemHandle × SystemHandle}
    (hrule : rule ∈ rules) : ∃ i j, (s.systems[i]?).map System.handle = some rule.1 ∧
      (s.systems[j]?).map System.handle = some rule.2 ∧ Demands s i j := by
  have hplace {x : SystemHandle} {ok : Phase → Prop}
      (hstands : Constraints.Stands (s.systems.map System.constraints) ok x) :
      ∃ i, s.systems.findIdx? (fun sys => sys.handle == x) = some i ∧
        (s.systems[i]?).map System.handle = some x := by
    obtain ⟨sys, hsys, -⟩ := stands_iff.1 hstands
    obtain ⟨hhandle, i, hi, rfl, hmin⟩ := List.find?_eq_some_iff_getElem.1 hsys
    refine ⟨i, List.findIdx?_eq_some_iff_getElem.2 ⟨hi, hhandle, fun k hk hother => ?_⟩, ?_⟩
    · have hnot := hmin k hk
      rw [hother] at hnot
      cases hnot
    · rw [List.getElem?_eq_getElem hi, Option.map_some, eq_of_beq hhandle]
  have hown {c : Constraints} (hc : c ∈ s.systems.map System.constraints) :
      ∃ (k : Nat) (sys : System Note), s.systems[k]? = some sys ∧ sys.constraints = c := by
    obtain ⟨sys, hsys, rfl⟩ := List.mem_map.1 hc
    obtain ⟨k, hk⟩ := List.mem_iff_getElem?.1 hsys
    exact ⟨k, sys, hk, rfl⟩
  obtain ⟨c, hc, hhandle, hin⟩ | ⟨c, hc, hhandle, hin⟩ := h.recorded rule hrule
  · obtain ⟨i, hfirst, hi⟩ := hplace (h.ranked.after c hc rule.1 hin)
    obtain ⟨j, b, hb, rfl⟩ := hown hc
    exact ⟨i, j, hi, by rw [hb, ← hhandle]; rfl, .inl ⟨b, hb, rule.1, hin, hfirst⟩⟩
  · obtain ⟨j, hfirst, hj⟩ := hplace (h.ranked.before c hc rule.2 hin)
    obtain ⟨i, a, ha, rfl⟩ := hown hc
    exact ⟨i, j, by rw [ha, ← hhandle]; rfl, hj, .inr ⟨a, ha, rule.2, hin, hfirst⟩⟩

theorem frameOrder (hs : Kept n rules s)
    (h : Framed delta { s with started := true } w s.framePhases runs s' v)
    (hn : w.storage.Numbered) : FrameOrder s n rules w runs v where
  phases := h.map_phase.trans hs.framePhases_eq
  start := (List.nodup_cons.1 hs.built.nodup).1
  exactly _ hr _ := h.mem_ended hr hs.consistent.fresh
  once := h.once hs.consistent.fresh hs.pairwise_framePhases
  planned _ hr := h.ended_sublist hr
  finished _ hr := h.finished hr
  running _ hr _ hx := h.system_mem hr hx
  demanded _ hrule := hs.exists_demands hrule
  ordered _ _ hij := h.ordered hs.consistent.fresh hs.pairwise_framePhases hs.ranked hij
  frozen _ hr := h.frozen hr hn
  linked := h.linked

end Kept

/-- How a scheduler runs a frame that had `n` frames and recorded the given constraints. -/
structure RunsFrame (s : Scheduler Note) (n : Nat) (rules : List (SystemHandle × SystemHandle))
    (w : World) (delta : UInt32) : Prop where
  runs : ∃ reports runs s' v,
    s.progress w delta = (.ok ⟨s.frame, reports⟩, { s' with frame := s.frame + 1 }, v) ∧
      Framed delta { s with started := true } w s.framePhases runs s' v ∧
      reports.map PhaseReport.phase = s.framePhases
  order : ∀ runs s' v, Framed delta { s with started := true } w s.framePhases runs s' v →
    FrameOrder s n rules w runs v

/-- Whatever was called before, a frame runs to its end and in order. -/
theorem Lifetime.runsFrame {rules : List (SystemHandle × SystemHandle)} (h : Lifetime n rules s)
    (hn : w.storage.Numbered) (delta : UInt32) : RunsFrame s n rules w delta :=
  ⟨exists_progress h.kept.consistent.fresh w delta, fun _ _ _ hframed =>
    h.kept.frameOrder hframed hn⟩

def teller (name : String) (phase : Phase) (after before : List SystemHandle)
    (result : Except EcsError Unit) : SystemBuilder String :=
  { name, phase, after, before, body := some (.tell name (.done result)) }

/-- Two systems in an order across phases, then one of a phase that is put between theirs, and the
first frame. -/
def voyage : Nat × List (SystemHandle × SystemHandle) × Scheduler String :=
  live (0, [], .new {} .standard)
    [.register desk (teller "rig" .onStart [] [] (.ok ())),
      .register desk (teller "sail" .onUpdate [] [] (.error (.unknownType ⟨7⟩))),
      .register desk (teller "land" .onValidate [⟨1⟩] [] (.ok ())),
      .insertPhaseAfter .onUpdate ⟨"Dock"⟩,
      .register desk (teller "moor" ⟨"Dock"⟩ [⟨1⟩] [⟨2⟩] (.ok ())),
      .progress desk 0]

theorem lifetime_voyage : Lifetime voyage.1 voyage.2.1 voyage.2.2 :=
  (Lifetime.new {} .standard).live _

theorem runsFrame_voyage :
    voyage.1 = 1 ∧ voyage.2.1 = [(⟨1⟩, ⟨2⟩), (⟨1⟩, ⟨3⟩), (⟨3⟩, ⟨2⟩)] ∧
    Lifetime voyage.1 voyage.2.1 voyage.2.2 ∧ desk.storage.Numbered ∧
    (voyage.2.2.progress desk 0).1.toOption.map (fun r => r.phases.flatMap PhaseReport.notes) =
      some [("sail", "sail"), ("moor", "moor"), ("land", "land")] ∧
    RunsFrame voyage.2.2 voyage.1 voyage.2.1 desk 0 :=
  ⟨by decide +kernel, by decide +kernel, lifetime_voyage, underway_copiers.numbered,
    by decide +kernel, lifetime_voyage.runsFrame underway_copiers.numbered 0⟩

end Scheduler
end EntityWorld
