import EntityWorld.Proofs.Schedule.Upkeep
set_option autoImplicit false

/-!
Schedulers that calls lead to. In each of them every phase has a sound plan, and exactly the systems
that can be satisfied are registered.
-/
namespace EntityWorld.Scheduler

variable {Note : Type} {s : Scheduler Note} {issued : List SystemHandle}

inductive Call (Note : Type) where
  | register (w : World) (b : SystemBuilder Note)
  | unregister (h : SystemHandle)
  | setEnabled (h : SystemHandle) (enabled : Bool)
  | setPaused (paused : Bool)
  | insertPhaseAfter (anchor phase : Phase)
  | runPhase (w : World) (phase : Phase) (delta : UInt32)
  | progress (w : World) (delta : UInt32)

def call (s : Scheduler Note) : Call Note → Scheduler Note
  | .register w b => (s.register w b).2
  | .unregister h => (s.unregister h).2
  | .setEnabled h enabled => (s.setEnabled h enabled).2
  | .setPaused paused => s.setPaused paused
  | .insertPhaseAfter anchor phase => (s.insertPhaseAfter anchor phase).2
  | .runPhase w phase delta => (s.runPhase w phase delta).2.1
  | .progress w delta => (s.progress w delta).2.1

def issued? (s : Scheduler Note) : Call Note → Option SystemHandle
  | .register w b => (s.register w b).1.toOption
  | _ => none

/-- Schedulers that calls lead to, with the handles given out on the way. -/
inductive Reachable : List SystemHandle → Scheduler Note → Prop where
  | new (config : SchedulerConfig) (pipeline : Pipeline) : Reachable [] (.new config pipeline)
  | call {issued : List SystemHandle} {s : Scheduler Note} (c : Call Note) : Reachable issued s →
      Reachable (issued ++ (s.issued? c).toList) (s.call c)

theorem Consistent.call (h : Consistent s) (c : Call Note) : Consistent (s.call c) := by
  cases c with
  | register w b => exact h.register w b
  | unregister x => exact h.unregister x
  | setEnabled x enabled => exact h.like (like_setEnabled _ x enabled)
  | setPaused paused => exact h.like ⟨rfl, rfl, rfl, rfl, rfl⟩
  | insertPhaseAfter anchor phase => exact h.insertPhaseAfter anchor phase
  | runPhase w phase delta => exact h.like (like_runPhase _ w phase delta)
  | progress w delta => exact h.like (like_progress _ w delta)

theorem Reachable.consistent (h : Reachable issued s) : Consistent s := by
  induction h with
  | new config pipeline => exact consistent_new config pipeline
  | call c _ ih => exact ih.call c

def calls (x : List SystemHandle × Scheduler Note) (cs : List (Call Note)) :
    List SystemHandle × Scheduler Note :=
  cs.foldl (fun x c => (x.1 ++ (x.2.issued? c).toList, x.2.call c)) x

theorem Reachable.calls {x : List SystemHandle × Scheduler Note} (h : Reachable x.1 x.2)
    (cs : List (Call Note)) : Reachable (calls x cs).1 (calls x cs).2 := by
  induction cs generalizing x with
  | nil => exact h
  | cons c cs ih => exact ih (h.call c)

/-! ### Plans -/

/-- What can be relied on for the plan of a phase. -/
structure Planned (issued : List SystemHandle) (s : Scheduler Note) (phase : Phase) : Prop where
  sound : PhasePlan.Sound s.systems s.config.parallel phase (s.stages phase)
  direct : issued.Nodup → ∀ i j,
    Constraints.Precedes (s.systems.map System.constraints) phase i j ↔
      ∃ a b, s.systems[i]? = some a ∧ s.systems[j]? = some b ∧ a.phase = phase ∧ b.phase = phase ∧
        (a.handle ∈ b.after ∨ b.handle ∈ a.before)
  declared : ∀ sys ∈ s.systems, ∀ h,
    (sys.access.canWrite h = true ↔ h ∈ sys.query.source.writes) ∧
      (sys.access.canRead h = true ↔ h ∈ sys.query.source.reads ∨ h ∈ sys.query.source.writes)
  fresh : PhasePlan.build s.systems s.config.parallel phase =
    .ok ⟨s.stages phase, s.diagnostics phase⟩

theorem Like.handles {s' : Scheduler Note} (h : Like s s') :
    s'.systems.map System.handle = s.systems.map System.handle := by
  have hhandle := congrArg (List.map fun x => x.1.handle) h.systems
  rwa [List.map_map, List.map_map] at hhandle

theorem call_cases (s : Scheduler Note) (c : Call Note) :
    (s.issued? c = none ∧ (s.call c).nextHandle = s.nextHandle ∧
      ((s.call c).systems.map System.handle).Sublist (s.systems.map System.handle)) ∨
    (s.issued? c = some ⟨s.nextHandle⟩ ∧ (s.call c).nextHandle = s.nextHandle + 1 ∧
      (s.call c).systems.map System.handle = s.systems.map System.handle ++ [⟨s.nextHandle⟩]) := by
  have hlike {c : Call Note} (hnone : s.issued? c = none) (hl : Like s (s.call c)) :
      s.issued? c = none ∧ (s.call c).nextHandle = s.nextHandle ∧
        ((s.call c).systems.map System.handle).Sublist (s.systems.map System.handle) :=
    ⟨hnone, hl.nextHandle, hl.handles ▸ List.Sublist.refl _⟩
  cases c with
  | register w b =>
    obtain ⟨e, he, -⟩ | ⟨sys, plan, hprepare, -, hok⟩ := s.register_cases w b
    · left
      simp [issued?, call, he, Except.toOption]
    · obtain ⟨rank, body, query, -, -, -, -, -, -, rfl⟩ := prepare_eq_ok_iff.1 hprepare
      right
      simp [issued?, call, hok, Except.toOption, withSystem, SystemBuilder.made]
  | unregister h =>
    left
    refine ⟨rfl, ?_⟩
    simp only [call, Scheduler.unregister]
    split
    · exact ⟨rfl, List.Sublist.refl _⟩
    · refine ⟨rfl, ?_⟩
      rw [List.map_map]
      exact (List.eraseIdx_sublist _ _).map System.handle
  | setEnabled h enabled => exact .inl (hlike rfl (like_setEnabled s h enabled))
  | setPaused paused => exact .inl (hlike rfl ⟨rfl, rfl, rfl, rfl, rfl⟩)
  | insertPhaseAfter anchor phase =>
    left
    simp only [call, Scheduler.insertPhaseAfter]
    split <;> exact ⟨rfl, rfl, List.Sublist.refl _⟩
  | runPhase w phase delta => exact .inl (hlike rfl (like_runPhase s w phase delta))
  | progress w delta => exact .inl (hlike rfl (like_progress s w delta))

theorem Reachable.counted (h : Reachable issued s) :
    issued = (List.range issued.length).map (fun k => ⟨.ofNat k⟩) ∧
      s.nextHandle = .ofNat issued.length ∧ (s.systems.map System.handle).Sublist issued := by
  induction h with
  | new config pipeline => exact ⟨rfl, rfl, List.Sublist.refl _⟩
  | @call issued s c _ ih =>
    obtain ⟨hissued, hnext, hsub⟩ := ih
    obtain ⟨hnone, hsame, hless⟩ | ⟨hsome, hsucc, hmore⟩ := s.call_cases c
    · rw [hnone, Option.toList_none, List.append_nil]
      exact ⟨hissued, hsame.trans hnext, hless.trans hsub⟩
    · rw [hsome, Option.toList_some, List.length_append, List.length_singleton, hmore, hsucc]
      refine ⟨?_, ?_, hsub.append (List.Sublist.refl _)⟩
      · rw [List.range_succ, List.map_append, List.map_singleton, ← hissued, ← hnext]
      · rw [hnext]
        exact (UInt64.ofNat_add _ _).symm

/-- The plan of every phase is sound and up to date. -/
theorem Reachable.planned (h : Reachable issued s) (phase : Phase) : Planned issued s phase := by
  refine ⟨.of_build (h.consistent.fresh phase), fun hn i j => ?_, fun sys hsys t => ?_,
    h.consistent.fresh phase⟩
  · exact PhasePlan.precedes_iff (hn.sublist h.counted.2.2)
  · rw [h.consistent.declared sys hsys]
    exact ⟨AccessSet.canWrite_ofTerms, AccessSet.canRead_ofTerms⟩

def idle (name : String) (after before : List SystemHandle) : SystemBuilder Unit :=
  { name, after, before, parallelSafe := true, body := some (.done (.ok ())) }

/-- Systems come, are refused, run and go. -/
def relay : List SystemHandle × Scheduler Unit :=
  calls ([], .new {} .standard)
    [.register .new (idle "out" [] []), .register .new (idle "first" [] []),
      .register .new (idle "second" [] []), .register .new (idle "last" [⟨2⟩] []),
      .register .new (idle "lost" [⟨9⟩] []), .unregister ⟨0⟩, .setPaused true,
      .insertPhaseAfter .onUpdate ⟨"Late"⟩, .setEnabled ⟨1⟩ false, .runPhase .new .onUpdate 0,
      .register .new (idle "head" [] [⟨1⟩])]

theorem reachable_relay : Reachable relay.1 relay.2 := (Reachable.new {} .standard).calls _

theorem planned_relay : relay.2.stages .onUpdate = [.parallel [1, 3], .parallel [0, 2]] ∧
    Planned relay.1 relay.2 .onUpdate :=
  ⟨by decide +kernel, reachable_relay.planned .onUpdate⟩

/-! ### Registration -/

theorem next_not_mem (n : Nat) :
    (⟨.ofNat n⟩ : SystemHandle) ∉ (List.range n).map (fun k => (⟨.ofNat k⟩ : SystemHandle)) ∨
      ∀ x : SystemHandle, x ∈ (List.range n).map (fun k => (⟨.ofNat k⟩ : SystemHandle)) := by
  by_cases hn : n < 2 ^ 64
  · left
    intro hmem
    obtain ⟨k, hk, heq⟩ := List.mem_map.1 hmem
    have hlt := List.mem_range.1 hk
    have hnat := congrArg (fun x : SystemHandle => x.raw.toNat) heq
    simp only [UInt64.toNat_ofNat'] at hnat
    rw [Nat.mod_eq_of_lt hn, Nat.mod_eq_of_lt (Nat.lt_trans hlt hn)] at hnat
    exact Nat.ne_of_lt hlt hnat
  · right
    intro x
    have hlt : x.raw.toNat < n := Nat.lt_of_lt_of_le x.raw.toNat_lt (Nat.le_of_not_lt hn)
    exact List.mem_map.2 ⟨x.raw.toNat, List.mem_range.2 hlt, by rw [UInt64.ofNat_toNat]⟩

/-- How the registration of a system ends. -/
structure Registers (issued : List SystemHandle) (s : Scheduler Note) (w : World)
    (b : SystemBuilder Note) : Prop where
  accepts : (∃ x, (s.register w b).1 = .ok x) ↔ Satisfiable s w b
  distinct : ∀ x, (s.register w b).1 = .ok x → x ∉ issued ∨ ∀ y, y ∈ issued
  rejects : ∀ e, (s.register w b).1 = .error e → (s.register w b).2 = s

/-- Exactly the systems whose demands can be met are registered; any other one changes nothing. -/
theorem Reachable.registers (h : Reachable issued s) (w : World) (b : SystemBuilder Note) :
    Registers issued s w b := by
  refine ⟨register_eq_ok_iff h.consistent.placed, fun x hx => ?_, fun e he => ?_⟩
  · obtain ⟨hissued, hnext, -⟩ := h.counted
    have hnew : x = ⟨s.nextHandle⟩ := by
      obtain ⟨e, he, -⟩ | ⟨sys, plan, hprepare, -, hok⟩ := s.register_cases w b
      · rw [he] at hx
        cases hx
      · obtain ⟨rank, body, query, -, -, -, -, -, -, rfl⟩ := prepare_eq_ok_iff.1 hprepare
        rw [hok] at hx
        cases hx
        rfl
    rw [hnew, hnext, hissued, List.length_map, List.length_range]
    exact next_not_mem issued.length
  · obtain ⟨_, herror, -⟩ | ⟨sys, plan, -, -, hok⟩ := s.register_cases w b
    · rw [herror]
    · rw [hok] at he
      cases he

theorem registers_relay :
    (relay.2.register .new (idle "loop" [⟨3⟩] [⟨2⟩])).1 = .error (.orderingCycle
      ["second", "last", "loop"]) ∧
    (relay.2.register .new (idle "tail" [⟨3⟩, ⟨1⟩] [])).1 = .ok ⟨5⟩ ∧
    Registers relay.1 relay.2 .new (idle "tail" [⟨3⟩, ⟨1⟩] []) :=
  ⟨by decide +kernel, by decide +kernel, reachable_relay.registers _ _⟩

end EntityWorld.Scheduler
