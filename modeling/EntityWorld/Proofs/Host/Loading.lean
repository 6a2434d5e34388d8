import EntityWorld.Proofs.Schedule.Withdrawal
set_option autoImplicit false

/-!
Loads that fail. A module that uses the scheduler for nothing but the registration of its systems
adds them behind the others, and when its load fails, the scheduler is as it was before.
-/
namespace EntityWorld

variable {Note : Type}

open Scheduler (Reachable Restored)

namespace Loader

/-- The scheduler is used for the registration of systems alone; it may be looked at as well. -/
def Orderly : Loader Note → Prop
  | done _ => True
  | registerType _ next => ∀ r, (next r).Orderly
  | registerSystem _ next => ∀ r, (next r).Orderly
  | useWorld _ next => ∀ w, (next w).Orderly
  | useScheduler f next => f = id ∧ ∀ s, (next s).Orderly
  | tell _ next => next.Orderly

variable {issued : List SystemHandle} {l l' l'' : Loading Note} {added more : List (System Note)}

structure Adds (issued : List SystemHandle) (l : Loading Note) (added : List (System Note))
    (l' : Loading Note) : Prop where
  reachable : Reachable (issued ++ added.map System.handle) l'.scheduler
  scheduler : l'.scheduler = { l.scheduler with
    systems := l.scheduler.systems ++ added
    plans := l'.scheduler.plans
    nextHandle := l'.scheduler.nextHandle }
  systems : l'.systems = l.systems ++ added.map System.handle

namespace Adds

theorem refl (hr : Reachable issued l.scheduler) : Adds issued l [] l := by
  refine ⟨?_, ?_, ?_⟩
  · rwa [List.map_nil, List.append_nil]
  · rw [List.append_nil]
  · rw [List.map_nil, List.append_nil]

theorem of_same (h : Adds issued l' added l'') (hscheduler : l'.scheduler = l.scheduler)
    (hsystems : l'.systems = l.systems) : Adds issued l added l'' :=
  ⟨h.reachable, hscheduler ▸ h.scheduler, hsystems ▸ h.systems⟩

theorem trans (h : Adds issued l added l')
    (h' : Adds (issued ++ added.map System.handle) l' more l'') :
    Adds issued l (added ++ more) l'' := by
  refine ⟨?_, ?_, ?_⟩
  · rw [List.map_append, ← List.append_assoc]
    exact h'.reachable
  · rw [h'.scheduler, h.scheduler, List.append_assoc]
  · rw [h'.systems, h.systems, List.map_append, List.append_assoc]

end Adds

theorem register_adds (hr : Reachable issued l.scheduler) (b : SystemBuilder Note) :
    (∃ e, l.scheduler.register l.world b = (.error e, l.scheduler)) ∨
    ∃ sys s, l.scheduler.register l.world b = (.ok sys.handle, s) ∧
      Adds issued l [sys] { l with scheduler := s, systems := l.systems ++ [sys.handle] } := by
  have hcall := hr.call (.register l.world b)
  obtain ⟨e, he, -⟩ | ⟨sys, plan, -, -, hok⟩ := l.scheduler.register_cases l.world b
  · exact .inl ⟨e, he⟩
  · refine .inr ⟨sys, _, hok, ?_, rfl, rfl⟩
    simp only [Scheduler.issued?, Scheduler.call, hok] at hcall
    exact hcall

theorem Orderly.run {p : Loader Note} (hp : p.Orderly) (hr : Reachable issued l.scheduler) :
    ∃ added, Adds issued l added (p.run l).2 := by
  induction p generalizing l issued with
  | done result => exact ⟨[], .refl hr⟩
  | registerType d next ih =>
    obtain ⟨added, hadds⟩ := ih _ (hp _) (l := { l with world := (l.world.registerType d).2 }) hr
    exact ⟨added, hadds.of_same rfl rfl⟩
  | registerSystem b next ih =>
    obtain ⟨e, he⟩ | ⟨sys, s, hs, hadds⟩ := register_adds hr b
    · simp only [Loader.run, he]
      exact ih _ (hp _) hr
    · simp only [Loader.run, hs]
      obtain ⟨more, hmore⟩ := ih (.ok sys.handle) (hp _) hadds.reachable
      exact ⟨[sys] ++ more, hadds.trans hmore⟩
  | useWorld f next ih =>
    obtain ⟨added, hadds⟩ := ih _ (hp _) (l := { l with world := f l.world }) hr
    exact ⟨added, hadds.of_same rfl rfl⟩
  | useScheduler f next ih =>
    obtain ⟨rfl, hnext⟩ := hp
    exact ih _ (hnext _) hr
  | tell n next ih =>
    obtain ⟨added, hadds⟩ := ih hp (l := { l with notes := l.notes ++ [n] }) hr
    exact ⟨added, hadds.of_same rfl rfl⟩

end Loader

namespace ModuleRegistry

variable {m : ModuleRegistry Note} {w : World} {s : Scheduler Note} {mod : Module Note}
  {issued : List SystemHandle} {e : BridgeError}

/-- A load is refused and nothing is done, or the module's loader is run and succeeds or fails. -/
theorem load_cases (m : ModuleRegistry Note) (w : World) (s : Scheduler Note) (mod : Module Note) :
    (m.isLoaded mod.name = true ∧
      m.load w s mod = ⟨.error (.duplicateModule mod.name), m, w, s, []⟩) ∨
    (m.isLoaded mod.name = false ∧
      ∃ d, m.load w s mod = ⟨.error (.missingDependency mod.name d), m, w, s, []⟩) ∨
    (m.isLoaded mod.name = false ∧ (∀ d ∈ mod.dependencies, m.isLoaded d = true) ∧
      ∃ l, (mod.load.run ⟨w, s, [], []⟩ = (.ok (), l) ∧ m.load w s mod =
          ⟨.ok (), ⟨m.loaded ++ [⟨mod.name, mod.dependencies, l.systems, mod.unload⟩]⟩, l.world,
            l.scheduler, l.notes⟩) ∨
        ∃ e, mod.load.run ⟨w, s, [], []⟩ = (.error e, l) ∧ m.load w s mod =
          ⟨.error e, m, l.world, l.scheduler.unregisterAll l.systems, l.notes⟩) := by
  cases hloaded : m.isLoaded mod.name with
  | true =>
    left
    exact ⟨rfl, by rw [load, if_pos hloaded]⟩
  | false =>
    right
    cases hdependency : mod.dependencies.find? fun d => !m.isLoaded d with
    | some d =>
      left
      refine ⟨rfl, d, ?_⟩
      simp only [load, hloaded, hdependency, Bool.false_eq_true, if_false]
    | none =>
      right
      refine ⟨rfl, fun d hd => by simpa using List.find?_eq_none.1 hdependency d hd, ?_⟩
      cases hrun : mod.load.run ⟨w, s, [], []⟩ with
      | mk result l =>
        refine ⟨l, ?_⟩
        cases result with
        | ok done =>
          left
          refine ⟨rfl, ?_⟩
          simp only [load, hloaded, hdependency, hrun, Bool.false_eq_true, if_false]
        | error e =>
          right
          refine ⟨e, rfl, ?_⟩
          simp only [load, hloaded, hdependency, hrun, Bool.false_eq_true, if_false]

/-- The load of a module changes neither the loaded modules nor what is left of the scheduler. A
module of the name is loaded then only if it was before, and in this case nothing has been done. -/
structure Undone (m : ModuleRegistry Note) (w : World) (s : Scheduler Note) (mod : Module Note) :
    Prop where
  scheduler : Restored s (m.load w s mod).scheduler
  modules : (m.load w s mod).modules = m
  loaded : m.isLoaded mod.name = true →
    m.load w s mod = ⟨.error (.duplicateModule mod.name), m, w, s, []⟩

/-- If the load of an orderly module fails, it is undone as long as there is a handle for each
system that was ever registered. -/
theorem load_undone (hr : Reachable issued s) (hp : mod.load.Orderly)
    (hroom : issued.length + (mod.load.run ⟨w, s, [], []⟩).2.systems.length ≤ 2 ^ 64)
    (hfail : (m.load w s mod).result = .error e) : m.Undone w s mod := by
  obtain ⟨-, hload⟩ | ⟨hno, d, hload⟩ | ⟨hno, -, l, ⟨-, hload⟩ | ⟨cause, hrun, hload⟩⟩ :=
    m.load_cases w s mod
  · exact ⟨hload ▸ .refl s, by rw [hload], fun _ => hload⟩
  · exact ⟨hload ▸ .refl s, by rw [hload], fun h => by rw [hno] at h; cases h⟩
  · rw [hload] at hfail
    cases hfail
  · obtain ⟨added, hadds⟩ := hp.run (l := ⟨w, s, [], []⟩) hr
    rw [hrun] at hadds hroom
    have hsystems : l.systems = added.map System.handle := hadds.systems
    have hn : (l.scheduler.systems.map System.handle).Nodup := by
      refine hadds.reachable.nodup_handles ?_
      rwa [List.length_append, ← hsystems]
    refine ⟨?_, by rw [hload], fun h => by rw [hno] at h; cases h⟩
    rw [hload, hsystems]
    exact hr.restored hadds.reachable hadds.scheduler hn

/-- A module that gives up after it has registered two systems in the middle of others, one of them
after the other, and failed to register a third one. -/
def hasty : Module Unit where
  name := "hasty"
  dependencies := []
  load :=
    .registerSystem (Scheduler.idle "own" [⟨1⟩] [⟨2⟩]) fun _ =>
    .registerSystem (Scheduler.idle "mate" [⟨5⟩] []) fun _ =>
    .registerSystem { name := "dumb" } fun r =>
    .done (match r with
      | .ok _ => .ok ()
      | .error cause => .error (.schedule cause))
  unload w := (w, [])

theorem load_undone_hasty : Reachable Scheduler.relay.1 Scheduler.relay.2 ∧ hasty.load.Orderly ∧
    (hasty.load.run ⟨.new, Scheduler.relay.2, [], []⟩).2.systems = [⟨5⟩, ⟨6⟩] ∧
    (ModuleRegistry.empty.load .new Scheduler.relay.2 hasty).result =
      .error (.schedule (.missingCallback "dumb")) ∧
    ModuleRegistry.empty.Undone .new Scheduler.relay.2 hasty := by
  have hp : hasty.load.Orderly := fun _ _ _ => trivial
  have hroom : Scheduler.relay.1.length +
      (hasty.load.run ⟨.new, Scheduler.relay.2, [], []⟩).2.systems.length ≤ 2 ^ 64 := by
    decide +kernel
  have hfail : (ModuleRegistry.empty.load .new Scheduler.relay.2 hasty).result =
      .error (.schedule (.missingCallback "dumb")) := by decide +kernel
  exact ⟨Scheduler.reachable_relay, hp, by decide +kernel, hfail,
    load_undone Scheduler.reachable_relay hp hroom hfail⟩

end ModuleRegistry
end EntityWorld
