import EntityWorld.Proofs.Host.Loading
set_option autoImplicit false

/-!
What loaded modules can rely on. A module is loaded after those it depends on, and none of these
goes before it does. So modules can be taken down from the end of the order of loading, and nothing
ever has to be dropped by force.
-/
namespace EntityWorld

variable {Note : Type}

namespace Loader

def registered : Loader Note → World → Scheduler Note → List SystemHandle
  | done _, _, _ => []
  | registerType d next, w, s => (next (w.registerType d).1).registered (w.registerType d).2 s
  | registerSystem b next, w, s =>
    (s.register w b).1.toOption.toList ++ (next (s.register w b).1).registered w (s.register w b).2
  | useWorld f next, w, s => (next (f w)).registered (f w) s
  | useScheduler f next, w, s => (next (f s)).registered w (f s)
  | tell _ next, w, s => next.registered w s

theorem systems_run (p : Loader Note) (l : Loading Note) :
    (p.run l).2.systems = l.systems ++ p.registered l.world l.scheduler := by
  induction p generalizing l with
  | done result => exact (List.append_nil _).symm
  | registerType d next ih => exact ih _ _
  | registerSystem b next ih =>
    simp only [run, registered]
    cases hb : l.scheduler.register l.world b with
    | mk result s =>
      cases result with
      | ok h => exact (ih _ _).trans (List.append_assoc _ _ _)
      | error e => exact ih _ _
  | useWorld f next ih => exact ih _ _
  | useScheduler f next ih => exact ih _ _
  | tell n next ih => exact ih _

end Loader

namespace ModuleRegistry

variable {m : ModuleRegistry Note} {w : World} {s : Scheduler Note} {name : String}
  {l : List (LoadedModule Note)} {entry : LoadedModule Note}

/-- Registries that loads and unloads lead to, each of them with any world and any scheduler. -/
inductive Reachable : ModuleRegistry Note → Prop where
  | empty : Reachable .empty
  | load {m : ModuleRegistry Note} (w : World) (s : Scheduler Note) (mod : Module Note) :
      Reachable m → Reachable (m.load w s mod).modules
  | unload {m : ModuleRegistry Note} (w : World) (s : Scheduler Note) (name : String) :
      Reachable m → Reachable (m.unload w s name).modules
  | unloadAll {m : ModuleRegistry Note} (w : World) (s : Scheduler Note) :
      Reachable m → Reachable (m.unloadAll w s).1

/-! ### Built from the ground -/

/-- Modules of which each has a new name, and depends on earlier ones alone. -/
inductive Grounded : List (LoadedModule Note) → Prop where
  | nil : Grounded []
  | concat {l : List (LoadedModule Note)} {entry : LoadedModule Note} (h : Grounded l)
      (hnew : entry.name ∉ l.map LoadedModule.name)
      (hearlier : ∀ d ∈ entry.dependencies, d ∈ l.map LoadedModule.name) : Grounded (l ++ [entry])

namespace Grounded

theorem nodup (h : Grounded l) : (l.map LoadedModule.name).Nodup := by
  induction h with
  | nil => exact .nil
  | concat _ hnew _ ih =>
    rw [List.map_append, List.map_singleton]
    exact List.nodup_append.2 ⟨ih, List.nodup_singleton _, fun x hx y hy heq =>
      hnew (List.mem_singleton.1 hy ▸ heq ▸ hx)⟩

theorem earlier (h : Grounded l) {before after : List (LoadedModule Note)}
    (hl : l = before ++ entry :: after) {d : String} (hd : d ∈ entry.dependencies) :
    d ∈ before.map LoadedModule.name := by
  induction h generalizing after with
  | nil => simp at hl
  | @concat l last _ _ hearlier ih =>
    obtain rfl | ⟨rest, x, rfl⟩ := List.eq_nil_or_concat' after
    · obtain ⟨rfl, hlast⟩ := List.append_inj' hl rfl
      cases hlast
      exact hearlier d hd
    · rw [← List.cons_append, ← List.append_assoc] at hl
      exact ih (List.append_inj' hl rfl).1

theorem mem_of_dependency (h : Grounded l) (hentry : entry ∈ l) {d : String}
    (hd : d ∈ entry.dependencies) : d ∈ l.map LoadedModule.name := by
  obtain ⟨before, after, hl⟩ := List.append_of_mem hentry
  rw [hl, List.map_append]
  exact List.mem_append_left _ (h.earlier hl hd)

theorem filter (h : Grounded l) (hfree : ∀ entry ∈ l, name ∉ entry.dependencies) :
    Grounded (l.filter fun entry => entry.name ≠ name) := by
  induction h with
  | nil => exact .nil
  | @concat l last _ hnew hearlier ih =>
    have hrest := ih fun entry hentry => hfree entry (List.mem_append_left _ hentry)
    rw [List.filter_append]
    by_cases hlast : last.name = name
    · rwa [List.filter_cons_of_neg (by simpa using hlast), List.filter_nil, List.append_nil]
    · rw [List.filter_cons_of_pos (by simpa using hlast), List.filter_nil]
      refine hrest.concat (fun hmem => hnew ?_) fun d hd => ?_
      · exact (List.filter_sublist.map LoadedModule.name).subset hmem
      · obtain ⟨other, hother, rfl⟩ := List.mem_map.1 (hearlier d hd)
        have hne : other.name ≠ name := fun heq =>
          hfree last (List.mem_append_right _ (List.mem_singleton_self last)) (heq ▸ hd)
        exact List.mem_map_of_mem (List.mem_filter.2 ⟨hother, decide_eq_true hne⟩)

end Grounded

/-! ### Unloading -/

theorem isLoaded_iff : m.isLoaded name = true ↔ name ∈ m.names := by
  simp [isLoaded, find?, names]

theorem dependents_eq_nil_iff :
    m.dependents name = [] ↔ ∀ entry ∈ m.loaded, name ∉ entry.dependencies := by
  simp [dependents, List.filter_eq_nil_iff]

theorem unload_cases (m : ModuleRegistry Note) (w : World) (s : Scheduler Note) (name : String) :
    (name ∉ m.names ∧ m.unload w s name = ⟨.error (.unknownModule name), m, w, s, []⟩) ∨
    (m.dependents name ≠ [] ∧
      m.unload w s name = ⟨.error (.moduleInUse name (m.dependents name)), m, w, s, []⟩) ∨
    (m.dependents name = [] ∧ ∃ i entry, m.loaded[i]? = some entry ∧ entry.name = name ∧
      m.unload w s name = ⟨.ok (), ⟨m.loaded.eraseIdx i⟩, (entry.unload w).1,
        s.unregisterAll entry.systems, (entry.unload w).2⟩) := by
  cases hi : m.loaded.findIdx? fun l => l.name == name with
  | none =>
    left
    refine ⟨fun hname => ?_, by simp only [unload, hi]⟩
    obtain ⟨entry, hentry, rfl⟩ := List.mem_map.1 hname
    simpa using List.findIdx?_eq_none_iff.1 hi entry hentry
  | some i =>
    right
    by_cases hfree : m.dependents name = []
    · right
      obtain ⟨hlt, hname, -⟩ := List.findIdx?_eq_some_iff_getElem.1 hi
      have hentry : m.loaded[i]? = some m.loaded[i] := List.getElem?_eq_getElem hlt
      refine ⟨hfree, i, m.loaded[i], hentry, eq_of_beq hname, ?_⟩
      simp only [unload, hi, hfree, hentry]
      rfl
    · left
      refine ⟨hfree, ?_⟩
      simp [unload, hi, hfree]

theorem unload_ok_iff : (m.unload w s name).result = .ok () ↔
    m.isLoaded name = true ∧ ∀ entry ∈ m.loaded, name ∉ entry.dependencies := by
  rw [isLoaded_iff, ← dependents_eq_nil_iff]
  obtain ⟨hno, hunload⟩ | ⟨hused, hunload⟩ | ⟨hfree, i, entry, hentry, rfl, hunload⟩ :=
    m.unload_cases w s name
  · rw [hunload]
    exact iff_of_false nofun fun h => hno h.1
  · rw [hunload]
    exact iff_of_false nofun fun h => hused h.2
  · rw [hunload]
    exact iff_of_true rfl ⟨List.mem_map_of_mem (List.mem_of_getElem? hentry), hfree⟩

theorem Grounded.unload (h : Grounded m.loaded) (hok : (m.unload w s name).result = .ok ()) :
    ∃ entry ∈ m.loaded, entry.name = name ∧ m.unload w s name =
      ⟨.ok (), ⟨m.loaded.filter fun l => l.name ≠ name⟩, (entry.unload w).1,
        s.unregisterAll entry.systems, (entry.unload w).2⟩ := by
  obtain ⟨-, hunload⟩ | ⟨-, hunload⟩ | ⟨-, i, entry, hentry, rfl, hunload⟩ :=
    m.unload_cases w s name
  · rw [hunload] at hok
    cases hok
  · rw [hunload] at hok
    cases hok
  · refine ⟨entry, List.mem_of_getElem? hentry, rfl, ?_⟩
    rw [hunload, eraseIdx_eq_filter h.nodup hentry]

/-! ### Unloading all -/

inductive Unloads : List String → ModuleRegistry Note → World → Scheduler Note →
    ModuleRegistry Note × World × Scheduler Note × List Note → Prop where
  | nil (m : ModuleRegistry Note) (w : World) (s : Scheduler Note) : Unloads [] m w s (m, w, s, [])
  | cons {m m' : ModuleRegistry Note} {w w' : World} {s s' : Scheduler Note} {notes : List Note}
      {name : String} {names : List String} (hok : (m.unload w s name).result = .ok ())
      (h : Unloads names (m.unload w s name).modules (m.unload w s name).world
        (m.unload w s name).scheduler (m', w', s', notes)) :
      Unloads (name :: names) m w s (m', w', s', (m.unload w s name).notes ++ notes)

theorem Grounded.unloadLast (h : Grounded l) (w : World) (s : Scheduler Note) :
    Unloads (l.map LoadedModule.name).reverse ⟨l⟩ w s
        (ModuleRegistry.unloadLast l.length ⟨l⟩ w s) ∧
      (ModuleRegistry.unloadLast l.length ⟨l⟩ w s).1 = .empty := by
  induction h generalizing w s with
  | nil => exact ⟨.nil _ w s, rfl⟩
  | @concat l last h hnew hearlier ih =>
    have hall := h.concat hnew hearlier
    have hok : (ModuleRegistry.unload ⟨l ++ [last]⟩ w s last.name).result = .ok () := by
      refine unload_ok_iff.2 ⟨isLoaded_iff.2 ?_, fun entry hentry hd => hnew ?_⟩
      · simp [names]
      · obtain hentry | hentry := List.mem_append.1 hentry
        · exact h.mem_of_dependency hentry hd
        · exact hearlier _ (List.mem_singleton.1 hentry ▸ hd)
    have hmodules : (ModuleRegistry.unload ⟨l ++ [last]⟩ w s last.name).modules = ⟨l⟩ := by
      obtain ⟨entry, -, -, hunload⟩ := hall.unload hok
      have hkept : l.filter (fun entry => entry.name ≠ last.name) = l :=
        List.filter_eq_self.2 fun entry hentry => decide_eq_true fun heq =>
          hnew (heq ▸ List.mem_map_of_mem hentry)
      rw [hunload, List.filter_append, hkept, List.filter_cons_of_neg (by simp), List.filter_nil,
        List.append_nil]
    obtain ⟨hchain, hempty⟩ := ih (ModuleRegistry.unload ⟨l ++ [last]⟩ w s last.name).world
      (ModuleRegistry.unload ⟨l ++ [last]⟩ w s last.name).scheduler
    have hlast : (l ++ [last]).getLast? = some last := List.getLast?_concat
    rw [List.length_append, List.length_singleton, List.map_append, List.reverse_append]
    simp only [ModuleRegistry.unloadLast, hlast, hok, hmodules]
    refine ⟨.cons hok ?_, hempty⟩
    rw [hmodules]
    exact hchain

/-! ### Along a run -/

def Genuine (entry : LoadedModule Note) : Prop :=
  ∃ w s, ∃ mod : Module Note, (mod.load.run ⟨w, s, [], []⟩).1 = .ok () ∧
    entry = ⟨mod.name, mod.dependencies, mod.load.registered w s, mod.unload⟩

theorem Grounded.load (h : Grounded m.loaded) (hall : ∀ entry ∈ m.loaded, Genuine entry) (w : World)
    (s : Scheduler Note) (mod : Module Note) : Grounded (m.load w s mod).modules.loaded ∧
      ∀ entry ∈ (m.load w s mod).modules.loaded, Genuine entry := by
  obtain ⟨-, hload⟩ | ⟨-, d, hload⟩ | ⟨hnew, hknown, l, ⟨hrun, hload⟩ | ⟨e, -, hload⟩⟩ :=
    m.load_cases w s mod
  · rw [hload]
    exact ⟨h, hall⟩
  · rw [hload]
    exact ⟨h, hall⟩
  · have hsystems := mod.load.systems_run ⟨w, s, [], []⟩
    rw [hrun, List.nil_append] at hsystems
    rw [hload]
    refine ⟨h.concat (fun hmem => ?_) fun d hd => isLoaded_iff.1 (hknown d hd),
      fun entry hentry => ?_⟩
    · rw [isLoaded_iff.2 hmem] at hnew
      cases hnew
    · obtain hentry | hentry := List.mem_append.1 hentry
      · exact hall entry hentry
      · rw [List.mem_singleton.1 hentry]
        exact ⟨w, s, mod, by rw [hrun], by rw [← hsystems]⟩
  · rw [hload]
    exact ⟨h, hall⟩

end ModuleRegistry
end EntityWorld
