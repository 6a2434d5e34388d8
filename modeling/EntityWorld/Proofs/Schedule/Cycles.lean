import EntityWorld.Proofs.Schedule.Reachable
set_option autoImplicit false

/-!
What the refusal of a cycle says. The systems that are there have an order, so every cycle passes
through the system that is refused. The error names that system and all that would have to come
after it; these are on cycles only if each of them would have to come before it as well.
-/
namespace EntityWorld

open Relation

variable {Note : Type}

namespace Constraints

variable {nodes : List Constraints} {node : Constraints} {phase : Phase} {h : SystemHandle}
  {i j : Nat}

theorem Before.exists (hij : Before nodes phase i j) :
    (∃ c, nodes[i]? = some c ∧ c.phase = phase) ∧ ∃ c, nodes[j]? = some c ∧ c.phase = phase := by
  induction hij with
  | single hstep => exact hstep.exists
  | tail _ hstep ih => exact ⟨ih.1, hstep.exists.2⟩

/-! ### A new system -/

theorem Means.of_concat (hi : i < nodes.length) (hmeans : Means (nodes ++ [node]) phase h i) :
    Means nodes phase h i := by
  rw [means_iff] at hmeans ⊢
  rw [List.getElem?_append_left hi] at hmeans
  refine ⟨hmeans.1, fun j hj c hc => hmeans.2 j hj c ?_⟩
  rw [List.getElem?_append_left (Nat.lt_trans hj hi), hc]

theorem Precedes.of_concat (hi : i < nodes.length) (hj : j < nodes.length)
    (hij : Precedes (nodes ++ [node]) phase i j) : Precedes nodes phase i j := by
  unfold Precedes at hij
  rw [List.getElem?_append_left hi, List.getElem?_append_left hj] at hij
  obtain ⟨c, hc, hphase, h, hh, hmeans⟩ | ⟨c, hc, hphase, h, hh, hmeans⟩ := hij
  · exact .inl ⟨c, hc, hphase, h, hh, hmeans.of_concat hi⟩
  · exact .inr ⟨c, hc, hphase, h, hh, hmeans.of_concat hj⟩

theorem lt_or_eq_of_concat {c : Constraints} (hc : (nodes ++ [node])[i]? = some c) :
    i < nodes.length ∨ i = nodes.length := by
  have hlt := (List.getElem?_eq_some_iff.1 hc).1
  rw [List.length_append, List.length_singleton] at hlt
  exact Nat.lt_succ_iff_lt_or_eq.1 hlt

theorem Before.of_concat (hij : Before (nodes ++ [node]) phase i j) : Before nodes phase i j ∨
    ReflTransGen (Precedes (nodes ++ [node]) phase) i nodes.length ∧
      ReflTransGen (Precedes (nodes ++ [node]) phase) nodes.length j := by
  have hstep {j k : Nat} (hjk : Precedes (nodes ++ [node]) phase j k) :
      Precedes nodes phase j k ∨ j = nodes.length ∨ k = nodes.length := by
    obtain ⟨⟨_, hc, -⟩, _, hd, -⟩ := hjk.exists
    obtain hj | hj := lt_or_eq_of_concat hc
    · obtain hk | hk := lt_or_eq_of_concat hd
      · exact .inl (hjk.of_concat hj hk)
      · exact .inr (.inr hk)
    · exact .inr (.inl hj)
  induction hij with
  | single hedge =>
    obtain hold | rfl | rfl := hstep hedge
    · exact .inl (.single hold)
    · exact .inr ⟨.refl, .single hedge⟩
    · exact .inr ⟨.single hedge, .refl⟩
  | tail hchain hedge ih =>
    obtain ih | ⟨hto, hfrom⟩ := ih
    · obtain hold | rfl | rfl := hstep hedge
      · exact .inl (ih.tail hold)
      · exact .inr ⟨hchain.to_reflTransGen, .single hedge⟩
      · exact .inr ⟨hchain.to_reflTransGen.tail hedge, .refl⟩
    · exact .inr ⟨hto, hfrom.tail hedge⟩

theorem Acyclic.cycle_concat (hold : Acyclic nodes phase)
    (hi : Before (nodes ++ [node]) phase i i) :
    Before (nodes ++ [node]) phase i nodes.length ∧
      Before (nodes ++ [node]) phase nodes.length i := by
  obtain ⟨hto, hfrom⟩ := hi.of_concat.resolve_left (hold i)
  exact ⟨TransGen.trans_left hi hto, TransGen.trans_right hfrom hi⟩

end Constraints

namespace PhasePlan

variable {systems : List (System Note)} {parallel : Bool} {phase : Phase} {k : Nat}
  {names : List String} {e : ScheduleError}

def Named (systems : List (System Note)) (is : List Nat) (names : List String) : Prop :=
  is.map (fun i => systems[i]?.map System.name) = names.map some

/-- Distinct systems with the names are on cycles of the constraints, that at `k` among them. -/
def NamesCycle (systems : List (System Note)) (phase : Phase) (k : Nat) (names : List String) :
    Prop :=
  ∃ is : List Nat, is.Nodup ∧ Named systems is names ∧ k ∈ is ∧
    ∀ i ∈ is, Constraints.Before (systems.map System.constraints) phase i i

theorem named_filterMap {is : List Nat} (hall : ∀ i ∈ is, ∃ sys, systems[i]? = some sys) :
    Named systems is (is.filterMap fun i => systems[i]?.map System.name) := by
  rw [Named, List.map_filterMap_some_eq_filter_map_isSome, List.filter_eq_self.2]
  intro name hname
  obtain ⟨i, hi, rfl⟩ := List.mem_map.1 hname
  obtain ⟨sys, hsys⟩ := hall i hi
  rw [hsys, Option.map_some, Option.isSome_some]

theorem before_mem_members {i j : Nat}
    (hij : Constraints.Before (systems.map System.constraints) phase i j) :
    j ∈ members systems phase := mem_members_of_constraints hij.exists.2

theorem build_eq_error (h : build systems parallel phase = .error e) :
    ∃ (is : List Nat) (names : List String), e = .orderingCycle names ∧ is.Pairwise (· < ·) ∧
      Named systems is names ∧ ∀ i, i ∈ is ↔
        ∃ c, Constraints.Before (systems.map System.constraints) phase c c ∧
          ReflTransGen (Constraints.Precedes (systems.map System.constraints) phase) c i := by
  rw [build_eq] at h
  simp only at h
  split at h
  · cases h
  · refine ⟨_, _, (Except.error.inj h).symm, (List.pairwise_lt_range.filter _).filter _,
      named_filterMap fun i hi => ?_, fun i => ?_⟩
    · obtain ⟨sys, hsys, -⟩ := mem_members.1 (List.mem_filter.1 hi).1
      exact ⟨sys, hsys⟩
    · have hin (e : Nat × Nat) (he : e ∈ edges systems (members systems phase)) :
          e.1 ∈ members systems phase := fst_mem_members he
      have hstuck (hi : i ∈ members systems phase) := not_mem_layers_iff nodup_members hin hi
      simp only [before_edges, mem_edges] at hstuck
      rw [List.mem_filter, Bool.not_eq_true', List.contains_eq_mem, decide_eq_false_iff_not]
      constructor
      · intro hleft
        exact (hstuck hleft.1).1 hleft.2
      · intro hleft
        obtain ⟨c, hcycle, hlead⟩ := hleft
        have hi : i ∈ members systems phase := before_mem_members (hcycle.trans_left hlead)
        exact ⟨hi, (hstuck hi).2 ⟨c, hcycle, hlead⟩⟩

structure Blames (systems : List (System Note)) (phase : Phase) (k : Nat) (names : List String) :
    Prop where
  cycle : Constraints.Before (systems.map System.constraints) phase k k
  /-- The system is named, and all that would have to come after it, in their order. -/
  named : ∃ is : List Nat, is.Pairwise (· < ·) ∧ Named systems is names ∧ ∀ i, i ∈ is ↔
    Constraints.Before (systems.map System.constraints) phase k i
  names_iff : NamesCycle systems phase k names ↔
    ∀ i, Constraints.Before (systems.map System.constraints) phase k i →
      Constraints.Before (systems.map System.constraints) phase i k

theorem Named.namesCycle_iff {is : List Nat} (hnamed : Named systems is names) (hn : is.Nodup)
    (hcycle : ∀ i, Constraints.Before (systems.map System.constraints) phase i i → i ∈ is) :
    NamesCycle systems phase k names ↔
      k ∈ is ∧ ∀ i ∈ is, Constraints.Before (systems.map System.constraints) phase i i := by
  refine ⟨fun hnames => ?_, fun hall => ⟨is, hn, hnamed, hall.1, hall.2⟩⟩
  obtain ⟨js, hjn, hjnamed, hk, hall⟩ := hnames
  have hlen : is.length = js.length := by
    have heq := congrArg List.length (hnamed.trans hjnamed.symm)
    rwa [List.length_map, List.length_map] at heq
  have hperm : js.Perm is :=
    (hjn.subperm fun i hi => hcycle i (hall i hi)).perm_of_length_le (Nat.le_of_eq hlen)
  exact ⟨hperm.mem_iff.1 hk, fun i hi => hall i (hperm.mem_iff.2 hi)⟩

theorem cycle_through {sys : System Note} {plan : PhasePlan} {i : Nat}
    (hold : build systems parallel phase = .ok plan)
    (hi : Constraints.Before ((systems ++ [sys]).map System.constraints) phase i i) :
    Constraints.Before ((systems ++ [sys]).map System.constraints) phase i systems.length ∧
      Constraints.Before ((systems ++ [sys]).map System.constraints) phase systems.length i := by
  rw [List.map_append, List.map_singleton] at hi ⊢
  have hboth := (build_eq_ok hold).1.cycle_concat hi
  rwa [List.length_map] at hboth

theorem exists_cycle (h : build systems parallel phase = .error e) :
    ∃ i, Constraints.Before (systems.map System.constraints) phase i i := by
  by_contra hnone
  obtain ⟨plan, hplan⟩ := exists_build_iff.2 (not_exists.1 hnone)
  rw [h] at hplan
  cases hplan

theorem blames_of_build {sys : System Note} {plan : PhasePlan}
    (hold : build systems parallel phase = .ok plan)
    (hnew : build (systems ++ [sys]) parallel phase = .error e) :
    ∃ names, e = .orderingCycle names ∧
      Blames (systems ++ [sys]) phase systems.length names := by
  obtain ⟨is, names, rfl, hsorted, hnamed, hmem⟩ := build_eq_error hnew
  obtain ⟨c, hc⟩ := exists_cycle hnew
  have hcycle := (cycle_through hold hc).2.trans (cycle_through hold hc).1
  have hafter (i : Nat) : i ∈ is ↔
      Constraints.Before ((systems ++ [sys]).map System.constraints) phase systems.length i := by
    rw [hmem]
    constructor
    · intro hstuck
      obtain ⟨c, hc, hlead⟩ := hstuck
      exact (cycle_through hold hc).2.trans_left hlead
    · intro hi
      exact ⟨systems.length, hcycle, hi.to_reflTransGen⟩
  refine ⟨names, rfl, hcycle, ⟨is, hsorted, hnamed, hafter⟩, ?_⟩
  rw [hnamed.namesCycle_iff (hsorted.imp Nat.ne_of_lt) fun i hi =>
    (hafter i).2 (cycle_through hold hi).2, and_iff_right ((hafter _).2 hcycle)]
  constructor
  · intro hall i hi
    exact (cycle_through hold (hall i ((hafter i).2 hi))).1
  · intro hback i hi
    have hfrom := (hafter i).1 hi
    exact (hback i hfrom).trans hfrom

end PhasePlan

namespace Scheduler

variable {s : Scheduler Note} {issued : List SystemHandle} {w : World} {b : SystemBuilder Note}
  {sys : System Note} {e : ScheduleError}

theorem build_of_register (hsys : s.prepare w b = .ok sys) (he : (s.register w b).1 = .error e) :
    PhasePlan.build (s.systems ++ [sys]) s.config.parallel sys.phase = .error e := by
  unfold register at he
  simp only [hsys] at he
  split at he
  · next hbuild => rw [hbuild, Except.error.inj he]
  · cases he

/-- A system that is refused for its constraints is on a cycle. The error names it and all that
would have to come after it, so it names a cycle only if all of that has to come before it too. -/
theorem Reachable.refusal_blames (h : Reachable issued s) (hsys : s.prepare w b = .ok sys)
    (he : (s.register w b).1 = .error e) : ∃ names, e = .orderingCycle names ∧
      PhasePlan.Blames (s.systems ++ [sys]) sys.phase s.systems.length names :=
  PhasePlan.blames_of_build (h.consistent.fresh sys.phase) (build_of_register hsys he)

theorem refusal_blames_relay : ∃ sys : System Unit,
    relay.2.prepare .new (idle "loop" [⟨3⟩] [⟨2⟩]) = .ok sys ∧
      (relay.2.register .new (idle "loop" [⟨3⟩] [⟨2⟩])).1 =
        .error (.orderingCycle ["second", "last", "loop"]) ∧
      PhasePlan.Blames (relay.2.systems ++ [sys]) sys.phase relay.2.systems.length
        ["second", "last", "loop"] := by
  obtain ⟨sys, hsys⟩ : ∃ sys, relay.2.prepare .new (idle "loop" [⟨3⟩] [⟨2⟩]) = .ok sys := ⟨_, rfl⟩
  have hrefused : (relay.2.register .new (idle "loop" [⟨3⟩] [⟨2⟩])).1 =
      .error (.orderingCycle ["second", "last", "loop"]) := by decide +kernel
  obtain ⟨names, hnames, hblames⟩ := reachable_relay.refusal_blames hsys hrefused
  obtain rfl := ScheduleError.orderingCycle.inj hnames
  exact ⟨sys, hsys, hrefused, hblames⟩

def queue : List SystemHandle × Scheduler Unit :=
  calls ([], .new {} .standard)
    [.register .new (idle "a" [] []), .register .new (idle "b" [⟨0⟩] [])]

/-- A third system that would come both after and before the first one. -/
def wedge : System Unit := (idle "c" [⟨0⟩] [⟨0⟩]).made ⟨2⟩ (.done (.ok ())) ⟨[], [], [], 0⟩

theorem not_before_queue (i : Nat) : ¬ Constraints.Before
    ((queue.2.systems ++ [wedge]).map System.constraints) .onUpdate 1 i := by
  have hedges : PhasePlan.edges (queue.2.systems ++ [wedge])
      (PhasePlan.members (queue.2.systems ++ [wedge]) .onUpdate) = [(0, 1), (0, 2), (2, 0)] := by
    decide +kernel
  intro hbefore
  obtain ⟨j, hfirst, -⟩ := TransGen.head'_iff.1 hbefore
  rw [← PhasePlan.mem_edges, hedges] at hfirst
  simp at hfirst

/-- A system that only waits for one on the cycle is named with it. -/
theorem bystander_named : ∃ (issued : List SystemHandle) (s : Scheduler Unit)
    (b : SystemBuilder Unit) (sys : System Unit) (names : List String),
    Reachable issued s ∧ s.prepare .new b = .ok sys ∧
      (s.register .new b).1 = .error (.orderingCycle names) ∧
      ¬ PhasePlan.NamesCycle (s.systems ++ [sys]) sys.phase s.systems.length names := by
  refine ⟨queue.1, queue.2, idle "c" [⟨0⟩] [⟨0⟩], wedge, ["a", "b", "c"],
    (Reachable.new {} .standard).calls _, rfl, by decide +kernel, fun hnames => ?_⟩
  obtain ⟨is, -, hnamed, -, hall⟩ := hnames
  have hmem : some "b" ∈ is.map fun i => (queue.2.systems ++ [wedge])[i]?.map System.name := by
    rw [hnamed]
    simp
  obtain ⟨i, hi, hname⟩ := List.mem_map.1 hmem
  have hone : i = 1 := by
    have hnamed : (queue.2.systems ++ [wedge]).map System.name = ["a", "b", "c"] := by
      decide +kernel
    rw [← List.getElem?_map, hnamed] at hname
    match i, hname with
    | 1, _ => rfl
    | i + 3, hname => simp at hname
  exact not_before_queue 1 (hone ▸ hall i hi)

end Scheduler
end EntityWorld
