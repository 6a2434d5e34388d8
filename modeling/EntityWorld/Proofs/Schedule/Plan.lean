import EntityWorld.Proofs.Schedule.AccessSet
import EntityWorld.Proofs.Schedule.Layers
import Mathlib.Data.List.Pairwise
set_option autoImplicit false

/-!
What a plan promises. A phase has a plan exactly if its constraints make no cycle. The plan has
every system of the phase once, keeps the order that the constraints demand, and only puts systems
side by side that do not depend on each other.
-/
namespace EntityWorld

open Relation

variable {Note : Type}

structure Constraints where
  handle : SystemHandle
  phase : Phase
  after : List SystemHandle
  before : List SystemHandle

def System.constraints (s : System Note) : Constraints := ⟨s.handle, s.phase, s.after, s.before⟩

namespace Constraints

variable {nodes : List Constraints} {phase : Phase} {h : SystemHandle} {i j : Nat}

/-- A handle means the first system of the phase that has it. -/
def Means (nodes : List Constraints) (phase : Phase) (h : SystemHandle) (i : Nat) : Prop :=
  nodes.findIdx? (fun c => c.phase == phase && c.handle == h) = some i

/-- A constraint of one of two systems of a phase demands that `i` comes before `j`. -/
def Precedes (nodes : List Constraints) (phase : Phase) (i j : Nat) : Prop :=
  (∃ c, nodes[j]? = some c ∧ c.phase = phase ∧ ∃ h ∈ c.after, Means nodes phase h i) ∨
    ∃ c, nodes[i]? = some c ∧ c.phase = phase ∧ ∃ h ∈ c.before, Means nodes phase h j

def Before (nodes : List Constraints) (phase : Phase) : Nat → Nat → Prop :=
  TransGen (Precedes nodes phase)

def Acyclic (nodes : List Constraints) (phase : Phase) : Prop := ∀ i, ¬ Before nodes phase i i

theorem means_iff : Means nodes phase h i ↔
    (∃ c, nodes[i]? = some c ∧ c.phase = phase ∧ c.handle = h) ∧
      ∀ j < i, ∀ c, nodes[j]? = some c → c.phase = phase → c.handle ≠ h := by
  simp only [Means, List.findIdx?_eq_some_iff_getElem, Bool.and_eq_true, beq_iff_eq,
    List.getElem?_eq_some_iff]
  constructor
  · intro hfirst
    obtain ⟨hlt, hi, hmin⟩ := hfirst
    refine ⟨⟨_, ⟨hlt, rfl⟩, hi⟩, fun j hj c hc => ?_⟩
    obtain ⟨-, rfl⟩ := hc
    exact fun hphase hh => hmin j hj ⟨hphase, hh⟩
  · intro hfirst
    obtain ⟨⟨c, ⟨hlt, rfl⟩, hi⟩, hmin⟩ := hfirst
    exact ⟨hlt, hi, fun j hj hboth => hmin j hj _ ⟨Nat.lt_trans hj hlt, rfl⟩ hboth.1 hboth.2⟩

theorem Means.exists (hmeans : Means nodes phase h i) :
    ∃ c, nodes[i]? = some c ∧ c.phase = phase := by
  obtain ⟨⟨c, hc, hphase, -⟩, -⟩ := means_iff.1 hmeans
  exact ⟨c, hc, hphase⟩

theorem Precedes.exists (hij : Precedes nodes phase i j) :
    (∃ c, nodes[i]? = some c ∧ c.phase = phase) ∧ ∃ c, nodes[j]? = some c ∧ c.phase = phase := by
  obtain ⟨c, hc, hphase, h, -, hmeans⟩ | ⟨c, hc, hphase, h, -, hmeans⟩ := hij
  · exact ⟨hmeans.exists, c, hc, hphase⟩
  · exact ⟨⟨c, hc, hphase⟩, hmeans.exists⟩

theorem means_of_nodup (hn : (nodes.map handle).Nodup) : Means nodes phase h i ↔
    ∃ c, nodes[i]? = some c ∧ c.phase = phase ∧ c.handle = h := by
  rw [means_iff]
  refine and_iff_left_of_imp fun hi j hj d hd _ hdh => ?_
  obtain ⟨c, hc, -, rfl⟩ := hi
  have hsame : (nodes.map handle)[j]? = (nodes.map handle)[i]? := by
    rw [List.getElem?_map, List.getElem?_map, hc, hd, Option.map_some, Option.map_some, hdh]
  have hlen : j < (nodes.map handle).length := by
    rw [List.length_map]
    exact (List.getElem?_eq_some_iff.1 hd).1
  exact Nat.ne_of_lt hj ((List.getElem?_inj hlen hn).1 hsame)

theorem precedes_of_nodup (hn : (nodes.map handle).Nodup) : Precedes nodes phase i j ↔
    ∃ c d, nodes[i]? = some c ∧ nodes[j]? = some d ∧ c.phase = phase ∧ d.phase = phase ∧
      (c.handle ∈ d.after ∨ d.handle ∈ c.before) := by
  simp only [Precedes, means_of_nodup hn]
  constructor
  · intro hij
    obtain ⟨d, hd, hphase, h, hh, c, hc, hcphase, rfl⟩ |
      ⟨c, hc, hphase, h, hh, d, hd, hdphase, rfl⟩ := hij
    · exact ⟨c, d, hc, hd, hcphase, hphase, .inl hh⟩
    · exact ⟨c, d, hc, hd, hphase, hdphase, .inr hh⟩
  · intro hij
    obtain ⟨c, d, hc, hd, hcphase, hdphase, hh | hh⟩ := hij
    · exact .inl ⟨d, hd, hdphase, _, hh, c, hc, hcphase, rfl⟩
    · exact .inr ⟨c, hc, hcphase, _, hh, d, hd, hdphase, rfl⟩

end Constraints

namespace PhasePlan

variable {systems : List (System Note)} {phase : Phase} {h : SystemHandle} {i j : Nat}

theorem members_eq (systems : List (System Note)) (phase : Phase) : members systems phase =
    (List.range systems.length).filter fun i => (systems[i]?).any fun s => s.phase == phase := by
  refine List.filter_congr fun i _ => ?_
  cases systems[i]? <;> rfl

theorem locate_eq (systems : List (System Note)) (ms : List Nat) (h : SystemHandle) :
    locate systems ms h = ms.find? fun i => (systems[i]?).any fun s => s.handle == h := by
  refine congrArg (List.find? · ms) (funext fun i => ?_)
  cases systems[i]? <;> rfl

theorem lt_length_of_any {p : System Note → Bool} (hi : (systems[i]?).any p = true) :
    i < systems.length := by
  obtain ⟨sys, hsys, -⟩ := (Option.any_eq_true _ _).1 hi
  exact (List.getElem?_eq_some_iff.1 hsys).1

theorem mem_members : i ∈ members systems phase ↔
    ∃ sys, systems[i]? = some sys ∧ sys.phase = phase := by
  rw [members_eq, List.mem_filter, List.mem_range, and_iff_right_of_imp lt_length_of_any,
    Option.any_eq_true]
  simp

theorem nodup_members : (members systems phase).Nodup := List.nodup_range.filter _

theorem getElem?_constraints : (systems.map System.constraints)[i]? =
    (systems[i]?).map System.constraints := List.getElem?_map

theorem mem_members_of_constraints
    (hi : ∃ c, (systems.map System.constraints)[i]? = some c ∧ c.phase = phase) :
    i ∈ members systems phase := by
  obtain ⟨c, hc, hphase⟩ := hi
  rw [getElem?_constraints, Option.map_eq_some_iff] at hc
  obtain ⟨sys, hsys, rfl⟩ := hc
  exact mem_members.2 ⟨sys, hsys, hphase⟩

theorem locate_eq_some : locate systems (members systems phase) h = some i ↔
    Constraints.Means (systems.map System.constraints) phase h i := by
  have hany (k : Nat) : ((systems[k]?).any (fun s => s.phase == phase) = true ∧
      (systems[k]?).any (fun s => s.handle == h) = true) ↔
      ∃ c, (systems.map System.constraints)[k]? = some c ∧ c.phase = phase ∧ c.handle = h := by
    rw [getElem?_constraints]
    cases systems[k]? <;> simp [System.constraints]
  rw [locate_eq, members_eq, List.find?_filter, List.find?_range_eq_some, Constraints.means_iff]
  simp only [hany, List.mem_range, decide_eq_true_eq, Bool.not_eq_true', decide_eq_false_iff_not]
  refine and_congr_right fun hi => ?_
  rw [and_iff_right (lt_length_of_any ((hany i).2 hi).1)]
  refine forall₂_congr fun j _ => ⟨fun hnone c hc hphase hh => hnone ⟨c, hc, hphase, hh⟩, ?_⟩
  intro hnone hex
  obtain ⟨c, hc, hphase, hh⟩ := hex
  exact hnone c hc hphase hh

theorem mem_edges : (i, j) ∈ edges systems (members systems phase) ↔
    Constraints.Precedes (systems.map System.constraints) phase i j := by
  simp only [edges, List.mem_flatMap, mem_members, Constraints.Precedes, getElem?_constraints,
    Option.map_eq_some_iff]
  constructor
  · intro hedge
    obtain ⟨k, ⟨sys, hk, hphase⟩, hin⟩ := hedge
    simp only [hk, List.mem_append, List.mem_map, List.mem_filterMap, locate_eq_some,
      Prod.mk.injEq] at hin
    obtain ⟨p, ⟨h, hh, hp⟩, rfl, rfl⟩ | ⟨n, ⟨h, hh, hn⟩, rfl, rfl⟩ := hin
    · exact .inl ⟨_, ⟨sys, hk, rfl⟩, hphase, h, hh, hp⟩
    · exact .inr ⟨_, ⟨sys, hk, rfl⟩, hphase, h, hh, hn⟩
  · intro hedge
    obtain ⟨_, ⟨sys, hk, rfl⟩, hphase, h, hh, hmeans⟩ |
      ⟨_, ⟨sys, hk, rfl⟩, hphase, h, hh, hmeans⟩ := hedge
    · refine ⟨j, ⟨sys, hk, hphase⟩, ?_⟩
      simp only [hk, List.mem_append, List.mem_map, List.mem_filterMap, locate_eq_some]
      exact .inl ⟨i, ⟨h, hh, hmeans⟩, rfl⟩
    · refine ⟨i, ⟨sys, hk, hphase⟩, ?_⟩
      simp only [hk, List.mem_append, List.mem_map, List.mem_filterMap, locate_eq_some]
      exact .inr ⟨j, ⟨h, hh, hmeans⟩, rfl⟩

theorem precedes_iff (hn : (systems.map System.handle).Nodup) :
    Constraints.Precedes (systems.map System.constraints) phase i j ↔
      ∃ a b, systems[i]? = some a ∧ systems[j]? = some b ∧ a.phase = phase ∧ b.phase = phase ∧
        (a.handle ∈ b.after ∨ b.handle ∈ a.before) := by
  have hnodup : ((systems.map System.constraints).map Constraints.handle).Nodup := by
    rw [List.map_map]
    exact hn
  rw [Constraints.precedes_of_nodup hnodup]
  simp only [getElem?_constraints, Option.map_eq_some_iff]
  constructor
  · intro hij
    obtain ⟨_, _, ⟨a, ha, rfl⟩, ⟨b, hb, rfl⟩, hrest⟩ := hij
    exact ⟨a, b, ha, hb, hrest⟩
  · intro hij
    obtain ⟨a, b, ha, hb, hrest⟩ := hij
    exact ⟨_, _, ⟨a, ha, rfl⟩, ⟨b, hb, rfl⟩, hrest⟩

/-! ### Splitting a layer -/

variable {parallel : Bool} {split : Split} {layer group is : List Nat} {sys : System Note}

def Apart (systems : List (System Note)) (i j : Nat) : Prop :=
  ∀ a b, systems[i]? = some a → systems[j]? = some b → a.access.Apart b.access

instance (systems : List (System Note)) : Std.Symm (Apart systems) :=
  ⟨fun _ _ h a b ha hb => (h b a hb ha).symm⟩

/-- Systems that may run side by side; there are none if the configuration is serial. -/
structure Compatible (systems : List (System Note)) (parallel : Bool) (group : List Nat) :
    Prop where
  config : group ≠ [] → parallel = true
  safe : ∀ i ∈ group, ∀ a, systems[i]? = some a → a.parallelSafe = true
  apart : group.Pairwise (Apart systems)

theorem clash?_eq_none (h : clash? systems sys group = none) {other : System Note} (hi : i ∈ group)
    (ho : systems[i]? = some other) : sys.access.Apart other.access := by
  have hnone := List.findSome?_eq_none_iff.1 h i hi
  simp only [ho] at hnone
  split at hnone
  · next hempty => exact AccessSet.conflicts_eq_nil_iff.1 (List.isEmpty_iff.1 hempty)
  · cases hnone

theorem splitStep_cases (parallel : Bool) (split : Split) (hi : systems[i]? = some sys) :
    ((splitStep systems parallel split i).group = split.group ∧
      (splitStep systems parallel split i).serial = split.serial ++ [i]) ∨
    ((splitStep systems parallel split i).group = split.group ++ [i] ∧
      (splitStep systems parallel split i).serial = split.serial ∧
      sys.parallelSafe = true ∧ parallel = true ∧
      clash? systems sys split.group = none) := by
  unfold splitStep
  simp only [hi]
  split
  · exact .inl ⟨rfl, rfl⟩
  · next hsafe =>
    simp only [Bool.or_eq_true, Bool.not_eq_true', not_or, Bool.not_eq_false] at hsafe
    cases hclash : clash? systems sys split.group with
    | none => exact .inr ⟨rfl, rfl, hsafe.1, hsafe.2, rfl⟩
    | some p => exact .inl ⟨rfl, rfl⟩

theorem Compatible.splitStep (h : Compatible systems parallel split.group)
    (hi : systems[i]? = some sys) :
    Compatible systems parallel (splitStep systems parallel split i).group := by
  obtain ⟨hgroup, -⟩ | ⟨hgroup, -, hsafe, hparallel, hclash⟩ :=
    splitStep_cases parallel split hi
  · rwa [hgroup]
  · rw [hgroup]
    refine ⟨fun _ => hparallel, fun j hj a ha => ?_, List.pairwise_append.2 ⟨h.apart, ?_, ?_⟩⟩
    · obtain hj | hj := List.mem_append.1 hj
      · exact h.safe j hj a ha
      · rw [List.mem_singleton.1 hj, hi] at ha
        cases ha
        exact hsafe
    · exact List.pairwise_singleton _ i
    · intro j hj k hk a b ha hb
      rw [List.mem_singleton.1 hk, hi] at hb
      cases hb
      exact (clash?_eq_none hclash hj ha).symm

theorem splitStep_perm (hi : systems[i]? = some sys) :
    ((splitStep systems parallel split i).group ++ (splitStep systems parallel split i).serial).Perm
      ((split.group ++ split.serial) ++ [i]) := by
  obtain ⟨hgroup, hserial⟩ | ⟨hgroup, hserial, -⟩ :=
    splitStep_cases parallel split hi
  · rw [hgroup, hserial, List.append_assoc]
  · rw [hgroup, hserial, List.append_assoc, List.append_assoc]
    exact List.perm_append_comm.append_left split.group

theorem foldl_splitStep (h : Compatible systems parallel split.group)
    (hall : ∀ i ∈ layer, ∃ sys, systems[i]? = some sys) :
    Compatible systems parallel (layer.foldl (splitStep systems parallel) split).group ∧
      ((layer.foldl (splitStep systems parallel) split).group ++
        (layer.foldl (splitStep systems parallel) split).serial).Perm
        ((split.group ++ split.serial) ++ layer) := by
  induction layer generalizing split with
  | nil => exact ⟨h, by rw [List.append_nil, List.foldl_nil]⟩
  | cons i layer ih =>
    obtain ⟨sys, hi⟩ := hall i List.mem_cons_self
    obtain ⟨hgroup, hperm⟩ := ih (h.splitStep hi) fun j hj => hall j (List.mem_cons_of_mem i hj)
    refine ⟨hgroup, hperm.trans ?_⟩
    rw [List.append_cons]
    exact (splitStep_perm hi).append_right layer

theorem splitLayer_spec (hall : ∀ i ∈ layer, ∃ sys, systems[i]? = some sys) :
    Compatible systems parallel (splitLayer systems parallel layer).group ∧
      ((splitLayer systems parallel layer).group ++
        (splitLayer systems parallel layer).serial).Perm layer :=
  foldl_splitStep ⟨fun h => absurd rfl h, nofun, .nil⟩ hall

theorem Split.systems_stages (s : Split) :
    s.stages.flatMap Stage.systems = s.group ++ s.serial := by
  have hserial : (s.serial.map Stage.serial).flatMap Stage.systems = s.serial := by
    rw [List.flatMap_map]
    exact List.flatMap_singleton' s.serial
  rw [Split.stages, List.flatMap_append, hserial]
  congr 1
  split <;> simp_all [Stage.systems]

theorem Split.group_of_parallel {s : Split} (h : .parallel is ∈ s.stages) :
    is = s.group ∧ is ≠ [] := by
  obtain h | h := List.mem_append.1 h
  · split at h
    · cases h
    · cases h with | tail _ h => cases h
    · next hsome _ =>
      have his := Stage.parallel.inj (List.mem_singleton.1 h)
      exact ⟨his, his ▸ hsome⟩
  · obtain ⟨i, -, hi⟩ := List.mem_map.1 h
    cases hi

/-! ### Plans -/

variable {plan : PhasePlan} {stages : List Stage}

def phaseLayers (systems : List (System Note)) (phase : Phase) : List (List Nat) :=
  layers (members systems phase) (edges systems (members systems phase))
    (members systems phase).length []

theorem acyclic_edges : Acyclic (edges systems (members systems phase)) ↔
    Constraints.Acyclic (systems.map System.constraints) phase := by
  simp only [Acyclic, Before, Constraints.Acyclic, Constraints.Before, mem_edges]

theorem before_edges : Before (edges systems (members systems phase)) i j ↔
    Constraints.Before (systems.map System.constraints) phase i j := by
  simp only [Before, Constraints.Before, mem_edges]

theorem fst_mem_members {e : Nat × Nat} (he : e ∈ edges systems (members systems phase)) :
    e.1 ∈ members systems phase := mem_members_of_constraints (mem_edges.1 he).exists.1

theorem phaseLayers_complete_iff : (∀ i ∈ members systems phase,
      i ∈ (phaseLayers systems phase).flatten) ↔
    Constraints.Acyclic (systems.map System.constraints) phase := by
  rw [← acyclic_edges]
  exact layers_complete_iff nodup_members fun e => fst_mem_members

theorem build_eq (systems : List (System Note)) (parallel : Bool) (phase : Phase) :
    build systems parallel phase =
      let left := (members systems phase).filter fun i =>
        !(phaseLayers systems phase).flatten.contains i
      let splits := (phaseLayers systems phase).map (splitLayer systems parallel)
      if left.isEmpty then .ok ⟨splits.flatMap Split.stages, splits.flatMap Split.overlaps⟩
      else .error (.orderingCycle (left.filterMap fun i => systems[i]?.map System.name)) := rfl

theorem left_isEmpty_iff : ((members systems phase).filter fun i =>
      !(phaseLayers systems phase).flatten.contains i).isEmpty = true ↔
    Constraints.Acyclic (systems.map System.constraints) phase := by
  rw [← phaseLayers_complete_iff, List.isEmpty_iff, List.filter_eq_nil_iff]
  simp only [Bool.not_eq_true', Bool.not_eq_false, List.contains_iff_mem]

theorem build_eq_ok (h : build systems parallel phase = .ok plan) :
    Constraints.Acyclic (systems.map System.constraints) phase ∧
      plan.stages = (phaseLayers systems phase).flatMap fun layer =>
        (splitLayer systems parallel layer).stages := by
  rw [build_eq] at h
  simp only at h
  split at h
  · next hleft =>
    cases h
    exact ⟨left_isEmpty_iff.1 hleft, List.flatMap_map _ _ _⟩
  · cases h

theorem exists_build_iff : (∃ plan, build systems parallel phase = .ok plan) ↔
    Constraints.Acyclic (systems.map System.constraints) phase := by
  constructor
  · intro h
    obtain ⟨plan, hplan⟩ := h
    exact (build_eq_ok hplan).1
  · intro hacyclic
    rw [build_eq]
    exact ⟨_, if_pos (left_isEmpty_iff.2 hacyclic)⟩

theorem exists_of_mem_layer (hl : layer ∈ phaseLayers systems phase) :
    ∀ i ∈ layer, ∃ sys, systems[i]? = some sys := fun _ hi =>
  let ⟨sys, hsys, _⟩ := mem_members.1 (mem_layers hl hi).1
  ⟨sys, hsys⟩

theorem nodup_phaseLayers : (phaseLayers systems phase).flatten.Nodup :=
  nodup_flatten_layers nodup_members

/-- Nothing in the first list has to wait for something in the second one. -/
def Free (systems : List (System Note)) (phase : Phase) (first second : List Nat) : Prop :=
  ∀ i ∈ second, ∀ j ∈ first, ¬ Constraints.Before (systems.map System.constraints) phase i j

theorem free_of_split {pre post : List (List Nat)}
    (hl : phaseLayers systems phase = pre ++ layer :: post) :
    Free systems phase layer (layer :: post).flatten := by
  intro i hi j hj hij
  have hearlier := layers_before hl hj (before_edges.2 hij)
  have hnodup : (phaseLayers systems phase).flatten.Nodup := nodup_phaseLayers
  rw [hl, List.flatten_append, List.nodup_append] at hnodup
  exact hnodup.2.2 i hearlier i hi rfl

theorem free_self (hl : layer ∈ phaseLayers systems phase) : Free systems phase layer layer := by
  obtain ⟨pre, post, hsplit⟩ := List.append_of_mem hl
  exact fun i hi => free_of_split hsplit i (List.mem_append_left _ hi)

theorem pairwise_of_split {α : Type} {r : α → α → Prop} {l : List α}
    (h : ∀ pre x post, l = pre ++ x :: post → ∀ y ∈ post, r x y) : l.Pairwise r := by
  induction l with
  | nil => exact .nil
  | cons a l ih =>
    refine .cons (h [] a l rfl) (ih fun pre x post hl => h (a :: pre) x post ?_)
    rw [hl, List.cons_append]

theorem free_pairwise : (phaseLayers systems phase).Pairwise (Free systems phase) :=
  pairwise_of_split fun _ _ _ hsplit _ hy i hi =>
    free_of_split hsplit i (List.mem_append_right _ (List.mem_flatten_of_mem hy hi))

/-- What a plan of a phase promises. -/
structure Sound (systems : List (System Note)) (parallel : Bool) (phase : Phase)
    (stages : List Stage) : Prop where
  once : (stages.flatMap Stage.systems).Nodup
  exactly : ∀ i, i ∈ stages.flatMap Stage.systems ↔
    ∃ sys, systems[i]? = some sys ∧ sys.phase = phase
  ordered : ∀ (i j m n : Nat) (s t : Stage),
    Constraints.Before (systems.map System.constraints) phase i j →
    stages[m]? = some s → stages[n]? = some t → i ∈ s.systems → j ∈ t.systems → m < n
  config : ∀ is, .parallel is ∈ stages → parallel = true
  safe : ∀ is, .parallel is ∈ stages → ∀ i ∈ is, ∀ sys, systems[i]? = some sys →
    sys.parallelSafe = true
  independent : ∀ is, .parallel is ∈ stages → ∀ i ∈ is, ∀ j ∈ is, i ≠ j →
    Apart systems i j ∧ ¬ Constraints.Before (systems.map System.constraints) phase i j

theorem mem_layer_of_stage (hl : layer ∈ phaseLayers systems phase) {s : Stage}
    (hs : s ∈ (splitLayer systems parallel layer).stages) (hi : i ∈ s.systems) : i ∈ layer := by
  have hflat := List.mem_flatMap.2 ⟨s, hs, hi⟩
  rw [Split.systems_stages] at hflat
  exact (splitLayer_spec (exists_of_mem_layer hl)).2.mem_iff.1 hflat

theorem stages_perm (h : build systems parallel phase = .ok plan) :
    (plan.stages.flatMap Stage.systems).Perm (phaseLayers systems phase).flatten := by
  rw [(build_eq_ok h).2, List.flatMap_assoc, ← List.flatMap_id]
  refine List.Perm.flatMap_left _ fun layer hl => ?_
  rw [Split.systems_stages]
  exact (splitLayer_spec (exists_of_mem_layer hl)).2

theorem mem_stages (h : build systems parallel phase = .ok plan) {s : Stage} :
    s ∈ plan.stages ↔ ∃ layer ∈ phaseLayers systems phase,
      s ∈ (splitLayer systems parallel layer).stages := by
  rw [(build_eq_ok h).2, List.mem_flatMap]

theorem stage_free (h : build systems parallel phase = .ok plan) {s : Stage}
    (hs : s ∈ plan.stages) : Free systems phase s.systems s.systems := by
  obtain ⟨layer, hl, hs⟩ := (mem_stages h).1 hs
  intro i hi j hj
  exact free_self hl i (mem_layer_of_stage hl hs hi) j (mem_layer_of_stage hl hs hj)

theorem stages_pairwise (h : build systems parallel phase = .ok plan) :
    plan.stages.Pairwise fun s t => Free systems phase s.systems t.systems := by
  rw [(build_eq_ok h).2, List.pairwise_flatMap]
  constructor
  · intro layer hl
    refine List.pairwise_of_forall_mem_list fun s hs t ht i hi j hj => ?_
    exact free_self hl i (mem_layer_of_stage hl ht hi) j (mem_layer_of_stage hl hs hj)
  · refine free_pairwise.imp_of_mem fun {l l'} hl hl' hfree s hs t ht i hi j hj => ?_
    exact hfree i (mem_layer_of_stage hl' ht hi) j (mem_layer_of_stage hl hs hj)

theorem Sound.of_build (h : build systems parallel phase = .ok plan) :
    Sound systems parallel phase plan.stages := by
  have hgroup {is : List Nat} (his : .parallel is ∈ plan.stages) :
      is ≠ [] ∧ Compatible systems parallel is := by
    obtain ⟨layer, hl, hs⟩ := (mem_stages h).1 his
    obtain ⟨rfl, hne⟩ := Split.group_of_parallel hs
    exact ⟨hne, (splitLayer_spec (exists_of_mem_layer hl)).1⟩
  refine ⟨(stages_perm h).nodup_iff.2 nodup_phaseLayers, fun i => ?_, ?_,
    fun is his => (hgroup his).2.config (hgroup his).1, fun is his => (hgroup his).2.safe, ?_⟩
  · rw [(stages_perm h).mem_iff, ← mem_members]
    refine ⟨fun hi => ?_, phaseLayers_complete_iff.2 (build_eq_ok h).1 i⟩
    obtain ⟨layer, hl, hi⟩ := List.mem_flatten.1 hi
    exact (mem_layers hl hi).1
  · intro i j m n s t hij hs ht hi hj
    obtain ⟨hm, rfl⟩ := List.getElem?_eq_some_iff.1 hs
    obtain ⟨hn, rfl⟩ := List.getElem?_eq_some_iff.1 ht
    obtain hlt | rfl | hgt := Nat.lt_trichotomy m n
    · exact hlt
    · exact absurd hij (stage_free h (List.getElem_mem hm) i hi j hj)
    · exact absurd hij (List.pairwise_iff_getElem.1 (stages_pairwise h) n m hn hm hgt i hi j hj)
  · intro is his i hi j hj hij
    exact ⟨(hgroup his).2.apart.forall hi hj hij, stage_free h his i hi j hj⟩

end PhasePlan
end EntityWorld
