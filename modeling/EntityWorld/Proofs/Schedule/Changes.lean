import EntityWorld.Proofs.Schedule.Plan
import EntityWorld.Schedule.Scheduler
import Mathlib.Data.List.Find
set_option autoImplicit false

/-!
Changes of the list of systems. A plan depends on the systems of its phase alone, and of these not
on what they do. So a new system changes no other phase, and to remove a system never makes a cycle.
-/
namespace EntityWorld

open Relation

variable {Note : Type}

/-- The part of a system that plans depend on. -/
structure Outline where
  handle : SystemHandle
  name : String
  access : AccessSet
  phase : Phase
  after : List SystemHandle
  before : List SystemHandle
  parallelSafe : Bool

def System.outline (s : System Note) : Outline :=
  ⟨s.handle, s.name, s.access, s.phase, s.after, s.before, s.parallelSafe⟩

namespace PhasePlan

variable {systems systems' : List (System Note)} {phase : Phase} {h : SystemHandle}
  {ms group layer : List Nat} {parallel : Bool} {split : Split} {i : Nat}

def Agree (systems' systems : List (System Note)) (ms : List Nat) : Prop :=
  ∀ i ∈ ms, ∃ a b, systems'[i]? = some a ∧ systems[i]? = some b ∧ a.outline = b.outline

theorem locate_congr (hag : Agree systems' systems ms) :
    locate systems' ms h = locate systems ms h := by
  refine List.find?_congr fun i hi => ?_
  obtain ⟨a, b, ha, hb, hab⟩ := hag i hi
  simp only [ha, hb, show a.handle = b.handle from congrArg Outline.handle hab]

theorem edges_congr (hag : Agree systems' systems ms) : edges systems' ms = edges systems ms := by
  refine List.flatMap_congr fun i hi => ?_
  obtain ⟨a, b, ha, hb, hab⟩ := hag i hi
  have hlocate : locate systems' ms = locate systems ms := funext fun h => locate_congr hag
  simp only [ha, hb, hlocate, show a.after = b.after from congrArg Outline.after hab,
    show a.before = b.before from congrArg Outline.before hab]

theorem phaseLayers_congr (hms : members systems' phase = members systems phase)
    (hag : Agree systems' systems (members systems phase)) :
    phaseLayers systems' phase = phaseLayers systems phase := by
  rw [phaseLayers, phaseLayers, hms, edges_congr hag]

def clashTold (c : System Note × List TypeHandle) : String × List TypeHandle := (c.1.name, c.2)

theorem clash?_congr {a b : System Note} (hab : a.outline = b.outline)
    (hag : Agree systems' systems group) :
    (clash? systems' a group).map clashTold = (clash? systems b group).map clashTold := by
  have haccess : a.access = b.access := congrArg Outline.access hab
  induction group with
  | nil => rfl
  | cons i group ih =>
    obtain ⟨c, d, hc, hd, hcd⟩ := hag i List.mem_cons_self
    have haccess' : c.access = d.access := congrArg Outline.access hcd
    have hname : c.name = d.name := congrArg Outline.name hcd
    unfold clash? at ih ⊢
    simp only [List.findSome?_cons, hc, hd, haccess, haccess']
    by_cases hempty : (b.access.conflicts d.access).isEmpty = true
    · simp only [hempty, if_true]
      rw [haccess] at ih
      exact ih fun j hj => hag j (List.mem_cons_of_mem i hj)
    · simp only [hempty, Bool.false_eq_true, if_false, Option.map_some, clashTold, hname]

theorem splitStep_congr (hi : Agree systems' systems [i])
    (hag : Agree systems' systems split.group) :
    splitStep systems' parallel split i = splitStep systems parallel split i := by
  obtain ⟨a, b, ha, hb, hab⟩ := hi i (List.mem_singleton_self i)
  have hclash := clash?_congr hab hag
  have hsafe : a.parallelSafe = b.parallelSafe := congrArg Outline.parallelSafe hab
  have hname : a.name = b.name := congrArg Outline.name hab
  simp only [splitStep, ha, hb, hsafe, hname]
  split
  · rfl
  · cases hc : clash? systems' a split.group with
    | none =>
      rw [hc, Option.map_none, eq_comm, Option.map_eq_none_iff] at hclash
      rw [hclash]
    | some c =>
      rw [hc, Option.map_some, eq_comm, Option.map_eq_some_iff] at hclash
      obtain ⟨d, hd, heq⟩ := hclash
      obtain ⟨hother, htypes⟩ := Prod.mk.inj heq
      rw [hd]
      simp only [hother, htypes]

theorem foldl_splitStep_congr (hlayer : Agree systems' systems layer)
    (hag : Agree systems' systems split.group) :
    layer.foldl (splitStep systems' parallel) split =
      layer.foldl (splitStep systems parallel) split := by
  induction layer generalizing split with
  | nil => rfl
  | cons i layer ih =>
    have hi : Agree systems' systems [i] := fun j hj =>
      hlayer j (List.mem_singleton.1 hj ▸ List.mem_cons_self)
    rw [List.foldl_cons, List.foldl_cons, splitStep_congr hi hag]
    refine ih (fun j hj => hlayer j (List.mem_cons_of_mem i hj)) fun j hj => ?_
    obtain ⟨_, b, -, hb, -⟩ := hi i (List.mem_singleton_self i)
    obtain ⟨hgroup, -⟩ | ⟨hgroup, -⟩ := splitStep_cases parallel split hb
    · exact hag j (hgroup ▸ hj)
    · rw [hgroup] at hj
      exact (List.mem_append.1 hj).elim (hag j) (hi j)

theorem build_congr (hms : members systems' phase = members systems phase)
    (hag : Agree systems' systems (members systems phase)) :
    build systems' parallel phase = build systems parallel phase := by
  have hsplit : (phaseLayers systems phase).map (splitLayer systems' parallel) =
      (phaseLayers systems phase).map (splitLayer systems parallel) := by
    refine List.map_congr_left fun layer hl => foldl_splitStep_congr (fun i hi => ?_) nofun
    exact hag i (mem_layers hl hi).1
  rw [build_eq, build_eq, hms, phaseLayers_congr hms hag]
  simp only [hsplit]
  congr 3
  refine List.filterMap_congr fun i hi => ?_
  obtain ⟨a, b, ha, hb, hab⟩ := hag i (List.mem_filter.1 hi).1
  rw [ha, hb, Option.map_some, Option.map_some, show a.name = b.name from congrArg Outline.name hab]

theorem agree_of_outline (hout : systems'.map System.outline = systems.map System.outline) :
    Agree systems' systems (members systems phase) := by
  intro i hi
  obtain ⟨b, hb, -⟩ := mem_members.1 hi
  have hget : (systems'[i]?).map System.outline = (systems[i]?).map System.outline := by
    rw [← List.getElem?_map, hout, List.getElem?_map]
  rw [hb, Option.map_some, Option.map_eq_some_iff] at hget
  obtain ⟨a, ha, hab⟩ := hget
  exact ⟨a, b, ha, hb, hab⟩

theorem build_of_outline (hout : systems'.map System.outline = systems.map System.outline) :
    build systems' parallel phase = build systems parallel phase := by
  refine build_congr ?_ (agree_of_outline hout)
  have hlen : systems'.length = systems.length := by
    rw [← List.length_map System.outline, hout, List.length_map]
  rw [members_eq, members_eq, hlen]
  refine List.filter_congr fun i _ => ?_
  have hphase (l : List (System Note)) : (l[i]?).any (fun s => s.phase == phase) =
      ((l.map System.outline)[i]?).any fun o => o.phase == phase := by
    rw [List.getElem?_map, Option.any_map]
    rfl
  rw [hphase, hphase, hout]

theorem build_of_no_members (hms : members systems phase = []) :
    build systems parallel phase = .ok ⟨[], []⟩ := by
  rw [build_eq, phaseLayers, hms]
  rfl

theorem build_concat {sys : System Note} (hphase : sys.phase ≠ phase) :
    build (systems ++ [sys]) parallel phase = build systems parallel phase := by
  have hold {i : Nat} (hi : i < systems.length) : (systems ++ [sys])[i]? = systems[i]? :=
    List.getElem?_append_left hi
  refine build_congr ?_ fun i hi => ?_
  · have hlast : [systems.length].filter (fun i =>
        ((systems ++ [sys])[i]?).any fun s => s.phase == phase) = [] := by
      simp [hphase]
    rw [members_eq, members_eq, List.length_append, List.length_singleton, List.range_succ,
      List.filter_append, hlast, List.append_nil]
    exact List.filter_congr fun i hi => by rw [hold (List.mem_range.1 hi)]
  · obtain ⟨b, hb, -⟩ := mem_members.1 hi
    exact ⟨b, b, (hold (List.getElem?_eq_some_iff.1 hb).1).trans hb, hb, rfl⟩

end PhasePlan

/-! ### Removing a system -/

namespace Constraints

variable {nodes : List Constraints} {phase : Phase} {h gone : SystemHandle} {c : Constraints}
  {i j k : Nat}

def release (gone : SystemHandle) (c : Constraints) : Constraints :=
  { c with after := c.after.filter (· ≠ gone), before := c.before.filter (· ≠ gone) }

/-- Where the system at position `i` was before the one at position `k` was removed. -/
def origin (k i : Nat) : Nat := if i < k then i else i + 1

theorem getElem?_release : ((nodes.eraseIdx k).map (release gone))[i]? =
    (nodes[origin k i]?).map (release gone) := by
  rw [List.getElem?_map, List.getElem?_eraseIdx, origin]
  split <;> rfl

theorem means_release (hk : ∀ c, nodes[k]? = some c → c.handle = gone) (hne : h ≠ gone)
    (hmeans : Means ((nodes.eraseIdx k).map (release gone)) phase h i) :
    Means nodes phase h (origin k i) := by
  rw [means_iff] at hmeans ⊢
  simp only [getElem?_release, Option.map_eq_some_iff] at hmeans
  obtain ⟨⟨_, ⟨c, hc, rfl⟩, hphase, hhandle⟩, hfirst⟩ := hmeans
  refine ⟨⟨c, hc, hphase, hhandle⟩, fun j hj d hd hdphase hdh => ?_⟩
  have hjk : j ≠ k := by
    intro heq
    subst heq
    exact hne (hdh.symm.trans (hk d hd))
  -- the position that `j` has now
  obtain ⟨j', hj', rfl⟩ : ∃ j' < i, origin k j' = j := by
    unfold origin at hj
    obtain hlt | hgt := Nat.lt_or_gt_of_ne hjk
    · exact ⟨j, by split at hj <;> omega, if_pos hlt⟩
    · refine ⟨j - 1, by split at hj <;> omega, ?_⟩
      rw [origin, if_neg (by omega)]
      omega
  exact hfirst j' hj' _ ⟨d, hd, rfl⟩ hdphase hdh

theorem precedes_release (hk : ∀ c, nodes[k]? = some c → c.handle = gone)
    (hij : Precedes ((nodes.eraseIdx k).map (release gone)) phase i j) :
    Precedes nodes phase (origin k i) (origin k j) := by
  simp only [Precedes, getElem?_release, Option.map_eq_some_iff] at hij
  obtain ⟨_, ⟨c, hc, rfl⟩, hphase, h, hh, hmeans⟩ | ⟨_, ⟨c, hc, rfl⟩, hphase, h, hh, hmeans⟩ := hij
  · obtain ⟨hin, hne⟩ := List.mem_filter.1 hh
    exact .inl ⟨c, hc, hphase, h, hin, means_release hk (of_decide_eq_true hne) hmeans⟩
  · obtain ⟨hin, hne⟩ := List.mem_filter.1 hh
    exact .inr ⟨c, hc, hphase, h, hin, means_release hk (of_decide_eq_true hne) hmeans⟩

theorem Acyclic.release (hacyclic : Acyclic nodes phase)
    (hk : ∀ c, nodes[k]? = some c → c.handle = gone) :
    Acyclic ((nodes.eraseIdx k).map (release gone)) phase := fun i hi =>
  hacyclic (origin k i) (TransGen.lift (origin k) (fun _ _ => precedes_release hk) _ _ hi)

end Constraints
end EntityWorld
