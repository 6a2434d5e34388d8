import EntityWorld.Schedule.Plan
import Mathlib.Data.Fintype.Card
import Mathlib.Data.Set.Finite.Basic
import Mathlib.Data.List.Nodup
import Mathlib.Logic.Relation
set_option autoImplicit false

/-!
Layers of a graph. Every round places the vertices whose predecessors are all placed. The layers
keep the order of the edges, and they place all vertices exactly if the edges make no cycle.
-/
namespace EntityWorld.PhasePlan

open Relation

variable {members placed layer : List Nat} {pre post : List (List Nat)}
  {edges : List (Nat × Nat)} {rounds i j : Nat}

/-- A chain of edges leads from `i` to `j`. -/
def Before (edges : List (Nat × Nat)) : Nat → Nat → Prop := TransGen fun i j => (i, j) ∈ edges

def Acyclic (edges : List (Nat × Nat)) : Prop := ∀ i, ¬ Before edges i i

theorem mem_ready : i ∈ ready members edges placed ↔
    i ∈ members ∧ i ∉ placed ∧ ∀ j, (j, i) ∈ edges → j ∈ placed := by
  simp only [ready, List.mem_filter, Bool.and_eq_true, Bool.not_eq_true', List.all_eq_true,
    List.contains_eq_mem, decide_eq_false_iff_not, Bool.or_eq_true, decide_eq_true_iff, bne_iff_ne]
  refine and_congr_right' (and_congr_right' ⟨fun h j hj => ?_, fun h e he => ?_⟩)
  · exact (h (j, i) hj).resolve_left fun hne => hne rfl
  · by_cases heq : e.2 = i
    · exact .inr (h e.1 (heq ▸ he))
    · exact .inl heq

theorem mem_layers (h : layer ∈ layers members edges rounds placed) (hi : i ∈ layer) :
    i ∈ members ∧ i ∉ placed := by
  induction rounds generalizing placed with
  | zero => cases h
  | succ rounds ih =>
    unfold layers at h
    split at h
    · cases h
    · next hready =>
      obtain rfl | h := List.mem_cons.1 h
      · obtain ⟨hmem, hnew, -⟩ := mem_ready.1 hi
        exact ⟨hmem, hnew⟩
      · obtain ⟨hmem, hnew⟩ := ih h
        exact ⟨hmem, fun hold => hnew (List.mem_append_left _ hold)⟩

theorem nodup_flatten_layers (h : members.Nodup) :
    (layers members edges rounds placed).flatten.Nodup := by
  induction rounds generalizing placed with
  | zero => exact List.nodup_nil
  | succ rounds ih =>
    unfold layers
    split
    · exact List.nodup_nil
    · rw [List.flatten_cons, List.nodup_append]
      refine ⟨h.filter _, ih, fun a ha b hb hab => ?_⟩
      obtain ⟨layer, hlayer, hb⟩ := List.mem_flatten.1 hb
      exact (mem_layers hlayer hb).2 (List.mem_append_right placed (hab ▸ ha))

theorem layers_edge (h : layers members edges rounds placed = pre ++ layer :: post)
    (hj : j ∈ layer) (hij : (i, j) ∈ edges) : i ∈ placed ++ pre.flatten := by
  induction rounds generalizing placed pre with
  | zero =>
    rw [layers] at h
    simp at h
  | succ rounds ih =>
    unfold layers at h
    split at h
    · simp at h
    · cases pre with
      | nil =>
        obtain ⟨rfl, -⟩ := List.cons.inj h
        rw [List.flatten_nil, List.append_nil]
        exact (mem_ready.1 hj).2.2 i hij
      | cons first pre =>
        rw [List.cons_append] at h
        obtain ⟨rfl, hrest⟩ := List.cons.inj h
        rw [List.flatten_cons, ← List.append_assoc]
        exact ih hrest

theorem layers_before (h : layers members edges rounds [] = pre ++ layer :: post)
    (hj : j ∈ layer) (hij : Before edges i j) : i ∈ pre.flatten := by
  induction hij generalizing pre layer post with
  | single hedge => exact layers_edge h hj hedge
  | tail _ hedge ih =>
    obtain ⟨layer', hlayer, hmid⟩ := List.mem_flatten.1 (layers_edge h hj hedge)
    obtain ⟨pre', post', rfl⟩ := List.append_of_mem hlayer
    rw [List.append_assoc, List.cons_append] at h
    rw [List.flatten_append]
    exact List.mem_append_left _ (ih h hmid)

theorem ready_layers (h : (members.filter fun i => i ∉ placed).length ≤ rounds) :
    ready members edges (placed ++ (layers members edges rounds placed).flatten) = [] := by
  induction rounds generalizing placed with
  | zero =>
    rw [List.eq_nil_iff_forall_not_mem]
    intro i hi
    obtain ⟨hmem, hnew, -⟩ := mem_ready.1 hi
    rw [layers, List.flatten_nil, List.append_nil] at hnew
    have hleft : i ∈ members.filter fun i => i ∉ placed := List.mem_filter.2 ⟨hmem, by simpa⟩
    rw [List.eq_nil_of_length_eq_zero (Nat.le_zero.1 h)] at hleft
    cases hleft
  | succ rounds ih =>
    unfold layers
    split
    · next hready => rw [List.flatten_nil, List.append_nil, hready]
    · next hready =>
      rw [List.flatten_cons, ← List.append_assoc]
      refine ih (Nat.le_of_lt_succ (Nat.lt_of_lt_of_le ?_ h))
      -- some vertex is ready, so fewer are left
      obtain ⟨i, hi⟩ := List.exists_mem_of_ne_nil _ hready
      obtain ⟨hmem, hnew, -⟩ := mem_ready.1 hi
      have hsub : (members.filter fun j => j ∉ placed ++ ready members edges placed).Sublist
          (members.filter fun j => j ∉ placed) :=
        List.monotone_filter_right members fun j hj => by
          simp only [List.mem_append, decide_eq_true_eq] at hj ⊢
          exact fun hold => hj (.inl hold)
      refine Nat.lt_of_le_of_ne hsub.length_le fun hlen => ?_
      have hin : i ∈ members.filter fun j => j ∉ placed := List.mem_filter.2 ⟨hmem, by simpa⟩
      rw [← hsub.eq_of_length hlen] at hin
      simp [hi] at hin

/-- Each of some vertices has a predecessor among them, so a cycle leads to it. -/
theorem exists_cycle_behind {left : List Nat} (hi : i ∈ left)
    (hpred : ∀ k ∈ left, ∃ j ∈ left, (j, k) ∈ edges) :
    ∃ c, Before edges c c ∧ ReflTransGen (fun j k => (j, k) ∈ edges) c i := by
  by_contra hnone
  push Not at hnone
  have hfinite : Finite {k // k ∈ left} := left.finite_toSet
  let r : {k // k ∈ left} → {k // k ∈ left} → Prop := fun j k =>
    Before edges j k ∧ ReflTransGen (fun j k => (j, k) ∈ edges) k i
  have htrans : IsTrans _ r := ⟨fun _ _ _ hjk hkl => ⟨hjk.1.trans hkl.1, hkl.2⟩⟩
  have hirrefl : Std.Irrefl r := ⟨fun k hk => hnone k hk.1 hk.2⟩
  -- without such a cycle one could go back from `i` only finitely often
  have habsurd (k : {k // k ∈ left})
      (hk : ReflTransGen (fun j k => (j, k) ∈ edges) k i) : False := by
    induction k using (Finite.wellFounded_of_trans_of_irrefl r).induction with
    | _ k ih =>
      obtain ⟨j, hj, hedge⟩ := hpred k k.2
      exact ih ⟨j, hj⟩ ⟨.single hedge, hk⟩ (hk.head hedge)
  exact habsurd ⟨i, hi⟩ .refl

theorem mem_of_before (hmem : ∀ e ∈ edges, e.1 ∈ members) (h : Before edges i j) : i ∈ members := by
  induction h with
  | single hedge => exact hmem _ hedge
  | tail _ _ ih => exact ih

theorem not_before_self (hn : members.Nodup) (hi : i ∈ (layers members edges rounds []).flatten) :
    ¬ Before edges i i := by
  intro hcycle
  obtain ⟨layer, hlayer, hi⟩ := List.mem_flatten.1 hi
  obtain ⟨pre, post, hsplit⟩ := List.append_of_mem hlayer
  have hearlier := layers_before hsplit hi hcycle
  have hnodup : (layers members edges rounds []).flatten.Nodup := nodup_flatten_layers hn
  rw [hsplit, List.flatten_append, List.flatten_cons, List.nodup_append] at hnodup
  exact hnodup.2.2 i hearlier i (List.mem_append_left _ hi) rfl

/-- A vertex is left out exactly if it is on a cycle or a cycle leads to it. -/
theorem not_mem_layers_iff (hn : members.Nodup) (hmem : ∀ e ∈ edges, e.1 ∈ members)
    (hi : i ∈ members) : i ∉ (layers members edges members.length []).flatten ↔
      ∃ c, Before edges c c ∧ ReflTransGen (fun j k => (j, k) ∈ edges) c i := by
  constructor
  · intro hout
    have hready :
        ready members edges ([] ++ (layers members edges members.length []).flatten) = [] :=
      ready_layers (List.length_filter_le _ _)
    rw [List.nil_append] at hready
    have hleft : i ∈ members.filter fun i => i ∉ (layers members edges members.length []).flatten :=
      List.mem_filter.2 ⟨hi, decide_eq_true hout⟩
    refine exists_cycle_behind hleft fun k hk => ?_
    obtain ⟨hk, hleft⟩ := List.mem_filter.1 hk
    -- `k` is not ready, so a predecessor is left as well
    have hnot : k ∉ ready members edges (layers members edges members.length []).flatten := by
      rw [hready]
      exact List.not_mem_nil
    rw [mem_ready] at hnot
    push Not at hnot
    obtain ⟨j, hedge, hj⟩ := hnot hk (of_decide_eq_true hleft)
    exact ⟨j, List.mem_filter.2 ⟨hmem _ hedge, decide_eq_true hj⟩, hedge⟩
  · intro hstuck hin
    obtain ⟨c, hcycle, hlead⟩ := hstuck
    obtain rfl | hlead := reflTransGen_iff_eq_or_transGen.1 hlead
    · exact not_before_self hn hin hcycle
    · -- what leads to a placed vertex is placed
      obtain ⟨layer, hlayer, hi⟩ := List.mem_flatten.1 hin
      obtain ⟨pre, post, hsplit⟩ := List.append_of_mem hlayer
      have hc : c ∈ (layers members edges members.length []).flatten := by
        rw [hsplit, List.flatten_append]
        exact List.mem_append_left _ (layers_before hsplit hi hlead)
      exact not_before_self hn hc hcycle

theorem layers_complete_iff (hn : members.Nodup) (hmem : ∀ e ∈ edges, e.1 ∈ members) :
    (∀ i ∈ members, i ∈ (layers members edges members.length []).flatten) ↔ Acyclic edges := by
  constructor
  · intro hall i hcycle
    exact not_before_self hn (hall i (mem_of_before hmem hcycle)) hcycle
  · intro hacyclic i hi
    by_contra hout
    obtain ⟨c, hcycle, -⟩ := (not_mem_layers_iff hn hmem hi).1 hout
    exact hacyclic c hcycle

end EntityWorld.PhasePlan
