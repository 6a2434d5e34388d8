import EntityWorld.Host.Module
import EntityWorld.Proofs.Schedule.Reachable
set_option autoImplicit false

/-!
Taking systems out again. Constraints are only ever on systems that are there, so that those which
came last can go without a trace: the systems that were there before are left as they were, and with
them the plans.
-/
namespace EntityWorld

variable {Note : Type}

theorem eraseIdx_eq_filter {α β : Type} [DecidableEq β] {f : α → β} {l : List α}
    (hn : (l.map f).Nodup) {i : Nat} {x : α} (hx : l[i]? = some x) :
    l.eraseIdx i = l.filter fun y => f y ≠ f x := by
  induction l generalizing i with
  | nil => cases hx
  | cons a l ih =>
    obtain ⟨hnew, hn⟩ := List.nodup_cons.1 hn
    cases i with
    | zero =>
      cases hx
      have hkept : l.filter (fun y => f y ≠ f x) = l := by
        refine List.filter_eq_self.2 fun y hy => decide_eq_true fun heq => hnew ?_
        exact heq ▸ List.mem_map_of_mem hy
      rw [List.eraseIdx_cons_zero, List.filter_cons_of_neg (by simp), hkept]
    | succ i =>
      have hne : f a ≠ f x := fun heq =>
        hnew (heq ▸ List.mem_map_of_mem (List.mem_of_getElem? hx))
      rw [List.eraseIdx_cons_succ, List.filter_cons_of_pos (by simpa using hne), ih hn hx]

namespace Constraints

variable {nodes : List Constraints} {c : Constraints} {gone : SystemHandle} {k : Nat}

def Closed (nodes : List Constraints) : Prop :=
  ∀ c ∈ nodes, ∀ h ∈ c.after ++ c.before, h ∈ nodes.map Constraints.handle

theorem Closed.concat (hc : Closed nodes)
    (hnew : ∀ h ∈ c.after ++ c.before, h ∈ nodes.map Constraints.handle) :
    Closed (nodes ++ [c]) := by
  intro d hd h hh
  rw [List.map_append]
  refine List.mem_append_left _ ?_
  obtain hd | hd := List.mem_append.1 hd
  · exact hc d hd h hh
  · rw [List.mem_singleton.1 hd] at hh
    exact hnew h hh

theorem Closed.release (hc : Closed nodes) (hk : ∀ c, nodes[k]? = some c → c.handle = gone) :
    Closed ((nodes.eraseIdx k).map (release gone)) := by
  intro c hmem h hh
  obtain ⟨old, hold, rfl⟩ := List.mem_map.1 hmem
  simp only [Constraints.release, ← List.filter_append, List.mem_filter, decide_eq_true_eq] at hh
  obtain ⟨d, hd, rfl⟩ := List.mem_map.1 (hc old (List.mem_of_mem_eraseIdx hold) h hh.1)
  obtain ⟨i, hi⟩ := List.mem_iff_getElem?.1 hd
  have hik : i ≠ k := fun heq => hh.2 (hk d (heq ▸ hi))
  exact List.mem_map.2 ⟨_, List.mem_map_of_mem (List.mem_eraseIdx_iff_getElem?.2 ⟨i, hik, hi⟩), rfl⟩

end Constraints

namespace Scheduler

variable {s s' : Scheduler Note} {issued issued' : List SystemHandle} {h : SystemHandle}
  {hs hs' : List SystemHandle} {added : List (System Note)}

/-! ### Constraints on systems that are there -/

def Closed (s : Scheduler Note) : Prop := Constraints.Closed (s.systems.map System.constraints)

theorem closed_iff : Closed s ↔
    ∀ sys ∈ s.systems, ∀ h ∈ sys.after ++ sys.before, h ∈ s.systems.map System.handle := by
  simp only [Closed, Constraints.Closed, List.forall_mem_map, List.map_map]
  rfl

theorem Like.constraints (hl : Like s s') :
    s'.systems.map System.constraints = s.systems.map System.constraints := by
  have hmap := congrArg (List.map fun x : Outline × TermList =>
    (⟨x.1.handle, x.1.phase, x.1.after, x.1.before⟩ : Constraints)) hl.systems
  rwa [List.map_map, List.map_map] at hmap

theorem Closed.like (hc : Closed s) (hl : Like s s') : Closed s' := by
  rw [Closed, hl.constraints]
  exact hc

theorem Closed.register (hc : Closed s) (w : World) (b : SystemBuilder Note) :
    Closed (s.register w b).2 := by
  obtain ⟨e, he, -⟩ | ⟨sys, plan, hprepare, -, hok⟩ := s.register_cases w b
  · rwa [he]
  · obtain ⟨rank, body, query, -, -, hunknown, -, -, -, rfl⟩ := prepare_eq_ok_iff.1 hprepare
    rw [hok, Closed, withSystem, List.map_append]
    refine hc.concat fun h hh => ?_
    obtain ⟨other, hother⟩ := unknown?_eq_none_iff.1 hunknown h hh
    have hfound : s.systems.find? (fun sys => sys.handle == h) = some other := hother
    have hhandle := List.find?_some hfound
    rw [List.map_map]
    exact List.mem_map.2 ⟨other, List.mem_of_find?_eq_some hfound, eq_of_beq hhandle⟩

theorem Closed.unregister (hc : Closed s) (h : SystemHandle) : Closed (s.unregister h).2 := by
  unfold Scheduler.unregister
  split
  · exact hc
  · next k hk =>
    rw [Closed, constraints_release]
    exact hc.release (handle_of_findIdx? hk)

theorem Closed.call (hc : Closed s) (c : Call Note) : Closed (s.call c) := by
  cases c with
  | register w b => exact hc.register w b
  | unregister h => exact hc.unregister h
  | setEnabled h enabled => exact hc.like (like_setEnabled s h enabled)
  | setPaused paused => exact hc
  | insertPhaseAfter anchor phase =>
    simp only [Scheduler.call, insertPhaseAfter]
    split <;> exact hc
  | runPhase w phase delta => exact hc.like (like_runPhase s w phase delta)
  | progress w delta => exact hc.like (like_progress s w delta)

theorem Reachable.closed (h : Reachable issued s) : Closed s := by
  induction h with
  | new config pipeline => exact nofun
  | call c _ ih => exact ih.call c

/-- No handle is given out twice before all of them are given out. -/
theorem Reachable.nodup_issued (h : Reachable issued s) (hroom : issued.length ≤ 2 ^ 64) :
    issued.Nodup := by
  rw [h.counted.1]
  refine List.nodup_range.map_on fun i hi j hj heq => ?_
  have hnat := congrArg (fun x : SystemHandle => x.raw.toNat) heq
  simp only [UInt64.toNat_ofNat'] at hnat
  rwa [Nat.mod_eq_of_lt (Nat.lt_of_lt_of_le (List.mem_range.1 hi) hroom),
    Nat.mod_eq_of_lt (Nat.lt_of_lt_of_le (List.mem_range.1 hj) hroom)] at hnat

theorem Reachable.nodup_handles (h : Reachable issued s) (hroom : issued.length ≤ 2 ^ 64) :
    (s.systems.map System.handle).Nodup :=
  (h.nodup_issued hroom).sublist h.counted.2.2

/-! ### What is left -/

def releaseAll (hs : List SystemHandle) (sys : System Note) : System Note :=
  { sys with after := sys.after.filter (· ∉ hs), before := sys.before.filter (· ∉ hs) }

def without (hs : List SystemHandle) (systems : List (System Note)) : List (System Note) :=
  (systems.filter fun sys => sys.handle ∉ hs).map (releaseAll hs)

theorem releaseAll_eq_self {sys : System Note} (hsys : ∀ h ∈ sys.after ++ sys.before, h ∉ hs) :
    releaseAll hs sys = sys := by
  have hafter : sys.after.filter (· ∉ hs) = sys.after := List.filter_eq_self.2 fun h hh =>
    decide_eq_true (hsys h (List.mem_append_left _ hh))
  have hbefore : sys.before.filter (· ∉ hs) = sys.before := List.filter_eq_self.2 fun h hh =>
    decide_eq_true (hsys h (List.mem_append_right _ hh))
  rw [releaseAll, hafter, hbefore]

theorem without_eq_self {systems : List (System Note)} (hgone : ∀ sys ∈ systems, sys.handle ∉ hs)
    (hfree : ∀ sys ∈ systems, ∀ h ∈ sys.after ++ sys.before, h ∉ hs) :
    without hs systems = systems := by
  rw [without, List.filter_eq_self.2 fun sys hsys => decide_eq_true (hgone sys hsys)]
  exact (List.map_congr_left fun sys hsys => releaseAll_eq_self (hfree sys hsys)).trans
    (List.map_id' systems)

theorem without_without (systems : List (System Note)) :
    without hs' (without hs systems) = without (hs ++ hs') systems := by
  simp only [without, List.filter_map, List.filter_filter, List.map_map]
  have hfilter : ∀ sys : System Note, (decide ((releaseAll hs sys).handle ∉ hs') &&
      decide (sys.handle ∉ hs)) = decide (sys.handle ∉ hs ++ hs') := by
    intro sys
    rw [Bool.eq_iff_iff]
    simp [releaseAll, and_comm]
  have hrelease : releaseAll hs' ∘ releaseAll hs = (releaseAll (hs ++ hs') : System Note → _) := by
    funext sys
    simp only [Function.comp_apply, releaseAll, List.filter_filter, List.mem_append, not_or,
      Bool.decide_and, Bool.and_comm]
  rw [hrelease]
  exact congrArg (List.map _) (List.filter_congr fun sys _ => hfilter sys)

theorem systems_unregister (hc : Closed s) (hn : (s.systems.map System.handle).Nodup)
    (h : SystemHandle) : (s.unregister h).2.systems = without [h] s.systems := by
  unfold Scheduler.unregister
  split
  · next hnone =>
    have hne : ∀ x ∈ s.systems.map System.handle, x ∉ [h] := by
      simpa [List.findIdx?_eq_none_iff] using hnone
    refine (without_eq_self (fun sys hsys => hne _ (List.mem_map_of_mem hsys))
      fun sys hsys x hx => hne x ?_).symm
    exact closed_iff.1 hc sys hsys x hx
  · next k hk =>
    obtain ⟨hlt, hhandle, -⟩ := List.findIdx?_eq_some_iff_getElem.1 hk
    have hx : s.systems[k]? = some s.systems[k] := List.getElem?_eq_getElem hlt
    simp only [eraseIdx_eq_filter hn hx, eq_of_beq hhandle, without, List.mem_singleton]
    refine List.map_congr_left fun sys _ => ?_
    simp [release, releaseAll]

theorem Reachable.unregister (hr : Reachable issued s) (h : SystemHandle) :
    Reachable issued (s.unregister h).2 := by
  have hcall := hr.call (.unregister h)
  have hnone : s.issued? (.unregister h) = none := rfl
  rwa [hnone, Option.toList_none, List.append_nil] at hcall

theorem unregister_frame (s : Scheduler Note) (h : SystemHandle) : (s.unregister h).2 =
    { s with systems := (s.unregister h).2.systems, plans := (s.unregister h).2.plans } := by
  unfold Scheduler.unregister
  split <;> rfl

/-- From `s` to `s'` the systems with the given handles go, and of the others only constraints on
these. -/
structure Withdraws (s : Scheduler Note) (hs : List SystemHandle) (s' : Scheduler Note) : Prop where
  systems : s'.systems = without hs s.systems
  frame : s' = { s with systems := s'.systems, plans := s'.plans }

namespace Withdraws

theorem refl (s : Scheduler Note) : Withdraws s [] s :=
  ⟨(without_eq_self (fun _ _ => List.not_mem_nil) fun _ _ _ _ => List.not_mem_nil).symm, rfl⟩

theorem trans {s'' : Scheduler Note} (hw : Withdraws s hs s') (hw' : Withdraws s' hs' s'') :
    Withdraws s (hs ++ hs') s'' := by
  refine ⟨?_, ?_⟩
  · rw [hw'.systems, hw.systems, without_without]
  · rw [hw'.frame, hw.frame]

theorem handles (hw : Withdraws s hs s') :
    (s'.systems.map System.handle).Sublist (s.systems.map System.handle) := by
  rw [hw.systems, without, List.map_map]
  exact List.filter_sublist.map System.handle

end Withdraws

theorem Reachable.unregisterAll (hs : List SystemHandle) (hr : Reachable issued s)
    (hn : (s.systems.map System.handle).Nodup) :
    Reachable issued (s.unregisterAll hs) ∧ Withdraws s hs (s.unregisterAll hs) := by
  induction hs generalizing s with
  | nil => exact ⟨hr, .refl s⟩
  | cons h rest ih =>
    have hw : Withdraws s [h] (s.unregister h).2 :=
      ⟨systems_unregister hr.closed hn h, unregister_frame s h⟩
    obtain ⟨hreachable, hrest⟩ := ih (hr.unregister h) (hn.sublist hw.handles)
    exact ⟨hreachable, hw.trans hrest⟩

/-! ### Taking back what came last -/

/-- The scheduler `s'` is `s` but for the number of the next handle and the way plans are kept. -/
structure Restored (s s' : Scheduler Note) : Prop where
  systems : s'.systems = s.systems
  stages : ∀ phase, s'.stages phase = s.stages phase
  diagnostics : ∀ phase, s'.diagnostics phase = s.diagnostics phase
  frame : s' = { s with plans := s'.plans, nextHandle := s'.nextHandle }

theorem Restored.refl (s : Scheduler Note) : Restored s s := ⟨rfl, fun _ => rfl, fun _ => rfl, rfl⟩

theorem Consistent.plan_eq (hc : Consistent s) (hc' : Consistent s')
    (hsystems : s'.systems = s.systems) (hconfig : s'.config = s.config) (phase : Phase) :
    s'.stages phase = s.stages phase ∧ s'.diagnostics phase = s.diagnostics phase := by
  have hplan := hc'.fresh phase
  rw [hsystems, hconfig, hc.fresh phase] at hplan
  obtain ⟨hstages, hoverlaps⟩ := PhasePlan.mk.inj (Except.ok.inj hplan)
  exact ⟨hstages.symm, hoverlaps.symm⟩

theorem Closed.without_append (hc : Closed s)
    (hn : ((s.systems ++ added).map System.handle).Nodup) :
    without (added.map System.handle) (s.systems ++ added) = s.systems := by
  rw [List.map_append, List.nodup_append] at hn
  have hapart {h : SystemHandle} (hh : h ∈ s.systems.map System.handle) :
      h ∉ added.map System.handle := fun hadded => hn.2.2 h hh h hadded rfl
  have hgone : without (added.map System.handle) added = [] := by
    rw [without, List.filter_eq_nil_iff.2 fun sys hsys => ?_, List.map_nil]
    simpa using ⟨sys, hsys, rfl⟩
  have hkept : without (added.map System.handle) s.systems = s.systems :=
    without_eq_self (fun sys hsys => hapart (List.mem_map_of_mem hsys))
      fun sys hsys h hh => hapart (closed_iff.1 hc sys hsys h hh)
  rw [without] at hgone hkept ⊢
  rw [List.filter_append, List.map_append, hgone, hkept, List.append_nil]

theorem Reachable.restored (hr : Reachable issued s) (hr' : Reachable issued' s')
    (hframe : s' = { s with systems := s.systems ++ added, plans := s'.plans,
                            nextHandle := s'.nextHandle })
    (hn : (s'.systems.map System.handle).Nodup) :
    Restored s (s'.unregisterAll (added.map System.handle)) := by
  have hsystems : s'.systems = s.systems ++ added := congrArg Scheduler.systems hframe
  obtain ⟨hreachable, hw⟩ := hr'.unregisterAll (added.map System.handle) hn
  obtain ⟨u, hu⟩ : ∃ u, s'.unregisterAll (added.map System.handle) = u := ⟨_, rfl⟩
  rw [hu] at hreachable hw ⊢
  have hback : u.systems = s.systems := by
    rw [hw.systems, hsystems]
    exact hr.closed.without_append (hsystems ▸ hn)
  have hrest : u = { s with plans := u.plans, nextHandle := u.nextHandle } := by
    rw [hw.frame, hback, hframe]
  have hplan := hr.consistent.plan_eq hreachable.consistent hback (by rw [hrest])
  exact ⟨hback, fun phase => (hplan phase).1, fun phase => (hplan phase).2, hrest⟩

end Scheduler
end EntityWorld
