import EntityWorld.Proofs.Schedule.Interleaving
import Mathlib.Data.List.Perm.Basic
set_option autoImplicit false

/-!
Systems in another order. Two systems of which neither writes what the other one may read can be
exchanged; so whole runs end the same if they differ in the order of such systems alone.
-/
namespace EntityWorld

variable {Note : Type}

def World.SameButEvents (w v : World) : Prop := { w with events := v.events } = v

namespace World.SameButEvents

variable {w v u : World}

theorem mask (h : SameButEvents w v) (p : TypeHandle → Bool) : w.mask p = v.mask p := by
  unfold SameButEvents at h
  rw [← h]
  rfl

theorem refl (w : World) : SameButEvents w w := rfl

theorem symm (h : SameButEvents w v) : SameButEvents v w := eq_of_mask fun _ => (h.mask _).symm

theorem trans (h : SameButEvents w v) (h' : SameButEvents v u) : SameButEvents w u :=
  eq_of_mask fun _ => (h.mask _).trans (h'.mask _)

theorem numbered (h : SameButEvents w v) (hn : w.storage.Numbered) : v.storage.Numbered :=
  numbered_of_mask (h.mask fun _ => true) hn

end World.SameButEvents

open World

namespace Task

variable {t u : Task Note} {w v : World} {p : TypeHandle → Bool}

theorem finish_agree (h : w.mask t.facts.access.canRead = v.mask t.facts.access.canRead) :
    (t.finish w).1 = (t.finish v).1 ∧
      (t.finish w).2.mask t.facts.access.canRead = (t.finish v).2.mask t.facts.access.canRead := by
  obtain ⟨facts, program, st, seen⟩ := t
  unfold finish
  simp only at h ⊢
  induction program generalizing st seen w v with
  | done result => exact ⟨rfl, h⟩
  | ask q next ih =>
    obtain ⟨hanswer, hstate, hworld⟩ := RunState.perform_agree h st q
    simp only [complete, hanswer, hstate]
    exact ih _ _ _ hworld
  | tell n next ih => exact ih _ _ h

theorem mask_finish (hn : w.storage.Numbered)
    (hp : ∀ h, t.facts.access.canWrite h = true → p h = false) :
    (t.finish w).2.mask p = w.mask p := by
  have halone (n : Nat) : (t.alone w n).2.mask p = w.mask p := by
    induction n with
    | zero => rfl
    | succ n ih =>
      exact (mask_step (t.numbered_alone hn n) ((t.facts_alone w n).symm ▸ hp)).trans ih
  obtain ⟨n, hend, -⟩ := t.exists_alone_eq_finish w
  rw [← hend]
  exact halone n

theorem finish_same (t : Task Note) (hn : w.storage.Numbered) (h : SameButEvents w v) :
    (t.finish w).1 = (t.finish v).1 ∧ SameButEvents (t.finish w).2 (t.finish v).2 := by
  obtain ⟨hend, hread⟩ := finish_agree (h.mask t.facts.access.canRead)
  refine ⟨hend, eq_of_mask fun k => ?_⟩
  by_cases hk : t.facts.access.canRead k = true
  · exact mask_congr (fun t' ht' => eq_of_beq ht' ▸ hk) hread
  · have hp : ∀ t', t.facts.access.canWrite t' = true → (t' == k) = false := fun t' ht' =>
      beq_eq_false_iff_ne.2 fun heq => hk (heq ▸ AccessSet.canRead_of_canWrite ht')
    rw [mask_finish hn hp, mask_finish (h.numbered hn) hp]
    exact h.mask _

theorem finish_after (hn : w.storage.Numbered) (h : t.facts.access.Apart u.facts.access) :
    (t.finish (u.finish w).2).1 = (t.finish w).1 ∧
      (t.finish (u.finish w).2).2.mask t.facts.access.canRead =
        (t.finish w).2.mask t.facts.access.canRead :=
  finish_agree (mask_finish hn fun k hk => (h k).2 hk)

/-- Two systems of which neither writes what the other one may read can be exchanged. -/
theorem finish_swap (hn : w.storage.Numbered) (h : t.facts.access.Apart u.facts.access) :
    SameButEvents (t.finish (u.finish w).2).2 (u.finish (t.finish w).2).2 := by
  have ht := (finish_after hn h).2
  have hu := (finish_after hn h.symm).2
  have hleft {x : Task Note} {k : TypeHandle} (hx : x.facts.access.canWrite k = false) :
      ∀ t', x.facts.access.canWrite t' = true → (t' == k) = false := fun t' ht' =>
    beq_eq_false_iff_ne.2 fun heq => Bool.false_ne_true ((hx.symm.trans (heq ▸ ht')))
  have hone {x : Task Note} {k : TypeHandle} (hx : x.facts.access.canWrite k = true) :
      ∀ t', (t' == k) = true → x.facts.access.canRead t' = true := fun t' ht' =>
    eq_of_beq ht' ▸ AccessSet.canRead_of_canWrite hx
  refine eq_of_mask fun k => ?_
  -- A type is written by at most one of the two, and what that one writes is as if it ran alone.
  by_cases hkt : t.facts.access.canWrite k = true
  · have hku : u.facts.access.canWrite k = false := by
      refine Bool.not_eq_true _ ▸ fun hku => ?_
      exact Bool.false_ne_true (((h k).1 hkt).symm.trans (AccessSet.canRead_of_canWrite hku))
    rw [mask_congr (hone hkt) ht, mask_finish (t.numbered_finish hn) (hleft hku)]
  · rw [Bool.not_eq_true] at hkt
    rw [mask_finish (u.numbered_finish hn) (hleft hkt)]
    by_cases hku : u.facts.access.canWrite k = true
    · rw [mask_congr (hone hku) hu]
    · rw [Bool.not_eq_true] at hku
      rw [mask_finish hn (hleft hku), mask_finish (t.numbered_finish hn) (hleft hku),
        mask_finish hn (hleft hkt)]

end Task

/-! ### Runs one after another -/

/-- Let systems, each with its position, go on to their ends one after another. -/
def rounds : List (Nat × Task Note) → World → List (Nat × Task Note) × World
  | [], w => ([], w)
  | x :: rest, w =>
    let (t, w) := x.2.finish w
    let (rest, w) := rounds rest w
    ((x.1, t) :: rest, w)

/-- The same systems ended the same, and the worlds differ at most in what hooks did. -/
structure SameEnd (x y : List (Nat × Task Note) × World) : Prop where
  ended : x.1.Perm y.1
  world : SameButEvents x.2 y.2

namespace SameEnd

variable {x y z : List (Nat × Task Note) × World}

theorem refl (x : List (Nat × Task Note) × World) : SameEnd x x := ⟨.refl _, .refl _⟩

theorem symm (h : SameEnd x y) : SameEnd y x := ⟨h.ended.symm, h.world.symm⟩

theorem trans (h : SameEnd x y) (h' : SameEnd y z) : SameEnd x z :=
  ⟨h.ended.trans h'.ended, h.world.trans h'.world⟩

theorem cons (e : Nat × Task Note) (h : SameEnd x y) : SameEnd (e :: x.1, x.2) (e :: y.1, y.2) :=
  ⟨h.ended.cons e, h.world⟩

end SameEnd

variable {l l' : List (Nat × Task Note)} {w v : World}

theorem rounds_same (l : List (Nat × Task Note)) (hn : w.storage.Numbered)
    (h : SameButEvents w v) :
    (rounds l w).1 = (rounds l v).1 ∧ SameButEvents (rounds l w).2 (rounds l v).2 := by
  induction l generalizing w v with
  | nil => exact ⟨rfl, h⟩
  | cons x rest ih =>
    obtain ⟨hend, hworld⟩ := x.2.finish_same hn h
    obtain ⟨hrest, hlast⟩ := ih (x.2.numbered_finish hn) hworld
    simp only [rounds, hend, hrest]
    exact ⟨trivial, hlast⟩

theorem numbered_rounds (l : List (Nat × Task Note)) (hn : w.storage.Numbered) :
    (rounds l w).2.storage.Numbered := by
  induction l generalizing w with
  | nil => exact hn
  | cons x rest ih => exact ih (x.2.numbered_finish hn)

theorem rounds_front {x : Nat × Task Note} {pre post : List (Nat × Task Note)}
    (hn : w.storage.Numbered)
    (hpre : ∀ y ∈ pre, x.2.facts.access.Apart y.2.facts.access) :
    SameEnd (rounds (pre ++ x :: post) w) (rounds (x :: (pre ++ post)) w) := by
  induction pre generalizing w with
  | nil => exact .refl _
  | cons y pre ih =>
    have hxy := hpre y List.mem_cons_self
    have hrest := ih (y.2.numbered_finish hn) fun z hz => hpre z (List.mem_cons_of_mem y hz)
    refine (hrest.cons (y.1, (y.2.finish w).1)).trans ?_
    obtain ⟨hsame, hworld⟩ := rounds_same (pre ++ post)
      (x.2.numbered_finish (y.2.numbered_finish hn)) (Task.finish_swap hn hxy)
    simp only [rounds, List.cons_append, (Task.finish_after hn hxy).1,
      (Task.finish_after hn hxy.symm).1, hsame]
    exact ⟨.swap _ _ _, hworld⟩

/-- Two orders end the same if systems that have to do with each other are in the order `D`, which
both keep. -/
theorem rounds_perm (D : Nat → Nat → Prop) (hperm : l.Perm l')
    (hl : l.Pairwise fun x y => x.2.facts.access.Apart y.2.facts.access ∨ D x.1 y.1)
    (hl' : l'.Pairwise fun x y => ¬ D y.1 x.1) (hn : w.storage.Numbered) :
    SameEnd (rounds l w) (rounds l' w) := by
  induction l generalizing l' w with
  | nil =>
    rw [hperm.nil_eq]
    exact .refl _
  | cons x rest ih =>
    obtain ⟨pre, post, rfl⟩ := List.append_of_mem (hperm.mem_iff.1 List.mem_cons_self)
    have hsplit := (List.perm_cons x).1 (hperm.trans List.perm_middle)
    obtain ⟨hx, hrest⟩ := List.pairwise_cons.1 hl
    -- what comes before `x` in the other order does not have to
    have hpre : ∀ y ∈ pre, x.2.facts.access.Apart y.2.facts.access := by
      intro y hy
      refine (hx y (hsplit.mem_iff.2 (List.mem_append_left _ hy))).resolve_right ?_
      exact (List.pairwise_append.1 hl').2.2 y hy x List.mem_cons_self
    have hkept : (pre ++ post).Pairwise fun x y => ¬ D y.1 x.1 :=
      hl'.sublist ((List.Sublist.refl pre).append (List.sublist_cons_self x post))
    refine SameEnd.trans ?_ (rounds_front hn hpre).symm
    exact (ih hsplit hrest hkept (x.2.numbered_finish hn)).cons (x.1, (x.2.finish w).1)

end EntityWorld
