import EntityWorld.Archetype.Storage
import Mathlib.Data.List.Basic
set_option autoImplicit false

/-!
The order of the ids of a table. Bisection finds the place of a new id in a sorted list, so a table
that is reached by adding an id has its ids sorted again.
-/
namespace EntityWorld

namespace Id

theorem before_iff {a b : Id} : a.before b = true ↔ a.bits.toNat < b.bits.toNat := by
  simp [before, UInt64.lt_iff_toNat_lt]

theorem before_irrefl (a : Id) : a.before a = false := by simp [before]

theorem before_trans {a b c : Id} (hab : a.before b = true) (hbc : b.before c = true) :
    a.before c = true := by
  rw [before_iff] at *
  omega

theorem eq_of_not_before {a b : Id} (hab : a.before b = false) (hba : b.before a = false) :
    a = b := by
  rw [← Bool.not_eq_true, before_iff] at *
  cases a
  cases b
  rw [Id.mk.injEq]
  apply UInt64.toNat_inj.1
  simp at *
  omega

def Sorted (ids : List Id) : Prop := ids.Pairwise fun a b => a.before b = true

theorem Sorted.nodup {ids : List Id} (h : Sorted ids) : ids.Nodup := by
  refine List.Pairwise.imp ?_ h
  intro a b hab heq
  subst heq
  rw [before_irrefl] at hab
  cases hab

theorem Sorted.getElem_before {ids : List Id} (h : Sorted ids) {i j : Nat} {a b : Id}
    (ha : ids[i]? = some a) (hb : ids[j]? = some b) (hij : i < j) : a.before b = true := by
  obtain ⟨hi, rfl⟩ := List.getElem?_eq_some_iff.1 ha
  obtain ⟨hj, rfl⟩ := List.getElem?_eq_some_iff.1 hb
  exact List.pairwise_iff_getElem.1 h i j hi hj hij

end Id

namespace Storage
open EntityWorld.Id

variable {ids : List Id} {id : Id}

/-- Bisection ends at a position whose id is not above `id`, unless it is the first, and all ids
behind it are above. -/
theorem bisect_spec (hs : Sorted ids) (fuel base count : Nat) (hpos : 0 < count)
    (hfuel : count ≤ fuel + 1) (hlen : base + count ≤ ids.length)
    (hlow : base = 0 ∨ ∀ m, ids[base]? = some m → id.before m = false)
    (hhigh : ∀ j m, base + count ≤ j → ids[j]? = some m → id.before m = true) :
    ∃ p, bisect ids id fuel base count = p ∧ p < ids.length ∧
      (p = 0 ∨ ∀ m, ids[p]? = some m → id.before m = false) ∧
      ∀ j m, p < j → ids[j]? = some m → id.before m = true := by
  induction fuel generalizing base count with
  | zero =>
    have hone : count = 1 := by omega
    subst hone
    exact ⟨base, rfl, by omega, hlow, hhigh⟩
  | succ fuel ih =>
    rw [bisect]
    by_cases hc : count ≤ 1
    · have hone : count = 1 := by omega
      subst hone
      rw [if_pos hc]
      exact ⟨base, rfl, by omega, hlow, hhigh⟩
    · rw [if_neg hc]
      obtain ⟨middle, hm⟩ : ∃ m, ids[base + count / 2]? = some m :=
        ⟨_, List.getElem?_eq_getElem (by omega)⟩
      simp only [hm]
      cases hb : id.before middle with
      | true =>
        refine ih base (count - count / 2) (by omega) (by omega) (by omega) hlow ?_
        intro j m hj hjm
        by_cases hlt : base + count / 2 < j
        · exact before_trans hb (hs.getElem_before hm hjm hlt)
        · have hjm' : j = base + count / 2 := by omega
          subst hjm'
          rw [hm] at hjm
          cases hjm
          exact hb
      | false =>
        refine ih (base + count / 2) (count - count / 2) (by omega) (by omega) (by omega) ?_ ?_
        · right
          intro m hm'
          rw [hm] at hm'
          cases hm'
          exact hb
        · intro j m hj hjm
          exact hhigh j m (by omega) hjm

/-- Where bisection puts a new id: all ids in front of that place are below it, all others are
above it. -/
theorem insertionPoint_spec (hs : Sorted ids) (hid : id ∉ ids) :
    insertionPoint ids id ≤ ids.length ∧
      (∀ j m, j < insertionPoint ids id → ids[j]? = some m → m.before id = true) ∧
      ∀ j m, insertionPoint ids id ≤ j → ids[j]? = some m → id.before m = true := by
  cases hnil : ids with
  | nil => simp [insertionPoint, bisect]
  | cons x xs =>
    rw [← hnil]
    have hpos : 0 < ids.length := by simp [hnil]
    have hend : ∀ j m, 0 + ids.length ≤ j → ids[j]? = some m → id.before m = true := by
      intro j m hj hm
      rw [List.getElem?_eq_none (by omega)] at hm
      cases hm
    obtain ⟨p, hp, hlt, hlow, hhigh⟩ := bisect_spec hs ids.length 0 ids.length hpos
      (by omega) (by omega) (.inl rfl) hend
    have hm : ids[p]? = some ids[p] := List.getElem?_eq_getElem hlt
    have hne : ids[p] ≠ id := fun he => hid (he ▸ List.getElem_mem hlt)
    simp only [insertionPoint, hp, hm]
    cases hb : ids[p].before id with
    | true =>
      simp only [if_true]
      refine ⟨hlt, fun j m hj hjm => ?_, hhigh⟩
      by_cases hjp : j = p
      · subst hjp
        rw [hm] at hjm
        cases hjm
        exact hb
      · exact before_trans (hs.getElem_before hjm hm (by omega)) hb
    | false =>
      -- the id at `p` differs from `id`, so it is above it, and then `p` is the first position
      simp only [Bool.false_eq_true, if_false]
      have hup : id.before ids[p] = true := by
        rw [← Bool.not_eq_false]
        exact fun hn => hne (eq_of_not_before hb hn)
      have hzero : p = 0 := by
        rcases hlow with h0 | hlow
        · exact h0
        · rw [hlow _ hm] at hup
          cases hup
      refine ⟨by omega, fun j m hj _ => by omega, fun j m hj hjm => ?_⟩
      by_cases hjp : j = p
      · subst hjp
        rw [hm] at hjm
        cases hjm
        exact hup
      · exact hhigh j m (by omega) hjm

theorem mem_insertId (hs : Sorted ids) (hid : id ∉ ids) {x : Id} :
    x ∈ insertId ids id ↔ x = id ∨ x ∈ ids :=
  List.mem_insertIdx (insertionPoint_spec hs hid).1

theorem sorted_insertId (hs : Sorted ids) (hid : id ∉ ids) : Sorted (insertId ids id) := by
  obtain ⟨hle, hlow, hhigh⟩ := insertionPoint_spec hs hid
  rw [Sorted, insertId, List.pairwise_iff_getElem]
  intro i j hi hj hij
  have hl : (ids.insertIdx (insertionPoint ids id) id).length = ids.length + 1 :=
    List.length_insertIdx_of_le_length hle id
  have hget : ∀ k (hk : k < ids.length), ids[k]? = some ids[k] := fun k hk =>
    List.getElem?_eq_getElem hk
  rw [List.getElem_insertIdx, List.getElem_insertIdx]
  split
  · split
    · exact hs.getElem_before (hget _ _) (hget _ _) hij
    · split
      · exact hlow _ _ ‹_› (hget _ _)
      · exact hs.getElem_before (hget _ _) (hget _ _) (by omega)
  · split
    · rw [dif_neg (by omega), dif_neg (by omega)]
      exact hhigh _ _ (by omega) (hget _ _)
    · rw [dif_neg (by omega), dif_neg (by omega)]
      exact hs.getElem_before (hget _ _) (hget _ _) (by omega)

end Storage
end EntityWorld
