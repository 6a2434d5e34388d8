import EntityWorld.Proofs.World.Removal
set_option autoImplicit false

/-!
What is there and what is taken off. An entity has an id if one of the ids that it carries satisfies
it; a removal takes off the id as it is written. The two mean the same for every id that can be
carried, and a wildcard is none of these: to remove one finds what it asks for and takes nothing.
-/
namespace EntityWorld

theorem Archetype.contains_iff_satisfied (a : Archetype) (id : Id) :
    a.contains id = true ↔ ∃ own ∈ a.ids, own.satisfies id = true := by
  cases hw : id.isWildcard with
  | true => rw [contains, hw, if_pos rfl, List.any_eq_true]
  | false =>
    simp only [contains_iff hw, Id.satisfies, hw, if_neg Bool.false_ne_true, beq_iff_eq]
    refine ⟨fun hid => ⟨id, hid, rfl⟩, fun hex => ?_⟩
    obtain ⟨own, hown, rfl⟩ := hex
    exact hown

namespace World

variable {w v : World} {e : Entity} {id own : Id}

theorem Stands.carries_iff {l : Location} {a : Archetype} (h : w.WellFormed)
    (hs : w.Stands e l a) : w.Carries e own ↔ own ∈ a.ids := by
  rw [Carries, hs.peek, h.isSome_value?_iff hs]

theorem WellFormed.has_iff_satisfied (h : w.WellFormed) :
    w.has e id = true ↔ ∃ own, w.Carries e own ∧ own.satisfies id = true := by
  cases he : w.isAlive e with
  | false =>
    refine iff_of_false ?_ fun hex => ?_
    · simp [has, archetypeOf?, location?_eq, he]
    · obtain ⟨own, hc, -⟩ := hex
      cases he.symm.trans (Carries.isAlive hc)
  | true =>
    obtain ⟨l, a, hs⟩ := h.stands he
    simp only [hs.has, a.contains_iff_satisfied, hs.carries_iff h]

theorem has_congr (hw : w.WellFormed) (hv : v.WellFormed) (h : v.contents = w.contents)
    (e : Entity) (id : Id) : v.has e id = w.has e id := by
  rw [Bool.eq_iff_iff, hv.has_iff_satisfied, hw.has_iff_satisfied]
  simp only [carries_iff_value?, h]

theorem WellFormed.not_carries_wildcard (h : w.WellFormed) (hid : id.isWildcard = true) :
    ¬ w.Carries e id := by
  intro hc
  rw [carries_iff_value?, Contents.value?] at hc
  obtain ⟨v, hv⟩ := Option.isSome_iff_exists.1 hc
  obtain ⟨m, hm, hmv⟩ := Option.bind_eq_some_iff.1 hv
  have hsome : (m id).isSome = true := by rw [hmv, Option.isSome_some]
  cases hid.symm.trans (h.exists_descriptor?_of_value hm hsome).1

/-! ### Removals -/

/-- A removal tells whether the id was there, and leaves an entity that has it no more. -/
def Removes (w : World) (e : Entity) (id : Id) : Prop :=
  ∀ b, (w.remove e id).1 = .ok b → b = w.has e id ∧ (w.remove e id).2.has e id = false

structure Sheared (w : World) (e : Entity) (id : Id) : Prop where
  answer : (w.remove e id).1 = .ok (w.peek e id).isSome
  contents : (w.remove e id).2.contents = w.contents.unset e id
  wellFormed : (w.remove e id).2.WellFormed

theorem WellFormed.sheared (h : w.WellFormed) (hf : w.Fits) (he : w.isAlive e = true) (id : Id) :
    w.Sheared e id := by
  have hremove := h.remove hf e id
  have hbecomes := hremove.becomes
  rw [Contents.remove_snd] at hbecomes
  refine ⟨hremove.answer.trans ?_, hbecomes.contents, hbecomes.wellFormed⟩
  simp only [Contents.remove, show w.contents e = some (w.peek e) from if_pos he]

namespace Sheared

theorem isSome_peek (h : w.WellFormed) (id : Id) :
    (w.peek e id).isSome = (!id.isWildcard && w.has e id) := by
  rw [Bool.eq_iff_iff]
  cases hid : id.isWildcard with
  | true => exact iff_of_false (h.not_carries_wildcard hid) Bool.false_ne_true
  | false => exact (h.has_iff_carries hid).symm

theorem contents_of_wildcard (hs : w.Sheared e id) (h : w.WellFormed) (he : w.isAlive e = true)
    (hid : id.isWildcard = true) : (w.remove e id).2.contents = w.contents := by
  have hnone : w.peek e id = none := by
    have hno := h.not_carries_wildcard (e := e) hid
    rwa [Carries, Bool.not_eq_true, Option.isSome_eq_false_iff, Option.isNone_iff_eq_none] at hno
  rw [hs.contents]
  exact Contents.unset_eq_self (if_pos he) hnone

theorem has (hs : w.Sheared e id) (h : w.WellFormed) (he : w.isAlive e = true) :
    (w.remove e id).2.has e id = (id.isWildcard && w.has e id) := by
  cases hid : id.isWildcard with
  | true =>
    rw [Bool.true_and]
    exact has_congr h hs.wellFormed (hs.contents_of_wildcard h he hid) e id
  | false =>
    rw [Bool.false_and, ← Bool.not_eq_true, hs.wellFormed.has_iff_carries hid, carries_iff_value?,
      hs.contents, Contents.value?_unset, if_pos ⟨rfl, rfl⟩]
    exact Bool.false_ne_true

end Sheared

/-- A removal succeeds for every id. It agrees with what is there unless the id is a wildcard that
some pair satisfies: then it tells that nothing was there, and everything stays. -/
theorem Reachable.removes_iff (h : w.Reachable) (he : w.isAlive e = true) (id : Id) :
    (w.remove e id).1 = .ok (!id.isWildcard && w.has e id) ∧
    (w.remove e id).2.has e id = (id.isWildcard && w.has e id) ∧
    (w.remove e id).2.contents = w.contents.unset e id ∧
    (id.isWildcard = true → (w.remove e id).2.contents = w.contents) ∧
    (w.Removes e id ↔ (id.isWildcard = true → w.has e id = false)) := by
  have hw := h.wellFormed
  have hs := hw.sheared h.fits he id
  have hanswer := hs.answer
  rw [Sheared.isSome_peek hw id] at hanswer
  have hafter := hs.has hw he
  refine ⟨hanswer, hafter, hs.contents, hs.contents_of_wildcard hw he, fun hall hid => ?_,
    fun hknown b hb => ?_⟩
  · have hgone := (hall _ hanswer).2
    rwa [hafter, hid, Bool.true_and] at hgone
  · obtain rfl := Except.ok.inj (hanswer.symm.trans hb)
    rw [hafter]
    cases hid : id.isWildcard with
    | true => rw [hknown hid]; exact ⟨rfl, rfl⟩
    | false => exact ⟨rfl, rfl⟩

theorem removes_iff_family : family.Reachable ∧ family.isAlive ⟨2, 0⟩ = true ∧
    (family.remove ⟨2, 0⟩ (Id.pair ⟨1⟩ ⟨0, 0⟩)).1 = .ok true ∧
    (family.Removes ⟨2, 0⟩ (Id.pair ⟨1⟩ ⟨0, 0⟩) ↔
      ((Id.pair ⟨1⟩ ⟨0, 0⟩).isWildcard = true →
        family.has ⟨2, 0⟩ (Id.pair ⟨1⟩ ⟨0, 0⟩) = false)) := by
  have he : family.isAlive ⟨2, 0⟩ = true := by decide +kernel
  obtain ⟨-, -, -, -, hiff⟩ := reachable_family.removes_iff he (Id.pair ⟨1⟩ ⟨0, 0⟩)
  exact ⟨reachable_family, he, by decide +kernel, hiff⟩

def suitor : World :=
  World.new.run [.registerType ((TypeDescription.tag "Game.Likes").relationship .remove),
    .spawn, .spawn, .addPair ⟨0, 0⟩ ⟨1⟩ ⟨1, 0⟩]

/-- Entity 0 likes somebody, there is nothing to remove of that, and it still likes somebody. -/
theorem suitor_not_removes : suitor.Reachable ∧ suitor.isAlive ⟨0, 0⟩ = true ∧
    suitor.has ⟨0, 0⟩ (Id.wildcard ⟨1⟩) = true ∧
    (suitor.remove ⟨0, 0⟩ (Id.wildcard ⟨1⟩)).1 = .ok false ∧
    (suitor.remove ⟨0, 0⟩ (Id.wildcard ⟨1⟩)).2.has ⟨0, 0⟩ (Id.wildcard ⟨1⟩) = true ∧
    ¬ suitor.Removes ⟨0, 0⟩ (Id.wildcard ⟨1⟩) := by
  have hthere : suitor.has ⟨0, 0⟩ (Id.wildcard ⟨1⟩) = true := by decide +kernel
  have hanswer : (suitor.remove ⟨0, 0⟩ (Id.wildcard ⟨1⟩)).1 = .ok false := by decide +kernel
  refine ⟨Reachable.new.run (by decide +kernel), by decide +kernel, hthere, hanswer,
    by decide +kernel, fun hall => ?_⟩
  cases hthere.symm.trans (hall false hanswer).1.symm

end World
end EntityWorld
