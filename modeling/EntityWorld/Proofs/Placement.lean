import EntityWorld.Proofs.Storage
set_option autoImplicit false

/-!
Where rows stand. Taking a row out, giving an entity a row and writing into a row are changes of the
map from places to rows; `Placed` says that this map and the places kept for the slots fit together,
and `Holds` forgets the places.
-/
namespace EntityWorld

abbrev RowMap := Location → Option (Entity × (Id → Option Value))

namespace RowMap

variable {rows : RowMap} {slot : UInt32 → Option Location} {alive : Entity → Prop}
variable {p q l : Location} {e e' x : Entity} {m m' k : Id → Option Value}

/-- The row at `p` is gone and the one at `last` has taken its place. -/
def vacate (rows : RowMap) (p last : Location) : RowMap :=
  Function.update (Function.update rows p (rows last)) last none

theorem vacate_eq_some_iff (hq : rows q = some (e', m')) :
    rows.vacate p q l = some (x, k) ↔
      l ≠ q ∧ ((l = p ∧ x = e' ∧ k = m') ∨ (l ≠ p ∧ rows l = some (x, k))) := by
  unfold vacate
  by_cases hlq : l = q
  · simp [hlq]
  · by_cases hlp : l = p
    · subst hlp
      simp [hlq, hq, eq_comm]
    · simp [hlq, hlp]

theorem update_eq_some_iff :
    Function.update rows q (some (e, m)) l = some (x, k) ↔
      (l = q ∧ x = e ∧ k = m) ∨ (l ≠ q ∧ rows l = some (x, k)) := by
  by_cases hl : l = q
  · subst hl
    simp [eq_comm]
  · simp [hl]

def Holds (rows : RowMap) (e : Entity) (m : Id → Option Value) : Prop := ∃ l, rows l = some (e, m)

/-- Every row is where its entity's slot says, and the entities with rows are the live ones. -/
structure Placed (rows : RowMap) (slot : UInt32 → Option Location) (alive : Entity → Prop) :
    Prop where
  placed : ∀ i l, slot i = some l ↔ ∃ e m, rows l = some (e, m) ∧ e.index = i
  occupied : ∀ e, alive e ↔ ∃ m, rows.Holds e m

namespace Placed

theorem slot_of_row (h : Placed rows slot alive) (hp : rows p = some (e, m)) :
    slot e.index = some p :=
  (h.placed _ _).2 ⟨e, m, hp, rfl⟩

theorem alive_of_row (h : Placed rows slot alive) (hp : rows p = some (e, m)) : alive e :=
  (h.occupied e).2 ⟨m, p, hp⟩

theorem place_inj (h : Placed rows slot alive) (hp : rows p = some (e, m))
    (hq : rows q = some (e', m')) (hi : e.index = e'.index) : p = q := by
  have h1 := h.slot_of_row hp
  have h2 := h.slot_of_row hq
  rw [hi, h2] at h1
  exact (Option.some.inj h1).symm

theorem row_of_alive (h : Placed rows slot alive) (he : alive e) :
    ∃ l m, slot e.index = some l ∧ rows l = some (e, m) := by
  obtain ⟨m, l, hl⟩ := (h.occupied e).1 he
  exact ⟨l, m, h.slot_of_row hl, hl⟩

/-! ### Taking a row out -/

theorem index_eq_iff (h : Placed rows slot alive) (hp : rows p = some (e, m))
    (hq : rows q = some (e', m')) : e.index = e'.index ↔ p = q := by
  constructor
  · exact h.place_inj hp hq
  · intro hpq
    subst hpq
    rw [hp] at hq
    cases hq
    rfl

theorem holds_vacate (h : Placed rows slot alive) (hp : rows p = some (e, m))
    (hq : rows q = some (e', m')) : (rows.vacate p q).Holds x k ↔ rows.Holds x k ∧ x ≠ e := by
  have hepq := h.index_eq_iff hp hq
  constructor
  · intro hex
    obtain ⟨l, hl⟩ := hex
    obtain ⟨hlq, ⟨rfl, rfl, rfl⟩ | ⟨hlp, hx⟩⟩ := (vacate_eq_some_iff hq).1 hl
    · exact ⟨⟨q, hq⟩, fun hh => hlq (hepq.1 (hh ▸ rfl))⟩
    · exact ⟨⟨l, hx⟩, fun hh => hlp (h.place_inj hx hp (hh ▸ rfl))⟩
  · intro hex
    obtain ⟨⟨l, hl⟩, hne⟩ := hex
    have hlp : l ≠ p := by
      intro hh
      rw [hh, hp] at hl
      cases hl
      exact hne rfl
    by_cases hlq : l = q
    · subst hlq
      rw [hq] at hl
      cases hl
      exact ⟨p, (vacate_eq_some_iff hq).2 ⟨Ne.symm hlp, .inl ⟨rfl, rfl, rfl⟩⟩⟩
    · exact ⟨l, (vacate_eq_some_iff hq).2 ⟨hlq, .inr ⟨hlp, hl⟩⟩⟩

theorem vacate (h : Placed rows slot alive) (hp : rows p = some (e, m))
    (hq : rows q = some (e', m')) :
    Placed (rows.vacate p q)
      (fun i => if i = e.index then none else if i = e'.index then some p else slot i)
      (fun x => alive x ∧ x ≠ e) := by
  have hepq := h.index_eq_iff hp hq
  refine ⟨fun i l => ?_, fun x => ?_⟩
  · constructor
    · intro hi
      split at hi
      · cases hi
      · next hne =>
        split at hi
        · next he =>
          cases hi
          refine ⟨e', m', (vacate_eq_some_iff hq).2 ⟨?_, .inl ⟨rfl, rfl, rfl⟩⟩, he.symm⟩
          intro hpq
          exact hne (he.trans (hepq.2 hpq).symm)
        · next hne' =>
          obtain ⟨x, k, hx, rfl⟩ := (h.placed i l).1 hi
          refine ⟨x, k, (vacate_eq_some_iff hq).2 ⟨?_, .inr ⟨?_, hx⟩⟩, rfl⟩
          · intro hh
            rw [hh, hq] at hx
            cases hx
            exact hne' rfl
          · intro hh
            rw [hh, hp] at hx
            cases hx
            exact hne rfl
    · intro hex
      obtain ⟨x, k, hx, hi⟩ := hex
      subst hi
      obtain ⟨hlq, ⟨rfl, rfl, rfl⟩ | ⟨hlp, hx⟩⟩ := (vacate_eq_some_iff hq).1 hx
      · rw [if_neg (fun hh => hlq (hepq.1 hh.symm)), if_pos rfl]
      · rw [if_neg (fun hh => hlp (h.place_inj hx hp hh)),
          if_neg (fun hh => hlq (h.place_inj hx hq hh))]
        exact h.slot_of_row hx
  · rw [h.occupied]
    simp only [h.holds_vacate hp hq, exists_and_right]

/-! ### A new row -/

theorem holds_occupy (hq : rows q = none) :
    RowMap.Holds (Function.update rows q (some (e, m))) x k ↔
      (x = e ∧ k = m) ∨ rows.Holds x k := by
  constructor
  · intro hex
    obtain ⟨l, hl⟩ := hex
    obtain ⟨-, hx⟩ | ⟨-, hx⟩ := update_eq_some_iff.1 hl
    · exact .inl hx
    · exact .inr ⟨l, hx⟩
  · intro hh
    obtain hx | ⟨l, hx⟩ := hh
    · exact ⟨q, update_eq_some_iff.2 (.inl ⟨rfl, hx⟩)⟩
    · refine ⟨l, update_eq_some_iff.2 (.inr ⟨?_, hx⟩)⟩
      intro hl
      rw [hl, hq] at hx
      cases hx

theorem occupy (h : Placed rows slot alive) (hq : rows q = none) (he : slot e.index = none)
    (m : Id → Option Value) :
    Placed (Function.update rows q (some (e, m))) (Function.update slot e.index (some q))
      (fun x => alive x ∨ x = e) := by
  refine ⟨fun i l => ?_, fun x => ?_⟩
  · by_cases hi : i = e.index
    · subst hi
      rw [Function.update_self, Option.some.injEq]
      constructor
      · intro hl
        exact ⟨e, m, update_eq_some_iff.2 (.inl ⟨hl.symm, rfl, rfl⟩), rfl⟩
      · intro hex
        obtain ⟨x, k, hx, hxe⟩ := hex
        obtain ⟨hl, -, -⟩ | ⟨-, hx⟩ := update_eq_some_iff.1 hx
        · exact hl.symm
        · have hs := h.slot_of_row hx
          rw [hxe, he] at hs
          cases hs
    · rw [Function.update_of_ne hi, h.placed]
      constructor
      · intro hex
        obtain ⟨x, k, hx, hxi⟩ := hex
        refine ⟨x, k, update_eq_some_iff.2 (.inr ⟨?_, hx⟩), hxi⟩
        intro hl
        rw [hl, hq] at hx
        cases hx
      · intro hex
        obtain ⟨x, k, hx, hxi⟩ := hex
        obtain ⟨-, rfl, -⟩ | ⟨-, hx⟩ := update_eq_some_iff.1 hx
        · exact absurd hxi.symm hi
        · exact ⟨x, k, hx, hxi⟩
  · rw [h.occupied]
    simp only [holds_occupy hq, exists_or, exists_and_left, exists_eq, and_true, or_comm]

/-! ### Writing into a row -/

theorem holds_write (h : Placed rows slot alive) (hp : rows p = some (e, m)) :
    RowMap.Holds (Function.update rows p (some (e, m'))) x k ↔
      (x = e ∧ k = m') ∨ (x ≠ e ∧ rows.Holds x k) := by
  constructor
  · intro hex
    obtain ⟨l, hl⟩ := hex
    obtain ⟨-, hx⟩ | ⟨hne, hx⟩ := update_eq_some_iff.1 hl
    · exact .inl hx
    · exact .inr ⟨fun hh => hne (h.place_inj hx hp (hh ▸ rfl)), l, hx⟩
  · intro hh
    obtain hx | ⟨hne, l, hx⟩ := hh
    · exact ⟨p, update_eq_some_iff.2 (.inl ⟨rfl, hx⟩)⟩
    · refine ⟨l, update_eq_some_iff.2 (.inr ⟨?_, hx⟩)⟩
      intro hl
      rw [hl, hp] at hx
      cases hx
      exact hne rfl

theorem write (h : Placed rows slot alive) (hp : rows p = some (e, m)) (m' : Id → Option Value) :
    Placed (Function.update rows p (some (e, m'))) slot alive := by
  have hrow : ∀ l x, (∃ k, Function.update rows p (some (e, m')) l = some (x, k)) ↔
      ∃ k, rows l = some (x, k) := by
    intro l x
    by_cases hl : l = p
    · subst hl
      simp [hp]
    · simp [hl]
  refine ⟨fun i l => ?_, fun x => ?_⟩
  · rw [h.placed]
    constructor
    · intro hex
      obtain ⟨x, k, hx, hi⟩ := hex
      obtain ⟨k', hk'⟩ := (hrow l x).2 ⟨k, hx⟩
      exact ⟨x, k', hk', hi⟩
    · intro hex
      obtain ⟨x, k, hx, hi⟩ := hex
      obtain ⟨k', hk'⟩ := (hrow l x).1 ⟨k, hx⟩
      exact ⟨x, k', hk', hi⟩
  · rw [h.occupied]
    constructor
    · intro hex
      obtain ⟨k, l, hl⟩ := hex
      obtain ⟨k', hk'⟩ := (hrow l x).2 ⟨k, hl⟩
      exact ⟨k', l, hk'⟩
    · intro hex
      obtain ⟨k, l, hl⟩ := hex
      obtain ⟨k', hk'⟩ := (hrow l x).1 ⟨k, hl⟩
      exact ⟨k', l, hk'⟩

end Placed
end RowMap
end EntityWorld
