import EntityWorld.Proofs.Column
import EntityWorld.Proofs.IdOrder
set_option autoImplicit false

/-!
Tables seen by row and id. `cells` are the values of an id, `row?` is a row with all its values.
Every operation of a table is described through these two, whatever the order of its columns.
-/
namespace EntityWorld.Archetype

/-! ### Positions of ids -/

theorem getElem?_of_lastIndexOf? {id : Id} {ids : List Id} {i : Nat}
    (h : lastIndexOf? id ids = some i) : ids[i]? = some id := by
  induction ids generalizing i with
  | nil => simp [lastIndexOf?] at h
  | cons x xs ih =>
    rw [lastIndexOf?] at h
    cases hx : lastIndexOf? id xs with
    | some j =>
      simp only [hx, Option.some.injEq] at h
      subst h
      simpa using ih hx
    | none =>
      simp only [hx] at h
      split at h
      · next he =>
        cases h
        simp [he]
      · cases h

theorem lastIndexOf?_eq_none {id : Id} {ids : List Id} (h : lastIndexOf? id ids = none) :
    id ∉ ids := by
  induction ids with
  | nil => exact List.not_mem_nil
  | cons x xs ih =>
    rw [lastIndexOf?] at h
    cases hx : lastIndexOf? id xs with
    | some j => simp [hx] at h
    | none =>
      simp only [hx] at h
      split at h
      · cases h
      · next he =>
        rw [List.mem_cons, not_or]
        exact ⟨fun hh => he hh.symm, ih hx⟩

variable {a b dst : Archetype} {id : Id} {row : Nat}

theorem isSome_columnIndex? : (a.columnIndex? id).isSome = true ↔ id ∈ a.ids := by
  unfold columnIndex?
  cases h : lastIndexOf? id a.ids with
  | none => simpa using lastIndexOf?_eq_none h
  | some i => simpa using List.mem_of_getElem? (getElem?_of_lastIndexOf? h)

theorem columnIndex?_eq_some_iff (hn : a.ids.Nodup) {i : Nat} :
    a.columnIndex? id = some i ↔ a.ids[i]? = some id := by
  constructor
  · exact getElem?_of_lastIndexOf?
  · intro h
    obtain ⟨j, hj⟩ := Option.isSome_iff_exists.1
      (isSome_columnIndex?.2 (List.mem_of_getElem? h))
    have hj' := getElem?_of_lastIndexOf? hj
    obtain ⟨hlt, -⟩ := List.getElem?_eq_some_iff.1 h
    rw [hj, (List.getElem?_inj hlt hn).1 (h.trans hj'.symm)]

theorem contains_iff (hw : id.isWildcard = false) : a.contains id = true ↔ id ∈ a.ids := by
  rw [contains, hw, if_neg Bool.false_ne_true, isSome_columnIndex?]

/-! ### Columns by id -/

theorem column?_eq_some_iff (hn : a.ids.Nodup) {c : Column} :
    a.column? id = some c ↔ ∃ i : Nat, a.ids[i]? = some id ∧ a.columns[i]? = some c := by
  unfold column?
  cases h : a.columnIndex? id with
  | none =>
    have hid : id ∉ a.ids := lastIndexOf?_eq_none h
    constructor
    · intro hc
      cases hc
    · intro hex
      obtain ⟨i, hi, -⟩ := hex
      exact absurd (List.mem_of_getElem? hi) hid
  | some i =>
    have hi := (columnIndex?_eq_some_iff hn).1 h
    constructor
    · intro hc
      exact ⟨i, hi, hc⟩
    · intro hex
      obtain ⟨j, hj, hc⟩ := hex
      have hlt := (List.getElem?_eq_some_iff.1 hi).1
      have hij : i = j := (List.getElem?_inj hlt hn).1 (hi.trans hj.symm)
      rwa [hij]

def cells (a : Archetype) (id : Id) : Option (Array Value) := (a.column? id).map Column.rows

/-- An entity with the values of its ids. -/
def row? (a : Archetype) (i : Nat) : Option (Entity × (Id → Option Value)) :=
  a.entities[i]?.map fun e => (e, a.value? i)

theorem value?_eq_cells (i : Nat) (id : Id) : a.value? i id = (a.cells id).bind (·[i]?) := by
  unfold value? cells
  cases a.column? id <;> rfl

/-- The ids are in order, none is a wildcard, and each column is of the type of its id. -/
structure Shaped (r : Registry) (a : Archetype) : Prop where
  sorted : Id.Sorted a.ids
  concrete : ∀ id ∈ a.ids, id.isWildcard = false
  typed : (a.ids.map fun id => r.descriptor? id.typeHandle) = (a.columns.map Column.type).map some

def Filled (a : Archetype) : Prop := ∀ c ∈ a.columns, c.size = a.size

namespace Shaped

variable {r : Registry}

theorem nodup (h : Shaped r a) : a.ids.Nodup := h.sorted.nodup

theorem length_columns (h : Shaped r a) : a.columns.length = a.ids.length := by
  have := congrArg List.length h.typed
  simpa using this.symm

theorem congr (h : Shaped r a) (hids : b.ids = a.ids)
    (htypes : b.columns.map Column.type = a.columns.map Column.type) : Shaped r b := by
  refine ⟨?_, ?_, ?_⟩
  · rw [hids]
    exact h.sorted
  · rw [hids]
    exact h.concrete
  · rw [hids, htypes]
    exact h.typed

theorem isSome_cells (h : Shaped r a) : (a.cells id).isSome = true ↔ id ∈ a.ids := by
  rw [cells, Option.isSome_map]
  constructor
  · intro hc
    obtain ⟨c, hc⟩ := Option.isSome_iff_exists.1 hc
    obtain ⟨i, hi, -⟩ := (column?_eq_some_iff h.nodup).1 hc
    exact List.mem_of_getElem? hi
  · intro hid
    obtain ⟨i, hi⟩ := List.mem_iff_getElem?.1 hid
    have hlt : i < a.columns.length := by
      rw [h.length_columns]
      exact (List.getElem?_eq_some_iff.1 hi).1
    rw [(column?_eq_some_iff h.nodup).2 ⟨i, hi, List.getElem?_eq_getElem hlt⟩]
    rfl

theorem descriptor?_of_column? (h : Shaped r a) {c : Column} (hc : a.column? id = some c) :
    r.descriptor? id.typeHandle = some c.type := by
  obtain ⟨i, hi, hc⟩ := (column?_eq_some_iff h.nodup).1 hc
  have := congrArg (·[i]?) h.typed
  simpa [hi, hc] using this

theorem exists_descriptor? (h : Shaped r a) (hid : id ∈ a.ids) :
    ∃ d, r.descriptor? id.typeHandle = some d := by
  have hc := h.isSome_cells.2 hid
  rw [cells, Option.isSome_map, Option.isSome_iff_exists] at hc
  obtain ⟨c, hc⟩ := hc
  exact ⟨c.type, h.descriptor?_of_column? hc⟩

theorem filled_iff (h : Shaped r a) :
    a.Filled ↔ ∀ id vs, a.cells id = some vs → vs.size = a.size := by
  constructor
  · intro hf id vs hvs
    obtain ⟨c, hc, rfl⟩ := Option.map_eq_some_iff.1 hvs
    obtain ⟨i, -, hc⟩ := (column?_eq_some_iff h.nodup).1 hc
    exact hf c (List.mem_of_getElem? hc)
  · intro hf c hc
    obtain ⟨i, hi⟩ := List.mem_iff_getElem?.1 hc
    have hlt : i < a.ids.length := by
      rw [← h.length_columns]
      exact (List.getElem?_eq_some_iff.1 hi).1
    have hcol := (column?_eq_some_iff h.nodup).2 ⟨i, List.getElem?_eq_getElem hlt, hi⟩
    exact hf a.ids[i] c.rows (by rw [cells, hcol]; rfl)

theorem isSome_value? (h : Shaped r a) (hf : a.Filled) {i : Nat} (hi : i < a.size) :
    (a.value? i id).isSome = true ↔ id ∈ a.ids := by
  rw [value?_eq_cells, ← h.isSome_cells]
  cases hc : a.cells id with
  | none => simp
  | some vs =>
    have hs := h.filled_iff.1 hf id vs hc
    have hlt : i < vs.size := by omega
    simp [hlt]

end Shaped

theorem row?_eq_some_iff {i : Nat} {e : Entity} {m : Id → Option Value} :
    a.row? i = some (e, m) ↔ a.entities[i]? = some e ∧ a.value? i = m := by
  unfold row?
  cases a.entities[i]? <;> simp

theorem row?_eq_none_iff {i : Nat} : a.row? i = none ↔ a.size ≤ i := by
  simp [row?, size]

/-! ### Changing a column -/

section
variable (f : Column → Column × List HookEvent)

theorem updateColumn_fst :
    (a.updateColumn id f).1 = { a with columns := (a.updateColumn id f).1.columns } := by
  unfold updateColumn
  split
  · rfl
  · split <;> rfl

theorem types_updateColumn (hf : ∀ c, (f c).1.type = c.type) :
    (a.updateColumn id f).1.columns.map Column.type = a.columns.map Column.type := by
  unfold updateColumn
  cases a.columnIndex? id with
  | none => rfl
  | some i =>
    cases hc : a.columns[i]? with
    | none => simp [hc]
    | some c =>
      obtain ⟨hi, rfl⟩ := List.getElem?_eq_some_iff.1 hc
      have hi' : i < (a.columns.map Column.type).length := by simpa using hi
      have hset := List.set_getElem_self hi'
      rw [List.getElem_map] at hset
      simpa only [hc, List.map_set, hf] using hset

theorem cells_updateColumn (x : Id) :
    (a.updateColumn id f).1.cells x =
      if x = id then (a.column? id).map fun c => (f c).1.rows else a.cells x := by
  unfold updateColumn
  cases hi : a.columnIndex? id with
  | none =>
    by_cases hx : x = id
    · subst hx
      simp [cells, column?, hi]
    · rw [if_neg hx]
  | some i =>
    cases hc : a.columns[i]? with
    | none =>
      by_cases hx : x = id
      · subst hx
        simp [cells, column?, hi, hc]
      · simp [hc, if_neg hx]
    | some c =>
      have hlt := (List.getElem?_eq_some_iff.1 hc).1
      have hcol : ∀ j, ({ a with columns := a.columns.set i (f c).1 } : Archetype).columnIndex? j =
          a.columnIndex? j := fun _ => rfl
      by_cases hx : x = id
      · subst hx
        simp only [cells, column?, hcol, hi, hc, List.getElem?_set_self hlt, if_true]
        rfl
      · rw [if_neg hx]
        simp only [hc, cells, column?, hcol]
        cases hj : a.columnIndex? x with
        | none => rfl
        | some j =>
          have hij : i ≠ j := by
            intro heq
            subst heq
            have h1 := getElem?_of_lastIndexOf? hi
            have h2 := getElem?_of_lastIndexOf? hj
            rw [h1] at h2
            exact hx (Option.some.inj h2).symm
          simp [hij]

end

end EntityWorld.Archetype
