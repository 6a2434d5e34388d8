import EntityWorld.Proofs.Archetype
set_option autoImplicit false

/-!
Taking a row out of a table and giving a table a new row. `vacate` is a table without one of its
rows; `Gains` says that a table has got one more row and is otherwise the same.
-/
namespace EntityWorld.Archetype

variable {a b dst : Archetype} {id : Id} {row : Nat} {r : Registry}

/-! ### Taking a row out -/

/-- The table without a row: in every column and among the entities the last one takes its
place. -/
def vacate (a : Archetype) (row : Nat) : Archetype :=
  { a with columns := a.columns.map fun c => (c.swapRemove row).1
           entities := swapRemoved a.entities row }

theorem dropRow_fst (row : Nat) (cs : List Column) :
    (dropRow row cs).1 = cs.map fun c => (c.swapRemove row).1 := by
  induction cs with
  | nil => rfl
  | cons c cs ih => simp only [dropRow, List.map_cons, ih]

theorem swapRemoveEntity_fst (a : Archetype) (row : Nat) :
    (a.swapRemoveEntity row).1 = if row + 1 < a.size then a.entities[a.size - 1]? else none := by
  unfold swapRemoveEntity
  rw [size, ← Array.back?_eq_getElem?]
  cases hb : a.entities.back? with
  | none => simp
  | some last => by_cases h : row + 1 < a.entities.size <;> simp [h]

theorem swapRemoveEntity_snd (a : Archetype) (row : Nat) :
    (a.swapRemoveEntity row).2 = { a with entities := swapRemoved a.entities row } := by
  unfold swapRemoveEntity swapRemoved
  cases a.entities.back? with
  | none => rfl
  | some last => by_cases h : row + 1 < a.entities.size <;> simp [size, h]

theorem size_vacate : (a.vacate row).size = a.size - 1 := size_swapRemoved _ _

theorem cells_vacate (hs : Shaped r a) (hf : a.Filled) (hr : row < a.size) (id : Id) :
    (a.vacate row).cells id = (a.cells id).map fun vs => swapRemoved vs row := by
  have hcol : (a.vacate row).column? id = (a.column? id).map fun c => (c.swapRemove row).1 := by
    unfold column?
    have hi : (a.vacate row).columnIndex? id = a.columnIndex? id := rfl
    rw [hi]
    cases a.columnIndex? id with
    | none => rfl
    | some i => simp [vacate]
  rw [cells, hcol, cells]
  cases hc : a.column? id with
  | none => rfl
  | some c =>
    have hsize : c.rows.size = a.size := hs.filled_iff.1 hf id c.rows (by simp [cells, hc])
    have hlt : row < c.size := by
      rw [Column.size]
      omega
    simp [c.rows_swapRemove hlt]

theorem Shaped.vacate (hs : Shaped r a) (row : Nat) : Shaped r (a.vacate row) := by
  refine hs.congr rfl ?_
  simp [Archetype.vacate]

theorem Filled.vacate (hs : Shaped r a) (hf : a.Filled) (hr : row < a.size) :
    (a.vacate row).Filled := by
  rw [(hs.vacate row).filled_iff]
  intro id vs hvs
  rw [cells_vacate hs hf hr] at hvs
  obtain ⟨us, hus, rfl⟩ := Option.map_eq_some_iff.1 hvs
  rw [size_swapRemoved, size_vacate, hs.filled_iff.1 hf id us hus]

theorem row?_vacate (hs : Shaped r a) (hf : a.Filled) (hr : row < a.size) (i : Nat) :
    (a.vacate row).row? i =
      if i + 1 < a.size then if i = row then a.row? (a.size - 1) else a.row? i else none := by
  have hents : (a.vacate row).entities[i]? = _ := getElem?_swapRemoved hr i
  have hvals : i + 1 < a.size →
      (a.vacate row).value? i = if i = row then a.value? (a.size - 1) else a.value? i := by
    intro hi
    funext id
    rw [value?_eq_cells, cells_vacate hs hf hr]
    have hval : ∀ j, a.value? j id = (a.cells id).bind (·[j]?) := fun j => value?_eq_cells j id
    cases hc : a.cells id with
    | none => split <;> simp [hval, hc]
    | some vs =>
      have hsize := hs.filled_iff.1 hf id vs hc
      have hlt : row < vs.size := by omega
      simp only [Option.map_some, Option.bind_some, getElem?_swapRemoved hlt]
      rw [if_pos (by omega)]
      by_cases he : i = row
      · rw [if_pos he, if_pos he, hval, hc, hsize]
        rfl
      · rw [if_neg he, if_neg he, hval, hc]
        rfl
  unfold row?
  rw [hents]
  by_cases hi : i + 1 < a.entities.size
  · rw [if_pos hi, hvals hi]
    rw [size, if_pos hi]
    split <;> rfl
  · rw [if_neg hi, size, if_neg hi]
    rfl

/-! ### Moving the values of a row -/

theorem takeRow_cons_snd (row : Nat) (id : Id) (c : Column) (rest : List (Id × Column))
    (dst : Archetype) :
    (takeRow row ((id, c) :: rest) dst).2.1 =
      (takeRow row rest
        (dst.updateColumn id fun d => ((c.swapRemoveInto row d).2.1, [])).1).2.1 := by
  rw [takeRow, updateColumn]
  cases hi : dst.columnIndex? id with
  | none => rfl
  | some i => cases hd : dst.columns[i]? <;> simp only [hd]

theorem takeRow_fst (row : Nat) (l : List (Id × Column)) (dst : Archetype)
    (hlen : dst.columns.length = dst.ids.length) :
    (takeRow row l dst).1 = l.map fun p => (p.2.swapRemove row).1 := by
  induction l generalizing dst with
  | nil => rfl
  | cons p rest ih =>
    obtain ⟨id, c⟩ := p
    rw [takeRow]
    cases hi : dst.columnIndex? id with
    | none => simp only [ih dst hlen, List.map_cons]
    | some i =>
      have hlt : i < dst.columns.length := by
        rw [hlen]
        exact (List.getElem?_eq_some_iff.1 (getElem?_of_lastIndexOf? hi)).1
      have hd := List.getElem?_eq_getElem hlt
      simp only [hd, List.map_cons, Column.swapRemoveInto_fst]
      rw [ih _ (by simpa using hlen)]

theorem takeRow_snd (row : Nat) (l : List (Id × Column)) (dst : Archetype) :
    (takeRow row l dst).2.1 = { dst with columns := (takeRow row l dst).2.1.columns } := by
  induction l generalizing dst with
  | nil => rfl
  | cons p rest ih =>
    rw [takeRow_cons_snd, ih, updateColumn_fst]

theorem types_takeRow (row : Nat) (l : List (Id × Column)) (dst : Archetype) :
    (takeRow row l dst).2.1.columns.map Column.type = dst.columns.map Column.type := by
  induction l generalizing dst with
  | nil => rfl
  | cons p rest ih =>
    rw [takeRow_cons_snd, ih, types_updateColumn]
    intro d
    exact p.2.type_swapRemoveInto d

theorem cells_takeRow_of_not_mem {l : List (Id × Column)} (h : id ∉ l.map Prod.fst) :
    (takeRow row l dst).2.1.cells id = dst.cells id := by
  induction l generalizing dst with
  | nil => rfl
  | cons p rest ih =>
    rw [List.map_cons, List.mem_cons, not_or] at h
    rw [takeRow_cons_snd, ih h.2, cells_updateColumn, if_neg h.1]

theorem cells_takeRow_of_mem {l : List (Id × Column)} (hn : (l.map Prod.fst).Nodup) {c : Column}
    (h : (id, c) ∈ l) :
    (takeRow row l dst).2.1.cells id = (dst.cells id).map fun vs =>
      match c.rows[row]? with
      | some v => vs.push v
      | none => vs := by
  induction l generalizing dst with
  | nil => cases h
  | cons p rest ih =>
    obtain ⟨id', c'⟩ := p
    rw [List.map_cons, List.nodup_cons] at hn
    rw [takeRow_cons_snd]
    rcases List.mem_cons.1 h with he | hr
    · cases he
      rw [cells_takeRow_of_not_mem hn.1, cells_updateColumn, if_pos rfl, cells, Option.map_map]
      congr 1
      funext d
      exact Column.rows_swapRemoveInto c d
    · have hne : id ≠ id' := by
        have hid : id ∈ rest.map Prod.fst := List.mem_map_of_mem (f := Prod.fst) hr
        intro heq
        subst heq
        exact hn.1 hid
      rw [ih hn.2 hr, cells_updateColumn, if_neg hne]

theorem cells_takeRow (hs : Shaped r a) (row : Nat) (dst : Archetype) (id : Id) :
    (takeRow row (a.ids.zip a.columns) dst).2.1.cells id = (dst.cells id).map fun vs =>
      match a.value? row id with
      | some v => vs.push v
      | none => vs := by
  have hfst : (a.ids.zip a.columns).map Prod.fst = a.ids :=
    List.map_fst_zip (Nat.le_of_eq hs.length_columns.symm)
  unfold value?
  cases hc : a.column? id with
  | none =>
    have hid : id ∉ a.ids := by
      rw [← hs.isSome_cells, cells, hc]
      exact Bool.false_ne_true
    rw [cells_takeRow_of_not_mem (by rwa [hfst])]
    simp
  | some c =>
    obtain ⟨i, hi, hci⟩ := (column?_eq_some_iff hs.nodup).1 hc
    have hmem : (id, c) ∈ a.ids.zip a.columns := by
      apply List.mem_of_getElem? (i := i)
      rw [List.getElem?_zip_eq_some]
      exact ⟨hi, hci⟩
    rw [cells_takeRow_of_mem (by rw [hfst]; exact hs.nodup) hmem]

/-! ### A new row -/

/-- `b` is `a` with one more row, for `e` with the values `m`. -/
structure Gains (a b : Archetype) (e : Entity) (m : Id → Option Value) : Prop where
  entities : b.entities = a.entities.push e
  defined : ∀ id, (m id).isSome = (a.cells id).isSome
  cells : ∀ id, b.cells id = (a.cells id).bind fun vs => (m id).map vs.push

namespace Gains

variable {e : Entity} {m : Id → Option Value}

theorem size (h : Gains a b e m) : b.size = a.size + 1 := by
  rw [Archetype.size, h.entities, Array.size_push]
  rfl

theorem filled (h : Gains a b e m) (ha : Shaped r a) (hb : Shaped r b) (hf : a.Filled) :
    b.Filled := by
  rw [hb.filled_iff]
  intro id vs hvs
  rw [h.cells] at hvs
  obtain ⟨us, hus, hvs⟩ := Option.bind_eq_some_iff.1 hvs
  obtain ⟨v, -, rfl⟩ := Option.map_eq_some_iff.1 hvs
  rw [Array.size_push, h.size, ha.filled_iff.1 hf id us hus]

theorem row? (h : Gains a b e m) (ha : Shaped r a) (hf : a.Filled) (i : Nat) :
    b.row? i = if i = a.size then some (e, m) else a.row? i := by
  have hval : ∀ id, b.value? i id = if i = a.size then m id else a.value? i id := by
    intro id
    have hd := h.defined id
    rw [value?_eq_cells, value?_eq_cells, h.cells]
    cases hc : a.cells id with
    | none =>
      rw [hc, Option.isSome_none, Option.isSome_eq_false_iff, Option.isNone_iff_eq_none] at hd
      simp [hd]
    | some vs =>
      rw [hc, Option.isSome_some, Option.isSome_iff_exists] at hd
      obtain ⟨v, hv⟩ := hd
      have hsize := ha.filled_iff.1 hf id vs hc
      simp only [hv, Option.bind_some, Option.map_some, Array.getElem?_push, hsize]
  unfold Archetype.row?
  rw [h.entities, Array.getElem?_push]
  have hfun : b.value? i = if i = a.size then m else a.value? i := by
    funext id
    rw [hval]
    split <;> rfl
  rw [hfun]
  by_cases hi : i = a.size
  · simp [Archetype.size] at hi
    simp [hi, Archetype.size]
  · have hi' : i ≠ a.entities.size := hi
    simp [hi, hi']

end Gains
end EntityWorld.Archetype
