import EntityWorld.Proofs.Placement
set_option autoImplicit false

/-!
What the operations on tables do to the map from places to rows.
-/
namespace EntityWorld.Storage

variable {s : Storage} {r : Registry} {a b t : Archetype} {i j : ArchetypeId} {id : Id}
variable {e : Entity} {m : Id → Option Value} {row : Nat} {v : Value}

theorem row?_of_get? (ha : s.get? i = some a) (n : Nat) : s.row? ⟨i, n⟩ = a.row? n := by
  rw [row?, ha]
  rfl

theorem row_lt_of_row? (ha : s.get? i = some a) {x : Entity × (Id → Option Value)}
    (h : s.row? ⟨i, row⟩ = some x) : row < a.size := by
  rw [row?_of_get? ha] at h
  rw [← Nat.not_le, ← Archetype.row?_eq_none_iff, h]
  simp

/-! ### Taking a row out -/

theorem WellFormed.set_vacate (h : s.WellFormed r) (ha : s.get? i = some a) (hr : row < a.size) :
    (s.set (a.vacate row)).WellFormed r := by
  have hs := h.shaped i a ha
  refine h.set_rows ha rfl ?_ (Archetype.Filled.vacate hs (h.filled i a ha) hr)
  simp [Archetype.vacate]

theorem WellFormed.row?_set_vacate (h : s.WellFormed r) (ha : s.get? i = some a)
    (hr : row < a.size) :
    (s.set (a.vacate row)).row? = RowMap.vacate s.row? ⟨i, row⟩ ⟨i, a.size - 1⟩ := by
  have hid : (a.vacate row).id = i := h.numbered i a ha
  have ha' : s.get? (a.vacate row).id = some a := by rw [hid, ha]
  funext l
  obtain ⟨k, n⟩ := l
  rw [row?_set ha', hid, RowMap.vacate]
  change (if k = i then (a.vacate row).row? n else s.row? ⟨k, n⟩) = _
  by_cases hk : k = i
  · subst hk
    rw [if_pos rfl, Archetype.row?_vacate (h.shaped k a ha) (h.filled k a ha) hr]
    by_cases hn : n = a.size - 1
    · rw [if_neg (by omega), hn, Function.update_self]
    · rw [Function.update_of_ne (by simpa using hn)]
      by_cases hr' : n = row
      · subst hr'
        rw [Function.update_self, if_pos (by omega), if_pos rfl, row?_of_get? ha]
      · rw [Function.update_of_ne (by simpa using hr'), if_neg hr', row?_of_get? ha]
        split
        · rfl
        · exact (Archetype.row?_eq_none_iff.2 (by omega)).symm
  · rw [if_neg hk, Function.update_of_ne (by simp [hk]), Function.update_of_ne (by simp [hk])]

def movedBy (a : Archetype) (row : Nat) : Option Entity :=
  if row + 1 < a.size then a.entities[a.size - 1]? else none

theorem removeRow_eq (ha : s.get? i = some a) (row : Nat) :
    s.removeRow i row = some ⟨s.set (a.vacate row), row, movedBy a row,
      (Archetype.dropRow row a.columns).2⟩ := by
  simp only [removeRow, ha, Archetype.dropRow_fst, Archetype.swapRemoveEntity_fst,
    Archetype.swapRemoveEntity_snd]
  rfl

/-! ### A table with one more row -/

theorem WellFormed.set_gains (h : s.WellFormed r) (hb : s.get? j = some b)
    (hframe : t = { b with columns := t.columns, entities := t.entities })
    (htypes : t.columns.map Column.type = b.columns.map Column.type)
    (hg : b.Gains t e m) :
    (s.set t).WellFormed r ∧
      (s.set t).row? = Function.update s.row? ⟨j, b.size⟩ (some (e, m)) := by
  have hs := h.shaped j b hb
  have hf := h.filled j b hb
  have hid : t.id = j := by rw [hframe, ← h.numbered j b hb]
  have hids : t.ids = b.ids := by rw [hframe]
  have hb' : s.get? t.id = some b := by rw [hid, hb]
  refine ⟨h.set_rows hb hframe htypes (hg.filled hs (hs.congr hids htypes) hf), ?_⟩
  funext l
  obtain ⟨k, n⟩ := l
  rw [row?_set hb', hid]
  by_cases hk : k = j
  · subst hk
    rw [if_pos rfl, hg.row? hs hf]
    by_cases hn : n = b.size
    · rw [if_pos hn, hn, Function.update_self]
    · rw [if_neg hn, Function.update_of_ne (by simpa using hn), row?_of_get? hb]
  · rw [if_neg hk, Function.update_of_ne (by simp [hk])]

theorem row?_size (hb : s.get? j = some b) : s.row? ⟨j, b.size⟩ = none := by
  rw [row?_of_get? hb]
  exact Archetype.row?_eq_none_iff.2 (Nat.le_refl _)

/-- The tables after a row has moved: `t` is the new table with the values that it took over, before
anything else is put into it. -/
theorem WellFormed.moveRow_eq (h : s.WellFormed r) (ha : s.get? i = some a)
    (hb : s.get? j = some b) (e : Entity) (row : Nat) :
    ∃ t events, s.moveRow e i row j =
        some ⟨(s.set (a.vacate row)).set t, b.size, movedBy a row, events⟩ ∧
      t = { b with columns := t.columns, entities := b.entities.push e } ∧
      t.columns.map Column.type = b.columns.map Column.type ∧
      ∀ id, t.cells id = (b.cells id).map fun vs =>
        match a.value? row id with
        | some v => vs.push v
        | none => vs := by
  have hs := h.shaped i a ha
  have hsb := h.shaped j b hb
  refine ⟨(Archetype.takeRow row (a.ids.zip a.columns) (b.pushEntity e)).2.1,
    (Archetype.takeRow row (a.ids.zip a.columns) (b.pushEntity e)).2.2, ?_, ?_, ?_, ?_⟩
  · have hfst := Archetype.takeRow_fst row (a.ids.zip a.columns) (b.pushEntity e)
      hsb.length_columns
    have hcols : (a.ids.zip a.columns).map (fun p => (p.2.swapRemove row).1) =
        a.columns.map fun c => (c.swapRemove row).1 := by
      have hsnd := List.map_snd_zip (Nat.le_of_eq hs.length_columns)
      conv_rhs => rw [← hsnd]
      rw [List.map_map]
      rfl
    simp only [moveRow, ha, hb, hfst, hcols, Archetype.swapRemoveEntity_fst,
      Archetype.swapRemoveEntity_snd]
    rfl
  · exact Archetype.takeRow_snd row (a.ids.zip a.columns) (b.pushEntity e)
  · exact Archetype.types_takeRow row (a.ids.zip a.columns) (b.pushEntity e)
  · exact Archetype.cells_takeRow hs row (b.pushEntity e)

theorem gains_of_takeRow (hs : b.Shaped r)
    (hframe : t = { b with columns := t.columns, entities := b.entities.push e })
    (hcells : ∀ id, t.cells id = (b.cells id).map fun vs =>
      match a.value? row id with
      | some v => vs.push v
      | none => vs)
    (hm : ∀ id ∈ b.ids, m id = a.value? row id ∧ (m id).isSome = true)
    (hm' : ∀ id, id ∉ b.ids → m id = none) : b.Gains t e m := by
  refine ⟨by rw [hframe], fun id => ?_, fun id => ?_⟩
  · by_cases hid : id ∈ b.ids
    · rw [(hm id hid).2, hs.isSome_cells.2 hid]
    · rw [hm' id hid, eq_comm, Option.isSome_none, ← Bool.not_eq_true, hs.isSome_cells]
      exact hid
  · rw [hcells]
    cases hc : b.cells id with
    | none => rfl
    | some vs =>
      have hid : id ∈ b.ids := hs.isSome_cells.1 (by rw [hc]; rfl)
      obtain ⟨hval, hsome⟩ := hm id hid
      obtain ⟨v, hv⟩ := Option.isSome_iff_exists.1 hsome
      rw [← hval, hv]
      rfl

theorem gains_of_fill (hs : b.Shaped r)
    (hframe : t = { b with columns := t.columns, entities := b.entities.push e })
    (hcells : ∀ id, t.cells id = (b.cells id).map fun vs =>
      match a.value? row id with
      | some v => vs.push v
      | none => vs)
    (hid : id ∈ b.ids) (hnone : a.value? row id = none)
    (hm : ∀ x ∈ b.ids, x ≠ id → (a.value? row x).isSome = true)
    (hm' : ∀ x, x ∉ b.ids → a.value? row x = none)
    {fill : Column → Column × List HookEvent}
    (hfill : ∀ c, t.column? id = some c → (fill c).1.rows = c.rows.push v) :
    b.Gains (t.updateColumn id fill).1 e (Function.update (a.value? row) id (some v)) := by
  refine ⟨by rw [Archetype.updateColumn_fst, hframe], fun x => ?_, fun x => ?_⟩
  · by_cases hx : x = id
    · subst hx
      rw [Function.update_self, Option.isSome_some, hs.isSome_cells.2 hid]
    · rw [Function.update_of_ne hx]
      by_cases hxb : x ∈ b.ids
      · rw [hm x hxb hx, hs.isSome_cells.2 hxb]
      · rw [hm' x hxb, eq_comm, Option.isSome_none, ← Bool.not_eq_true, hs.isSome_cells]
        exact hxb
  · rw [Archetype.cells_updateColumn]
    by_cases hx : x = id
    · subst hx
      have hcx : t.cells x = b.cells x := by
        rw [hcells, hnone]
        exact Option.map_id_apply
      rw [if_pos rfl, Function.update_self, ← hcx, Archetype.cells]
      cases hc : t.column? x with
      | none => rfl
      | some c =>
        rw [Option.map_some, hfill c hc]
        rfl
    · rw [if_neg hx, Function.update_of_ne hx, hcells]
      cases hc : b.cells x with
      | none => rfl
      | some vs =>
        have hxb : x ∈ b.ids := hs.isSome_cells.1 (by rw [hc]; rfl)
        obtain ⟨u, hu⟩ := Option.isSome_iff_exists.1 (hm x hxb hx)
        rw [hu]
        rfl

/-! ### Writing into a row -/

section

variable {f : Column → Column × List HookEvent}

theorem value?_write (hrows : ∀ c, (f c).1.rows = c.rows.setIfInBounds row v) (n : Nat) (x : Id) :
    (a.updateColumn id f).1.value? n x =
      if n = row ∧ x = id then (a.value? n x).map fun _ => v else a.value? n x := by
  rw [Archetype.value?_eq_cells, Archetype.value?_eq_cells, Archetype.cells_updateColumn]
  by_cases hx : x = id
  · subst hx
    rw [if_pos rfl, Archetype.cells]
    cases a.column? x with
    | none => simp
    | some c =>
      simp only [Option.map_some, Option.bind_some, hrows, Array.getElem?_setIfInBounds, and_true]
      by_cases hn : n = row
      · subst hn
        rw [if_pos rfl, if_pos rfl]
        split
        · next hlt => rw [Array.getElem?_eq_getElem hlt, Option.map_some]
        · next hlt => rw [Array.getElem?_eq_none (Nat.not_lt.1 hlt), Option.map_none]
      · rw [if_neg (Ne.symm hn), if_neg hn]
  · rw [if_neg hx, if_neg (fun hh => hx hh.2)]

theorem row?_write (hrows : ∀ c, (f c).1.rows = c.rows.setIfInBounds row v) (n : Nat) :
    (a.updateColumn id f).1.row? n =
      if n = row then
        (a.row? n).map fun r => (r.1, Function.update r.2 id ((r.2 id).map fun _ => v))
      else a.row? n := by
  have hents : (a.updateColumn id f).1.entities = a.entities := by rw [Archetype.updateColumn_fst]
  have hval : ∀ x, (a.updateColumn id f).1.value? n x =
      if n = row ∧ x = id then (a.value? n x).map fun _ => v else a.value? n x :=
    value?_write hrows n
  unfold Archetype.row?
  rw [hents]
  by_cases hn : n = row
  · have hfun : (a.updateColumn id f).1.value? n =
        Function.update (a.value? n) id ((a.value? n id).map fun _ => v) := by
      funext x
      rw [hval]
      by_cases hx : x = id
      · rw [if_pos ⟨hn, hx⟩, hx, Function.update_self]
      · rw [if_neg (fun hh => hx hh.2), Function.update_of_ne hx]
    rw [if_pos hn, hfun, Option.map_map]
    rfl
  · have hfun : (a.updateColumn id f).1.value? n = a.value? n := by
      funext x
      rw [hval, if_neg (fun hh => hn hh.1)]
    rw [if_neg hn, hfun]

theorem filled_write (hs : a.Shaped r) (hf : a.Filled) (htype : ∀ c, (f c).1.type = c.type)
    (hrows : ∀ c, (f c).1.rows = c.rows.setIfInBounds row v) : (a.updateColumn id f).1.Filled := by
  have hids : (a.updateColumn id f).1.ids = a.ids := by rw [Archetype.updateColumn_fst]
  have hsize : (a.updateColumn id f).1.size = a.size := by
    rw [Archetype.size, Archetype.updateColumn_fst]
    rfl
  rw [(hs.congr hids (Archetype.types_updateColumn f htype)).filled_iff, hsize]
  intro x vs hvs
  rw [Archetype.cells_updateColumn] at hvs
  split at hvs
  · obtain ⟨c, hc, rfl⟩ := Option.map_eq_some_iff.1 hvs
    rw [hrows, Array.size_setIfInBounds]
    exact hs.filled_iff.1 hf id c.rows (by rw [Archetype.cells, hc, Option.map_some])
  · exact hs.filled_iff.1 hf x vs hvs

theorem WellFormed.set_write (h : s.WellFormed r) (ha : s.get? i = some a) (id : Id)
    (htype : ∀ c, (f c).1.type = c.type)
    (hrows : ∀ c, (f c).1.rows = c.rows.setIfInBounds row v) :
    (s.set (a.updateColumn id f).1).WellFormed r ∧
      (s.set (a.updateColumn id f).1).row? = Function.update s.row? ⟨i, row⟩
        ((s.row? ⟨i, row⟩).map fun r =>
          (r.1, Function.update r.2 id ((r.2 id).map fun _ => v))) := by
  have hframe : (a.updateColumn id f).1 =
      { a with columns := (a.updateColumn id f).1.columns,
               entities := (a.updateColumn id f).1.entities } := by
    rw [Archetype.updateColumn_fst]
  have hid : (a.updateColumn id f).1.id = i := by
    rw [Archetype.updateColumn_fst, ← h.numbered i a ha]
  have ha' : s.get? (a.updateColumn id f).1.id = some a := by rw [hid, ha]
  refine ⟨h.set_rows ha hframe (Archetype.types_updateColumn f htype)
    (filled_write (h.shaped i a ha) (h.filled i a ha) htype hrows), ?_⟩
  funext l
  obtain ⟨k, n⟩ := l
  rw [row?_set ha', hid, row?_write hrows]
  by_cases hk : k = i
  · subst hk
    rw [if_pos rfl]
    by_cases hn : n = row
    · rw [if_pos hn, hn, Function.update_self, row?_of_get? ha]
    · rw [if_neg hn, Function.update_of_ne (by simpa using hn), row?_of_get? ha]
  · rw [if_neg hk, Function.update_of_ne (by simp [hk])]

end

end EntityWorld.Storage
