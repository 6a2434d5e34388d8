import EntityWorld.Proofs.Query.Cache
import EntityWorld.Proofs.World.Invariant
import Mathlib.Data.List.Flatten
set_option autoImplicit false

/-!
The rows of a query, and the cursor that hands them out one by one. The rows that a cursor still has
to give are a list that loses its head with each step.
-/
namespace EntityWorld.Query

variable {w : World} {source : TermList} {q : Query} {a : Archetype} {r : Row} {e : Entity}

/-! ### The rows of a table -/

theorem length_tableRows (a : Archetype) : (tableRows a).length = a.size := by
  simp [tableRows, Archetype.size]

theorem getElem?_tableRows (a : Archetype) (n : Nat) :
    (tableRows a)[n]? = a.entities[n]?.map fun e => ⟨e, a.id, n⟩ := by
  simp [tableRows, List.getElem?_zipIdx, Function.comp_def]

theorem mem_tableRows :
    r ∈ tableRows a ↔ r.archetype = a.id ∧ a.entities[r.row]? = some r.entity := by
  rw [List.mem_iff_getElem?]
  simp only [getElem?_tableRows, Option.map_eq_some_iff]
  constructor
  · intro hex
    obtain ⟨n, e, he, rfl⟩ := hex
    exact ⟨rfl, he⟩
  · intro hr
    obtain ⟨e, i, n⟩ := r
    obtain ⟨hi, he⟩ := hr
    exact ⟨n, e, he, by rw [← hi]⟩

theorem map_entity_tableRows (a : Archetype) :
    (tableRows a).map Row.entity = a.entities.toList := by
  refine List.ext_getElem? fun n => ?_
  simp [getElem?_tableRows, Function.comp_def]

theorem pairwise_tableRows (a : Archetype) :
    (tableRows a).Pairwise fun r s => r.archetype = s.archetype ∧ r.row < s.row := by
  refine List.pairwise_iff_getElem.2 fun i j hi hj hij => ?_
  simpa [tableRows] using hij

/-! ### All rows -/

def tables (q : Query) (w : World) : List Archetype := (q.candidates w).2.filterMap w.storage.get?

theorem rows_eq (q : Query) (w : World) : (q.rows w).2 = (q.tables w).flatMap tableRows := rfl

theorem tables_of_lost (h : q.targetLost w = true) : q.tables w = [] := by
  rw [tables, candidates, if_pos h]
  rfl

theorem targetLost_iff (hterms : q.terms = source.map Term.compiled) :
    q.targetLost w = true ↔ ∃ t ∈ source, t.role = .required ∧ ¬ w.TargetAlive t.id := by
  rw [targetLost, hterms, List.any_map, List.any_eq_true]
  refine exists_congr fun t => and_congr_right fun _ => ?_
  cases hx : t.id.entity? <;> simp [Term.compiled, World.TargetAlive, hx]

namespace Current

variable (h : Current source w q) (hw : w.WellFormed)

include h hw

theorem tables_eq (hlost : q.targetLost w = false) :
    q.tables w = w.storage.archetypes.toList.filter q.admits := by
  rw [tables, candidates, hlost, if_neg Bool.false_ne_true, h.refresh_eq, List.filterMap_map]
  have hget : ∀ a ∈ w.storage.archetypes.toList.filter q.admits,
      (w.storage.get? ∘ Archetype.id) a = some a := fun a ha =>
    hw.get?_of_mem (Array.mem_toList_iff.1 (List.mem_of_mem_filter ha))
  rw [List.filterMap_congr hget, List.filterMap_some]

theorem tables_sublist : (q.tables w).Sublist w.storage.archetypes.toList := by
  cases hlost : q.targetLost w with
  | true =>
    rw [tables_of_lost hlost]
    exact List.nil_sublist _
  | false =>
    rw [h.tables_eq hw hlost]
    exact List.filter_sublist

theorem mem_rows : r ∈ (q.rows w).2 ↔ q.targetLost w = false ∧
    ∃ a, w.Stands r.entity ⟨r.archetype, r.row⟩ a ∧ q.admits a = true := by
  rw [rows_eq, List.mem_flatMap]
  cases hlost : q.targetLost w with
  | true => simp [tables_of_lost hlost]
  | false =>
    rw [h.tables_eq hw hlost]
    simp only [List.mem_filter, Array.mem_toList_iff, mem_tableRows, true_and]
    constructor
    · intro hex
      obtain ⟨a, ⟨ha, hadmits⟩, hi, he⟩ := hex
      rw [hi]
      exact ⟨a, hw.stands_of_mem ha he, hadmits⟩
    · intro hex
      obtain ⟨a, hs, hadmits⟩ := hex
      exact ⟨a, ⟨Array.mem_of_getElem? hs.table, hadmits⟩,
        (hw.storage.numbered _ a hs.table).symm, hs.entity⟩

theorem exists_row_iff (hfits : ∀ t ∈ source, t.id.Fits) :
    (∃ r ∈ (q.rows w).2, r.entity = e) ↔ q.targetLost w = false ∧ w.isAlive e = true ∧
      ∀ t ∈ source, w.MeetsSlot e t := by
  constructor
  · intro hex
    obtain ⟨r, hr, rfl⟩ := hex
    obtain ⟨hlost, a, hs, hadmits⟩ := (h.mem_rows hw).1 hr
    exact ⟨hlost, hs.alive, (admits_iff hw hs h.terms hfits).1 hadmits⟩
  · intro hmeets
    obtain ⟨hlost, halive, hmeets⟩ := hmeets
    obtain ⟨l, a, hs⟩ := hw.stands halive
    exact ⟨⟨e, l.archetype, l.row⟩, (h.mem_rows hw).2 ⟨hlost, a, hs,
      (admits_iff hw hs h.terms hfits).2 hmeets⟩, rfl⟩

theorem nodup_rows : ((q.rows w).2.map Row.entity).Nodup := by
  have hentities :
      (q.rows w).2.map Row.entity = (q.tables w).flatMap fun a => a.entities.toList := by
    rw [rows_eq, List.map_flatMap]
    simp only [map_entity_tableRows]
  rw [hentities]
  exact (hw.nodup_rowEntities.of_map _).sublist ((h.tables_sublist hw).flatMap _)

theorem pairwise_rows : (q.rows w).2.Pairwise fun r s =>
    r.archetype.raw < s.archetype.raw ∨ r.archetype = s.archetype ∧ r.row < s.row := by
  have htables : w.storage.archetypes.toList.Pairwise fun a b => a.id.raw < b.id.raw := by
    refine List.pairwise_iff_getElem.2 fun i j hi hj hij => ?_
    simp only [Array.length_toList] at hi hj
    rw [UInt32.lt_iff_toNat_lt, Array.getElem_toList, Array.getElem_toList,
      hw.toNat_id (Array.getElem?_eq_getElem hi), hw.toNat_id (Array.getElem?_eq_getElem hj)]
    exact hij
  rw [rows_eq, List.pairwise_flatMap]
  refine ⟨fun a _ => (pairwise_tableRows a).imp .inr, ?_⟩
  refine (htables.sublist (h.tables_sublist hw)).imp fun hlt r hr s hs => .inl ?_
  rw [(mem_tableRows.1 hr).1, (mem_tableRows.1 hs).1]
  exact hlt

end Current

theorem length_flatMap_tableRows (tables : List Archetype) :
    (tables.flatMap tableRows).length = tables.foldl (fun n a => n + a.size) 0 := by
  simp only [List.length_flatMap, length_tableRows, ← List.foldl_map, List.sum_eq_foldl]

theorem count_eq (q : Query) (w : World) : (q.count w).2 = (q.rows w).2.length := by
  rw [rows_eq, length_flatMap_tableRows]
  have hcount : (q.count w).2 =
      ((q.tables w).filter fun a => a.size ≠ 0).foldl (fun n a => n + a.size) 0 := rfl
  rw [hcount, ← length_flatMap_tableRows, ← length_flatMap_tableRows]
  induction q.tables w with
  | nil => rfl
  | cons a rest ih =>
    by_cases ha : a.size = 0
    · simpa [ha, length_tableRows] using ih
    · simpa [ha] using ih

end Query

/-! ### Cursors -/

namespace Query.Cursor

variable {w : World} {c d : Cursor} {r : Row}

def rest (c : Cursor) (w : World) : List Row :=
  ((c.tables.filterMap w.storage.get?).flatMap tableRows).drop c.row

/-- The tables are there, and the place is not beyond the end of the first one. -/
structure Valid (c : Cursor) (w : World) : Prop where
  known : ∀ i ∈ c.tables, ∃ a, w.storage.get? i = some a ∧ a.id = i
  bounded : ∀ i a, c.tables.head? = some i → w.storage.get? i = some a → c.row ≤ a.size

theorem remaining_eq (c : Cursor) (w : World) : c.remaining w = (c.rest w).length := by
  rw [remaining, rest, List.length_drop, length_flatMap_tableRows]

theorem Valid.advance {tables : List ArchetypeId} {row : Nat} (h : (Cursor.mk tables row).Valid w) :
    match Cursor.advance w tables row with
    | none => (Cursor.mk tables row).rest w = []
    | some (r, d) => (Cursor.mk tables row).rest w = r :: d.rest w ∧ d.Valid w := by
  induction tables generalizing row with
  | nil => simp [Cursor.advance, rest]
  | cons i more ih =>
    obtain ⟨a, ha, hid⟩ := h.known i List.mem_cons_self
    have hrow := h.bounded i a rfl ha
    have hknown : ∀ j ∈ more, ∃ b, w.storage.get? j = some b ∧ b.id = j := fun j hj =>
      h.known j (List.mem_cons_of_mem i hj)
    simp only [Cursor.advance, ha]
    cases he : a.entities[row]? with
    | some e =>
      have hlt : row < (tableRows a).length := by
        rw [length_tableRows]
        exact (Array.getElem?_eq_some_iff.1 he).1
      have hhead : (tableRows a)[row] = ⟨e, i, row⟩ := by
        have hget := getElem?_tableRows a row
        rw [he, List.getElem?_eq_getElem hlt, hid] at hget
        exact Option.some.inj hget
      constructor
      · simp only [rest, List.filterMap_cons, ha, List.flatMap_cons]
        rw [List.drop_append_of_le_length (Nat.le_of_lt hlt), List.drop_eq_getElem_cons hlt, hhead,
          List.drop_append_of_le_length hlt, List.cons_append]
      · refine ⟨h.known, fun j b hj hb => ?_⟩
        cases hj
        cases ha.symm.trans hb
        rw [length_tableRows] at hlt
        exact hlt
    | none =>
      -- the first table is used up, and the next one begins with its first row
      have hend : row = (tableRows a).length := by
        rw [length_tableRows]
        exact Nat.le_antisymm hrow (Array.getElem?_eq_none_iff.1 he)
      have hskip : (Cursor.mk (i :: more) row).rest w = (Cursor.mk more 0).rest w := by
        simp only [rest, List.filterMap_cons, ha, List.flatMap_cons]
        rw [hend, List.drop_left, List.drop_zero]
      simp only [hskip]
      exact ih ⟨hknown, fun _ _ _ _ => Nat.zero_le _⟩

theorem Valid.next_eq_none_iff (h : c.Valid w) : c.next w = none ↔ c.rest w = [] := by
  have hstep := h.advance
  rw [next]
  split at hstep
  · next hn => simp [hn, hstep]
  · next hn => simp [hn, hstep]

theorem Valid.next (h : c.Valid w) (hn : c.next w = some (r, d)) :
    c.rest w = r :: d.rest w ∧ d.Valid w := by
  have hstep := h.advance
  rw [Cursor.next] at hn
  rw [hn] at hstep
  exact hstep

/-- The steps of an iteration from `c`: the rows that were given, and where it is now. -/
inductive Walks (w : World) (c : Cursor) : List Row → Cursor → Prop where
  | here : Walks w c [] c
  | step {rs : List Row} {d d' : Cursor} {r : Row} : Walks w c rs d → d.next w = some (r, d') →
      Walks w c (rs ++ [r]) d'

variable {rs : List Row}

theorem Walks.rest (h : Walks w c rs d) (hc : c.Valid w) :
    c.rest w = rs ++ d.rest w ∧ d.Valid w := by
  induction h with
  | here => exact ⟨rfl, hc⟩
  | step _ hn ih =>
    obtain ⟨hrest, hd⟩ := ih
    obtain ⟨hhead, hd'⟩ := hd.next hn
    rw [hrest, hhead, List.append_assoc]
    exact ⟨rfl, hd'⟩

theorem Walks.finish (h : Walks w c rs d) (hd : d.Valid w) :
    ∃ d', Walks w c (rs ++ d.rest w) d' := by
  obtain ⟨more, hmore⟩ : ∃ more, d.rest w = more := ⟨_, rfl⟩
  induction more generalizing rs d with
  | nil => exact ⟨d, by rw [hmore, List.append_nil]; exact h⟩
  | cons r rest ih =>
    cases hn : d.next w with
    | none =>
      rw [hd.next_eq_none_iff.1 hn] at hmore
      cases hmore
    | some p =>
      obtain ⟨r', d'⟩ := p
      obtain ⟨hhead, hd'⟩ := hd.next hn
      have htail := hhead.symm.trans hmore
      rw [List.cons.injEq] at htail
      obtain ⟨d'', hwalk⟩ := ih (h.step hn) hd' htail.2
      refine ⟨d'', ?_⟩
      rwa [List.append_assoc, List.singleton_append, ← hhead] at hwalk

end Query.Cursor

theorem Query.start_rest (q : Query) (w : World) : (q.start w).2.rest w = (q.rows w).2 := rfl

theorem Query.Current.valid_start {w : World} {source : TermList} {q : Query}
    (h : Current source w q) (hw : w.WellFormed) : (q.start w).2.Valid w := by
  refine ⟨fun i hi => ?_, fun _ _ _ _ => Nat.zero_le _⟩
  have hi' : i ∈ (q.candidates w).2 := hi
  unfold candidates at hi'
  split at hi'
  · cases hi'
  · rw [h.refresh_eq] at hi'
    obtain ⟨a, ha, rfl⟩ := List.mem_map.1 hi'
    exact ⟨a, hw.get?_of_mem (Array.mem_toList_iff.1 (List.mem_of_mem_filter ha)), rfl⟩

end EntityWorld
