import EntityWorld.Proofs.RowMoves
import EntityWorld.World.Basic
import Mathlib.Logic.Function.Basic
set_option autoImplicit false

/-!
The tables of a world as a whole: `WellFormed` says that look-up by ids and the remembered edges
lead to the right tables and that every table is full. The content of all tables is the map `row?`
from places to rows; making a new table does not change it.
-/
namespace EntityWorld.Storage

variable {s s' : Storage} {r : Registry} {a a' b : Archetype} {i j : ArchetypeId} {id : Id}

def row? (s : Storage) (l : Location) : Option (Entity × (Id → Option Value)) :=
  (s.get? l.archetype).bind fun a => a.row? l.row

structure WellFormed (r : Registry) (s : Storage) : Prop where
  bounded : s.size ≤ 0x100000000
  numbered : ∀ i a, s.get? i = some a → a.id = i
  shaped : ∀ i a, s.get? i = some a → a.Shaped r
  filled : ∀ i a, s.get? i = some a → a.Filled
  keyed : ∀ ids i, s.byIds.get? ids = some i ↔ ∃ a, s.get? i = some a ∧ a.ids = ids
  added : ∀ i a id j, s.get? i = some a → a.addEdges.get? id = some j →
    ∃ b, s.get? j = some b ∧ b.ids = insertId a.ids id
  removed : ∀ i a id j, s.get? i = some a → a.removeEdges.get? id = some j →
    ∃ b, s.get? j = some b ∧ b.ids = a.ids.filter fun own => own ≠ id
  root : ∃ a, s.get? .empty = some a ∧ a.ids = []

theorem row?_eq_some_iff {l : Location} {x : Entity × (Id → Option Value)} :
    s.row? l = some x ↔ ∃ a, s.get? l.archetype = some a ∧ a.row? l.row = some x := by
  unfold row?
  exact Option.bind_eq_some_iff

/-! ### Replacing a table -/

theorem toNat_raw_inj {i j : ArchetypeId} : i.raw.toNat = j.raw.toNat ↔ i = j := by
  cases i
  cases j
  rw [UInt32.toNat_inj, ArchetypeId.mk.injEq]

theorem get?_set (h : s.get? a'.id = some a) (i : ArchetypeId) :
    (s.set a').get? i = if i = a'.id then some a' else s.get? i := by
  have hlt : a'.id.raw.toNat < s.archetypes.size := (Array.getElem?_eq_some_iff.1 h).1
  rw [get?, set, Array.getElem?_setIfInBounds, if_pos hlt]
  by_cases hi : i = a'.id
  · rw [if_pos hi, if_pos (by rw [hi])]
  · rw [if_neg hi, if_neg (fun hh => hi (toNat_raw_inj.1 hh).symm)]
    rfl

@[simp] theorem size_set (s : Storage) (a : Archetype) : (s.set a).size = s.size := by
  simp [size, set]

theorem set_set (s : Storage) (h : b.id = a.id) : (s.set a).set b = s.set b := by
  simp [set, h]

theorem row?_set (h : s.get? a'.id = some a) (l : Location) :
    (s.set a').row? l = if l.archetype = a'.id then a'.row? l.row else s.row? l := by
  unfold row?
  rw [get?_set h]
  split <;> rfl

theorem of_get?_set (ha : s.get? a'.id = some a) (hb : (s.set a').get? j = some b) :
    j = a'.id ∧ b = a' ∨ s.get? j = some b := by
  rw [get?_set ha] at hb
  split at hb
  · next hj => exact .inl ⟨hj, (Option.some.inj hb).symm⟩
  · exact .inr hb

theorem exists_ids_set {ids : List Id} (ha : s.get? a'.id = some a) (hids : a'.ids = a.ids) :
    (∃ b, (s.set a').get? j = some b ∧ b.ids = ids) ↔ ∃ b, s.get? j = some b ∧ b.ids = ids := by
  rw [get?_set ha]
  by_cases hj : j = a'.id
  · rw [if_pos hj, hj, ha]
    simp only [Option.some.injEq, exists_eq_left', hids]
  · rw [if_neg hj]

theorem WellFormed.set (h : s.WellFormed r) (ha : s.get? a'.id = some a) (hids : a'.ids = a.ids)
    (hs : a'.Shaped r) (hf : a'.Filled)
    (hadd : ∀ id j, a'.addEdges.get? id = some j →
      ∃ b, s.get? j = some b ∧ b.ids = insertId a.ids id)
    (hremove : ∀ id j, a'.removeEdges.get? id = some j →
      ∃ b, s.get? j = some b ∧ b.ids = a.ids.filter fun own => own ≠ id) :
    (s.set a').WellFormed r := by
  refine ⟨?_, ?_, ?_, ?_, ?_, ?_, ?_, ?_⟩
  · rw [size_set]
    exact h.bounded
  · intro j b hb
    rcases of_get?_set ha hb with ⟨rfl, rfl⟩ | hb
    · rfl
    · exact h.numbered j b hb
  · intro j b hb
    rcases of_get?_set ha hb with ⟨rfl, rfl⟩ | hb
    · exact hs
    · exact h.shaped j b hb
  · intro j b hb
    rcases of_get?_set ha hb with ⟨rfl, rfl⟩ | hb
    · exact hf
    · exact h.filled j b hb
  · intro ids j
    rw [exists_ids_set ha hids]
    exact h.keyed ids j
  · intro i c id j hc he
    rw [exists_ids_set ha hids]
    rcases of_get?_set ha hc with ⟨rfl, rfl⟩ | hc
    · rw [hids]
      exact hadd id j he
    · exact h.added i c id j hc he
  · intro i c id j hc he
    rw [exists_ids_set ha hids]
    rcases of_get?_set ha hc with ⟨rfl, rfl⟩ | hc
    · rw [hids]
      exact hremove id j he
    · exact h.removed i c id j hc he
  · exact (exists_ids_set ha hids).2 h.root

theorem WellFormed.set_rows (h : s.WellFormed r) (ha : s.get? i = some a)
    (hframe : a' = { a with columns := a'.columns, entities := a'.entities })
    (htypes : a'.columns.map Column.type = a.columns.map Column.type) (hf : a'.Filled) :
    (s.set a').WellFormed r := by
  have hid : a'.id = i := by rw [hframe, ← h.numbered i a ha]
  have hids : a'.ids = a.ids := by rw [hframe]
  have hadd : a'.addEdges = a.addEdges := by rw [hframe]
  have hremove : a'.removeEdges = a.removeEdges := by rw [hframe]
  subst hid
  refine h.set ha hids ((h.shaped _ a ha).congr hids htypes) hf ?_ ?_
  · rw [hadd]
    exact fun id j => h.added _ a id j ha
  · rw [hremove]
    exact fun id j => h.removed _ a id j ha

theorem WellFormed.eq_of_ids (h : s.WellFormed r) (ha : s.get? i = some a) (hb : s.get? j = some b)
    (hids : a.ids = b.ids) : i = j := by
  have hi := (h.keyed a.ids i).2 ⟨a, ha, rfl⟩
  have hj := (h.keyed a.ids j).2 ⟨b, hb, hids.symm⟩
  rw [hi] at hj
  exact Option.some.inj hj

/-! ### New tables -/

/-- The tables stay, up to their edges, and no row appears or goes. -/
structure Extends (s s' : Storage) : Prop where
  tables : ∀ i a, s.get? i = some a → ∃ a', s'.get? i = some a' ∧
    a'.ids = a.ids ∧ a'.columns = a.columns ∧ a'.entities = a.entities
  rows : ∀ l, s'.row? l = s.row? l
  size_le : s.size ≤ s'.size

theorem Extends.refl (s : Storage) : s.Extends s :=
  ⟨fun _ a ha => ⟨a, ha, rfl, rfl, rfl⟩, fun _ => rfl, Nat.le_refl _⟩

theorem Extends.trans {s₁ s₂ s₃ : Storage} (h₁ : s₁.Extends s₂) (h₂ : s₂.Extends s₃) :
    s₁.Extends s₃ := by
  refine ⟨fun i a ha => ?_, fun l => (h₂.rows l).trans (h₁.rows l),
    Nat.le_trans h₁.size_le h₂.size_le⟩
  obtain ⟨b, hb, hids, hcols, hents⟩ := h₁.tables i a ha
  obtain ⟨c, hc, hids', hcols', hents'⟩ := h₂.tables i b hb
  exact ⟨c, hc, hids'.trans hids, hcols'.trans hcols, hents'.trans hents⟩

theorem row?_congr (hcols : a'.columns = a.columns) (hids : a'.ids = a.ids)
    (hents : a'.entities = a.entities) (n : Nat) : a'.row? n = a.row? n := by
  have hval : a'.value? n = a.value? n := by
    funext id
    simp only [Archetype.value?, Archetype.column?, Archetype.columnIndex?, hcols, hids]
  rw [Archetype.row?, Archetype.row?, hval, hents]

theorem extends_set (ha : s.get? a'.id = some a) (hids : a'.ids = a.ids)
    (hcols : a'.columns = a.columns) (hents : a'.entities = a.entities) : s.Extends (s.set a') := by
  refine ⟨fun i c hc => ?_, fun l => ?_, Nat.le_of_eq (size_set s a').symm⟩
  · rw [get?_set ha]
    by_cases hi : i = a'.id
    · subst hi
      rw [ha] at hc
      cases hc
      exact ⟨a', if_pos rfl, hids, hcols, hents⟩
    · exact ⟨c, by rw [if_neg hi, hc], rfl, rfl, rfl⟩
  · rw [row?_set ha]
    by_cases hl : l.archetype = a'.id
    · rw [if_pos hl, row?_congr hcols hids hents, row?, hl, ha]
      rfl
    · rw [if_neg hl]

theorem mapM_eq_some {α β : Type} {f : α → Option β} {l : List α} {ys : List β}
    (h : l.mapM f = some ys) : l.map f = ys.map some := by
  induction l generalizing ys with
  | nil =>
    simp at h
    simp [h]
  | cons x xs ih =>
    rw [List.mapM_cons] at h
    cases hx : f x with
    | none => simp [hx] at h
    | some y =>
      cases hxs : xs.mapM f with
      | none => simp [hx, hxs] at h
      | some zs =>
        simp [hx, hxs] at h
        subst h
        simp [hx, ih hxs]

theorem mapM_eq_none {α β : Type} {f : α → Option β} {l : List α} (h : l.mapM f = none) :
    ∃ x ∈ l, f x = none := by
  induction l with
  | nil => simp at h
  | cons x xs ih =>
    rw [List.mapM_cons] at h
    cases hx : f x with
    | none => exact ⟨x, List.mem_cons_self, hx⟩
    | some y =>
      cases hxs : xs.mapM f with
      | none =>
        obtain ⟨z, hz, hfz⟩ := ih hxs
        exact ⟨z, List.mem_cons_of_mem _ hz, hfz⟩
      | some zs => simp [hx, hxs] at h

theorem shaped_new {types : List TypeDescriptor} {ids : List Id} (hsorted : Id.Sorted ids)
    (hconcrete : ∀ id ∈ ids, id.isWildcard = false)
    (htypes : (ids.map fun id => r.descriptor? id.typeHandle) = types.map some) :
    (Archetype.new i ids types).Shaped r := by
  refine ⟨hsorted, hconcrete, ?_⟩
  have hnew : (Archetype.new i ids types).columns.map Column.type = types := by
    simp [Archetype.new, Function.comp_def, Column.new]
  rw [hnew]
  exact htypes

def push (s : Storage) (ids : List Id) (types : List TypeDescriptor) : Storage where
  archetypes := s.archetypes.push (Archetype.new ⟨UInt32.ofNat s.size⟩ ids types)
  byIds := s.byIds.insert ids ⟨UInt32.ofNat s.size⟩

theorem get?_push (hn : s.size < 0x100000000) (ids : List Id) (types : List TypeDescriptor)
    (j : ArchetypeId) :
    (s.push ids types).get? j =
      if j = ⟨UInt32.ofNat s.size⟩ then some (Archetype.new ⟨UInt32.ofNat s.size⟩ ids types)
      else s.get? j := by
  have hi : (UInt32.ofNat s.size).toNat = s.size := by
    rw [UInt32.toNat_ofNat', Nat.mod_eq_of_lt hn]
  rw [get?, push, Array.getElem?_push]
  by_cases hj : j = ⟨UInt32.ofNat s.size⟩
  · subst hj
    exact (if_pos hi).trans (if_pos rfl).symm
  · have hne : j.raw.toNat ≠ s.archetypes.size := fun hh =>
      hj (toNat_raw_inj.1 (hh.trans hi.symm))
    rw [if_neg hj, if_neg hne]
    rfl

theorem get?_size (hn : s.size < 0x100000000) : s.get? ⟨UInt32.ofNat s.size⟩ = none := by
  have hi : (UInt32.ofNat s.size).toNat = s.size := by
    rw [UInt32.toNat_ofNat', Nat.mod_eq_of_lt hn]
  rw [get?, hi]
  exact Array.getElem?_size

theorem get?_push_of_get? (hn : s.size < 0x100000000) {ids : List Id} {types : List TypeDescriptor}
    (hb : s.get? j = some b) : (s.push ids types).get? j = some b := by
  rw [get?_push hn, if_neg, hb]
  intro heq
  subst heq
  rw [get?_size hn] at hb
  cases hb

theorem row?_new (n : Nat) (ids : List Id) (types : List TypeDescriptor) :
    (Archetype.new i ids types).row? n = none := by
  simp [Archetype.row?, Archetype.new]

theorem extends_push (hn : s.size < 0x100000000) (ids : List Id) (types : List TypeDescriptor) :
    s.Extends (s.push ids types) := by
  refine ⟨fun i a ha => ⟨a, get?_push_of_get? hn ha, rfl, rfl, rfl⟩, fun l => ?_, ?_⟩
  · unfold row?
    rw [get?_push hn]
    by_cases hl : l.archetype = ⟨UInt32.ofNat s.size⟩
    · rw [if_pos hl, hl, get?_size hn]
      exact row?_new _ _ _
    · rw [if_neg hl]
  · simp [size, push]

theorem of_get?_push (hn : s.size < 0x100000000) {ids : List Id} {types : List TypeDescriptor}
    (hb : (s.push ids types).get? j = some b) :
    j = ⟨UInt32.ofNat s.size⟩ ∧ b = Archetype.new ⟨UInt32.ofNat s.size⟩ ids types ∨
      s.get? j = some b := by
  rw [get?_push hn] at hb
  split at hb
  · next hj => exact .inl ⟨hj, (Option.some.inj hb).symm⟩
  · exact .inr hb

theorem exists_ids_push (hn : s.size < 0x100000000) {ids ids' : List Id}
    {types : List TypeDescriptor} :
    (∃ b, (s.push ids types).get? j = some b ∧ b.ids = ids') ↔
      j = ⟨UInt32.ofNat s.size⟩ ∧ ids = ids' ∨ ∃ b, s.get? j = some b ∧ b.ids = ids' := by
  constructor
  · intro hex
    obtain ⟨b, hb, hids⟩ := hex
    rcases of_get?_push hn hb with ⟨hj, rfl⟩ | hb
    · exact .inl ⟨hj, hids⟩
    · exact .inr ⟨b, hb, hids⟩
  · intro hor
    obtain ⟨hj, hids⟩ | ⟨b, hb, hids⟩ := hor
    · exact ⟨_, by rw [get?_push hn, if_pos hj], hids⟩
    · exact ⟨b, get?_push_of_get? hn hb, hids⟩

theorem WellFormed.push (h : s.WellFormed r) (hn : s.size < 0x100000000) {ids : List Id}
    {types : List TypeDescriptor} (hk : s.byIds.get? ids = none)
    (hnew : (Archetype.new ⟨UInt32.ofNat s.size⟩ ids types).Shaped r) :
    (s.push ids types).WellFormed r := by
  refine ⟨?_, ?_, ?_, ?_, ?_, ?_, ?_, ?_⟩
  · simp only [size, Storage.push, Array.size_push]
    exact hn
  · intro j b hb
    rcases of_get?_push hn hb with ⟨rfl, rfl⟩ | hb
    · rfl
    · exact h.numbered j b hb
  · intro j b hb
    rcases of_get?_push hn hb with ⟨rfl, rfl⟩ | hb
    · exact hnew
    · exact h.shaped j b hb
  · intro j b hb
    rcases of_get?_push hn hb with ⟨rfl, rfl⟩ | hb
    · intro c hc
      obtain ⟨d, -, rfl⟩ := List.mem_map.1 hc
      rfl
    · exact h.filled j b hb
  · intro ids' j
    have hins : (s.push ids types).byIds.get? ids' =
        if ids' = ids then some ⟨UInt32.ofNat s.size⟩ else s.byIds.get? ids' :=
      FinMap.get?_insert _ _ _ _
    rw [hins, exists_ids_push hn, ← h.keyed]
    by_cases heq : ids' = ids
    · simp [heq, hk, eq_comm]
    · simp [heq, Ne.symm heq]
  · intro i c id j hc he
    rcases of_get?_push hn hc with ⟨rfl, rfl⟩ | hc
    · cases he
    · exact (exists_ids_push hn).2 (.inr (h.added i c id j hc he))
  · intro i c id j hc he
    rcases of_get?_push hn hc with ⟨rfl, rfl⟩ | hc
    · cases he
    · exact (exists_ids_push hn).2 (.inr (h.removed i c id j hc he))
  · exact (exists_ids_push hn).2 (.inr h.root)

theorem WellFormed.getOrCreate (h : s.WellFormed r) {ids : List Id}
    (hn : s.byIds.get? ids = none → s.size < 0x100000000)
    (hsorted : Id.Sorted ids) (hconcrete : ∀ id ∈ ids, id.isWildcard = false)
    (htypes : ∀ id ∈ ids, ∃ d, r.descriptor? id.typeHandle = some d) :
    ∃ i s', s.getOrCreate ids r = some (i, s') ∧ s'.WellFormed r ∧ s.Extends s' ∧
      ∃ b, s'.get? i = some b ∧ b.ids = ids := by
  unfold Storage.getOrCreate
  cases hk : s.byIds.get? ids with
  | some i => exact ⟨i, s, rfl, h, .refl s, (h.keyed ids i).1 hk⟩
  | none =>
    cases hm : ids.mapM fun id => r.descriptor? id.typeHandle with
    | none =>
      obtain ⟨id, hid, hnone⟩ := mapM_eq_none hm
      obtain ⟨d, hd⟩ := htypes id hid
      rw [hd] at hnone
      cases hnone
    | some types =>
      have hn := hn hk
      have hpush := h.push hn hk (shaped_new hsorted hconcrete (mapM_eq_some hm))
      exact ⟨_, s.push ids types, rfl, hpush, extends_push hn ids types, _,
        by rw [get?_push hn, if_pos rfl], rfl⟩

/-! ### Edges -/

theorem WellFormed.set_edges {t : Archetype} (h : s.WellFormed r) (ha : s.get? i = some a)
    (hframe : t = { a with addEdges := t.addEdges, removeEdges := t.removeEdges })
    (hadd : ∀ id j, t.addEdges.get? id = some j →
      ∃ b, s.get? j = some b ∧ b.ids = insertId a.ids id)
    (hremove : ∀ id j, t.removeEdges.get? id = some j →
      ∃ b, s.get? j = some b ∧ b.ids = a.ids.filter fun own => own ≠ id) :
    (s.set t).WellFormed r ∧ s.Extends (s.set t) := by
  have hid : t.id = i := by rw [hframe, ← h.numbered i a ha]
  have hids : t.ids = a.ids := by rw [hframe]
  have hcols : t.columns = a.columns := by rw [hframe]
  have hents : t.entities = a.entities := by rw [hframe]
  subst hid
  have hs : t.Shaped r := (h.shaped _ a ha).congr hids (by rw [hcols])
  have hf : t.Filled := by
    intro c hc
    rw [hcols] at hc
    have hc' := h.filled _ a ha c hc
    rwa [Archetype.size, hents]
  exact ⟨h.set ha hids hs hf hadd hremove, extends_set ha hids hcols hents⟩

theorem exists_ids_insert {edges : FinMap Id ArchetypeId} {f : Id → List Id}
    (hold : ∀ x k, edges.get? x = some k → ∃ b, s.get? k = some b ∧ b.ids = f x)
    (hnew : ∃ b, s.get? j = some b ∧ b.ids = f id) (x : Id) (k : ArchetypeId)
    (hk : (edges.insert id j).get? x = some k) : ∃ b, s.get? k = some b ∧ b.ids = f x := by
  rw [FinMap.get?_insert] at hk
  split at hk
  · next hx =>
    cases hk
    rw [hx]
    exact hnew
  · exact hold x k hk

theorem WellFormed.withId (h : s.WellFormed r) (ha : s.get? i = some a)
    (hn : s.byIds.get? (insertId a.ids id) = none → s.size < 0x100000000)
    (hw : id.isWildcard = false) (hid : id ∉ a.ids)
    (hd : ∃ d, r.descriptor? id.typeHandle = some d) :
    ∃ j s', s.withId i id r = some (j, s') ∧ s'.WellFormed r ∧ s.Extends s' ∧
      ∃ b, s'.get? j = some b ∧ b.ids = insertId a.ids id := by
  have hs := h.shaped i a ha
  have hc : a.contains id = false := by
    rw [← Bool.not_eq_true, Archetype.contains_iff hw]
    exact hid
  unfold Storage.withId
  simp only [ha, hc, Bool.false_eq_true, if_false]
  cases he : a.addEdges.get? id with
  | some j => exact ⟨j, s, rfl, h, .refl s, h.added i a id j ha he⟩
  | none =>
    have hmem : ∀ x, x ∈ insertId a.ids id ↔ x = id ∨ x ∈ a.ids := fun x =>
      mem_insertId hs.sorted hid
    obtain ⟨j, s₁, hget, h₁, hext, b, hb, hbids⟩ := h.getOrCreate (r := r) hn
      (sorted_insertId hs.sorted hid)
      (fun x hx => by
        rcases (hmem x).1 hx with rfl | hx
        · exact hw
        · exact hs.concrete x hx)
      (fun x hx => by
        rcases (hmem x).1 hx with rfl | hx
        · exact hd
        · exact hs.exists_descriptor? hx)
    obtain ⟨a₁, ha₁, hids, -, -⟩ := hext.tables i a ha
    simp only [hget, ha₁]
    have hadd := exists_ids_insert (fun x k => h₁.added i a₁ x k ha₁)
      ⟨b, hb, by rw [hbids, hids]⟩
    obtain ⟨h₂, hext₂⟩ := h₁.set_edges ha₁ (t := { a₁ with addEdges := a₁.addEdges.insert id j })
      rfl hadd fun x k => h₁.removed i a₁ x k ha₁
    obtain ⟨b', hb', hbids', -⟩ := hext₂.tables j b hb
    exact ⟨j, _, rfl, h₂, hext.trans hext₂, b', hb', hbids'.trans hbids⟩

/-- Taking an id away never fails: what is left has a table or gets one. -/
theorem WellFormed.withoutId (h : s.WellFormed r) (ha : s.get? i = some a) (id : Id)
    (hn : s.byIds.get? (a.ids.filter fun own => own ≠ id) = none → s.size < 0x100000000) :
    ∃ j s', s.withoutId i id r = some (j, s') ∧ s'.WellFormed r ∧ s.Extends s' ∧
      ∃ b, s'.get? j = some b ∧ b.ids = a.ids.filter fun own => own ≠ id := by
  have hs := h.shaped i a ha
  unfold Storage.withoutId
  simp only [ha]
  cases hc : a.contains id with
  | false =>
    have hid : id ∉ a.ids := by
      intro hid
      rw [← Archetype.contains_iff (hs.concrete id hid), hc] at hid
      cases hid
    refine ⟨i, s, rfl, h, .refl s, a, ha, ?_⟩
    rw [List.filter_eq_self.2]
    intro x hx
    simpa using fun hh : x = id => hid (hh ▸ hx)
  | true =>
    simp only [Bool.not_true, Bool.false_eq_true, if_false]
    cases he : a.removeEdges.get? id with
    | some j => exact ⟨j, s, rfl, h, .refl s, h.removed i a id j ha he⟩
    | none =>
      have hmem : ∀ x ∈ a.ids.filter (fun own => own ≠ id), x ∈ a.ids := fun x hx =>
        List.mem_of_mem_filter hx
      obtain ⟨j, s₁, hget, h₁, hext, b, hb, hbids⟩ := h.getOrCreate hn
        (List.Pairwise.filter _ hs.sorted) (fun x hx => hs.concrete x (hmem x hx))
        (fun x hx => hs.exists_descriptor? (hmem x hx))
      obtain ⟨a₁, ha₁, hids, -, -⟩ := hext.tables i a ha
      simp only [hget, ha₁]
      have hremove := exists_ids_insert (fun x k => h₁.removed i a₁ x k ha₁)
        ⟨b, hb, by rw [hbids, hids]⟩
      obtain ⟨h₂, hext₂⟩ := h₁.set_edges ha₁
        (t := { a₁ with removeEdges := a₁.removeEdges.insert id j }) rfl
        (fun x k => h₁.added i a₁ x k ha₁) hremove
      obtain ⟨b', hb', hbids', -⟩ := hext₂.tables j b hb
      exact ⟨j, _, rfl, h₂, hext.trans hext₂, b', hb', hbids'.trans hbids⟩

end EntityWorld.Storage
