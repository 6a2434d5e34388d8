import EntityWorld.Proofs.World.Reachable
import Mathlib.Algebra.Ring.Nat
import Mathlib.Data.List.Nodup
set_option autoImplicit false

/-!
How the rows of a reachable world are stored: the place of an entity and the entity of a place
agree, and the tables have the form that their ids ask for.
-/
namespace EntityWorld.World

variable {w : World} {e x : Entity} {a b : Archetype}

def rowEntities (w : World) : List Entity :=
  w.storage.archetypes.toList.flatMap fun a => a.entities.toList

structure StorageInvariant (w : World) : Prop where
  located : ∀ e, w.isAlive e = true → ∃ l a, w.location? e = some l ∧
    w.storage.get? l.archetype = some a ∧ a.entities[l.row]? = some e
  pointed : ∀ a ∈ w.storage.archetypes, ∀ row e, a.entities[row]? = some e →
    w.isAlive e = true ∧ w.location? e = some ⟨a.id, row⟩
  unplaced : ∀ e, w.isAlive e = false → w.location? e = none
  /-- Not even the slot of a dead entity has a place, unless somebody else is in it. -/
  vacant : ∀ i, w.resolve i = none → w.slot? i = none
  filled : ∀ a ∈ w.storage.archetypes, a.columns.length = a.ids.length ∧
    ∀ c ∈ a.columns, c.size = a.size
  counted : w.entityCount = (w.storage.archetypes.toList.map Archetype.size).sum
  numbered : ∀ a ∈ w.storage.archetypes, w.storage.get? a.id = some a
  sorted : ∀ a ∈ w.storage.archetypes, Id.Sorted a.ids
  concrete : ∀ a ∈ w.storage.archetypes, ∀ id ∈ a.ids, id.isWildcard = false
  registered : ∀ a ∈ w.storage.archetypes, ∀ id ∈ a.ids,
    ∃ d, w.descriptor? id.typeHandle = some d

namespace WellFormed

theorem toNat_id (h : w.WellFormed) {n : Nat} (ha : w.storage.archetypes[n]? = some a) :
    a.id.raw.toNat = n := by
  have hn := (Array.getElem?_eq_some_iff.1 ha).1
  have hbound : w.storage.archetypes.size ≤ 0x100000000 := h.storage.bounded
  have hmod : (UInt32.ofNat n).toNat = n := by
    rw [UInt32.toNat_ofNat', Nat.mod_eq_of_lt (by omega)]
  have hget : w.storage.get? ⟨UInt32.ofNat n⟩ = some a := by rw [Storage.get?, hmod, ha]
  rw [h.storage.numbered _ a hget, hmod]

theorem get?_of_mem (h : w.WellFormed) (ha : a ∈ w.storage.archetypes) :
    w.storage.get? a.id = some a := by
  obtain ⟨n, hn⟩ := Array.mem_iff_getElem?.1 ha
  rw [Storage.get?, h.toNat_id hn, hn]

theorem row_of_mem (h : w.WellFormed) (ha : a ∈ w.storage.archetypes) {row : Nat}
    (he : a.entities[row]? = some e) :
    w.storage.row? ⟨a.id, row⟩ = some (e, a.value? row) := by
  rw [Storage.row?_of_get? (h.get?_of_mem ha), Archetype.row?_eq_some_iff]
  exact ⟨he, rfl⟩

theorem stands_of_mem (h : w.WellFormed) (ha : a ∈ w.storage.archetypes) {row : Nat}
    (he : a.entities[row]? = some e) : w.Stands e ⟨a.id, row⟩ a := by
  obtain ⟨b, hs, -⟩ := h.stands_of_row (h.row_of_mem ha he)
  have hba : b = a := Option.some.inj (hs.table.symm.trans (h.get?_of_mem ha))
  rwa [hba] at hs

theorem mem_rowEntities (h : w.WellFormed) : e ∈ w.rowEntities ↔ w.isAlive e = true := by
  unfold rowEntities
  rw [List.mem_flatMap]
  constructor
  · intro hex
    obtain ⟨a, ha, he⟩ := hex
    obtain ⟨row, hrow⟩ := List.getElem?_of_mem he
    rw [Array.getElem?_toList] at hrow
    exact h.placed.alive_of_row (h.row_of_mem (Array.mem_toList_iff.1 ha) hrow)
  · intro he
    obtain ⟨l, a, hs⟩ := h.stands he
    refine ⟨a, Array.mem_toList_iff.2 (Array.mem_of_getElem? hs.table), ?_⟩
    exact Array.mem_toList_iff.2 (Array.mem_of_getElem? hs.entity)

theorem nodup_rowEntities (h : w.WellFormed) : (w.rowEntities.map Entity.index).Nodup := by
  unfold rowEntities
  rw [List.map_flatMap, List.nodup_flatMap]
  constructor
  · intro a ha
    have ha' := Array.mem_toList_iff.1 ha
    refine List.pairwise_iff_getElem.2 fun i j hi hj hij heq => ?_
    simp only [List.length_map, Array.length_toList] at hi hj
    simp only [List.getElem_map, Array.getElem_toList] at heq
    have hpi := h.row_of_mem ha' (Array.getElem?_eq_getElem hi)
    have hpj := h.row_of_mem ha' (Array.getElem?_eq_getElem hj)
    have hplace := h.placed.place_inj hpi hpj heq
    simp only [Location.mk.injEq, true_and] at hplace
    omega
  · refine List.pairwise_iff_getElem.2 fun i j hi hj hij x hxi hxj => ?_
    simp only [Array.length_toList] at hi hj
    simp only [Array.getElem_toList, List.mem_map] at hxi hxj
    obtain ⟨e, he, hei⟩ := hxi
    obtain ⟨e', he', hei'⟩ := hxj
    obtain ⟨r, hr⟩ := List.getElem?_of_mem he
    obtain ⟨r', hr'⟩ := List.getElem?_of_mem he'
    rw [Array.getElem?_toList] at hr hr'
    have hpi := h.row_of_mem (Array.getElem_mem hi) hr
    have hpj := h.row_of_mem (Array.getElem_mem hj) hr'
    have hplace := h.placed.place_inj hpi hpj (hei.trans hei'.symm)
    have hraw := congrArg (fun l => l.archetype.raw.toNat) hplace
    simp only [h.toNat_id (Array.getElem?_eq_getElem hi), h.toNat_id (Array.getElem?_eq_getElem hj)]
      at hraw
    omega

theorem entityCount_eq (h : w.WellFormed) : w.entityCount = w.rowEntities.length := by
  have hperm : (w.rowEntities.map Entity.index).Perm w.entities.liveIndices := by
    rw [List.perm_ext_iff_of_nodup h.nodup_rowEntities (Allocator.nodup_liveIndices h.entities)]
    intro i
    rw [List.mem_map, Allocator.mem_liveIndices h.entities]
    constructor
    · intro hex
      obtain ⟨e, he, hi⟩ := hex
      have hslot := Allocator.isAlive_iff.1 (h.mem_rowEntities.1 he)
      exact ⟨_, hi ▸ hslot, rfl⟩
    · intro hex
      obtain ⟨s, hs, hb⟩ := hex
      obtain ⟨g, b⟩ := s
      have hb' : b = true := hb
      subst hb'
      exact ⟨⟨i, g⟩, h.mem_rowEntities.2 (Allocator.isAlive_iff.2 hs), rfl⟩
  have hlength := hperm.length_eq
  rw [List.length_map, Allocator.length_liveIndices h.entities] at hlength
  exact hlength.symm

theorem storageInvariant (h : w.WellFormed) : w.StorageInvariant where
  located e he := by
    obtain ⟨l, a, hs⟩ := h.stands he
    exact ⟨l, a, hs.location, hs.table, hs.entity⟩
  pointed a ha row e he := by
    have hrow := h.row_of_mem ha he
    have halive := h.placed.alive_of_row hrow
    refine ⟨halive, ?_⟩
    rw [location?_eq, if_pos halive, h.placed.slot_of_row hrow]
  unplaced e he := by
    rw [location?_eq, he]
    rfl
  vacant i hi := slot?_eq_none h hi
  filled a ha :=
    ⟨(h.storage.shaped _ a (h.get?_of_mem ha)).length_columns,
      h.storage.filled _ a (h.get?_of_mem ha)⟩
  counted := by
    rw [h.entityCount_eq, rowEntities, List.length_flatMap]
    rfl
  numbered a ha := h.get?_of_mem ha
  sorted a ha := (h.storage.shaped _ a (h.get?_of_mem ha)).sorted
  concrete a ha := (h.storage.shaped _ a (h.get?_of_mem ha)).concrete
  registered a ha id hid := (h.storage.shaped _ a (h.get?_of_mem ha)).exists_descriptor? hid

end WellFormed

/-- Whatever a host does, entities, places and tables fit together. -/
theorem storageInvariant_of_reachable (h : w.Reachable) : w.StorageInvariant :=
  h.wellFormed.storageInvariant

theorem storageInvariant_family : (family.perform (.despawn ⟨0, 0⟩)).Fits ∧
    (family.perform (.despawn ⟨0, 0⟩)).StorageInvariant := by
  have hf : (family.perform (.despawn ⟨0, 0⟩)).Fits := by decide +kernel
  exact ⟨hf, storageInvariant_of_reachable (reachable_family.step _ hf)⟩

end EntityWorld.World
