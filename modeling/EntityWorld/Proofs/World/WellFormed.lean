import EntityWorld.Proofs.Allocator
import EntityWorld.Proofs.Registry
import EntityWorld.Proofs.StorageRows
import EntityWorld.World.Despawn
set_option autoImplicit false

/-!
Well-formed worlds. Registry, allocator and tables are each in order, and every live entity has one
row, at the place kept for its slot. What a host can see of such a world is its `contents`, the map
from live entities to the values of their ids.
-/
namespace EntityWorld

theorem Archetype.Shaped.mono {r r' : Registry} {a : Archetype} (h : a.Shaped r)
    (hr : ∀ k d, r.descriptor? k = some d → r'.descriptor? k = some d) : a.Shaped r' := by
  refine ⟨h.sorted, h.concrete, ?_⟩
  rw [← h.typed]
  apply List.map_congr_left
  intro id hid
  obtain ⟨d, hd⟩ := h.exists_descriptor? hid
  rw [hd, hr _ d hd]

theorem Storage.WellFormed.mono {r r' : Registry} {s : Storage} (h : s.WellFormed r)
    (hr : ∀ k d, r.descriptor? k = some d → r'.descriptor? k = some d) : s.WellFormed r' :=
  { h with shaped := fun i a ha => (h.shaped i a ha).mono hr }

theorem Storage.get?_empty_eq {i : ArchetypeId} {a : Archetype}
    (h : Storage.empty.get? i = some a) : i = .empty ∧ a = Archetype.new .empty [] [] := by
  obtain ⟨hlt, ha⟩ := Array.getElem?_eq_some_iff.1 h
  have hz : i.raw.toNat = 0 := Nat.lt_one_iff.1 hlt
  have hi : i = .empty := toNat_raw_inj.1 hz
  subst hi
  exact ⟨rfl, ha.symm⟩

theorem Storage.row?_empty (l : Location) : Storage.empty.row? l = none := by
  unfold row?
  cases h : Storage.empty.get? l.archetype with
  | none => rfl
  | some a =>
    obtain ⟨-, rfl⟩ := get?_empty_eq h
    exact row?_new _ _ _

theorem Storage.WellFormed.empty (r : Registry) : Storage.empty.WellFormed r := by
  have hroot : Storage.empty.get? .empty = some (Archetype.new .empty [] []) := rfl
  refine ⟨by decide, fun i a ha => ?_, fun i a ha => ?_, fun i a ha => ?_, fun ids i => ?_,
    fun i a id j ha he => ?_, fun i a id j ha he => ?_, ⟨_, hroot, rfl⟩⟩
  · obtain ⟨rfl, rfl⟩ := get?_empty_eq ha
    rfl
  · obtain ⟨rfl, rfl⟩ := get?_empty_eq ha
    exact ⟨List.Pairwise.nil, fun id hid => absurd hid List.not_mem_nil, rfl⟩
  · obtain ⟨rfl, rfl⟩ := get?_empty_eq ha
    exact fun c hc => absurd hc List.not_mem_nil
  · have hget : Storage.empty.byIds.get? ids = if ids = [] then some .empty else none :=
      FinMap.get?_insert _ _ _ _
    rw [hget]
    constructor
    · intro hi
      split at hi
      · next hids =>
        cases hi
        exact ⟨_, hroot, hids.symm⟩
      · cases hi
    · intro hex
      obtain ⟨a, ha, hids⟩ := hex
      obtain ⟨rfl, rfl⟩ := get?_empty_eq ha
      exact if_pos hids.symm
  · obtain ⟨rfl, rfl⟩ := get?_empty_eq ha
    cases he
  · obtain ⟨rfl, rfl⟩ := get?_empty_eq ha
    cases he

/-- The live entities, each with the values of its ids. -/
abbrev Contents := Entity → Option (Id → Option Value)

def Contents.value? (c : Contents) (e : Entity) (id : Id) : Option Value := (c e).bind fun m => m id

namespace World

variable {w : World} {e x : Entity} {id : Id} {l : Location} {m : Id → Option Value}

/-- The place kept for a slot. -/
def slot? (w : World) (i : UInt32) : Option Location := (w.locations[i.toNat]?).join

structure WellFormed (w : World) : Prop where
  registry : w.registry.WellFormed
  entities : w.entities.WellFormed
  storage : w.storage.WellFormed w.registry
  placed : RowMap.Placed w.storage.row? w.slot? fun e => w.isAlive e = true

/-- There is room for one more entity slot and one more table. -/
structure Fits (w : World) : Prop where
  slots : w.entities.slots.size < 0xffffffff
  tables : w.storage.size < 0xffffffff

instance (w : World) : Decidable w.Fits :=
  decidable_of_iff (w.entities.slots.size < 0xffffffff ∧ w.storage.size < 0xffffffff)
    ⟨fun h => ⟨h.1, h.2⟩, fun h => ⟨h.slots, h.tables⟩⟩

/-- The map that a world stands for. -/
def contents (w : World) : Contents := fun e => if w.isAlive e then some (w.peek e) else none

theorem location?_eq (w : World) (e : Entity) :
    w.location? e = if w.isAlive e then w.slot? e.index else none := rfl

/-! ### The row of an entity -/

/-- `e` is alive and has the row at `l`, in the table `a`. -/
structure Stands (w : World) (e : Entity) (l : Location) (a : Archetype) : Prop where
  alive : w.isAlive e = true
  location : w.location? e = some l
  table : w.storage.get? l.archetype = some a
  entity : a.entities[l.row]? = some e

namespace Stands

variable {a : Archetype}

theorem row (h : w.Stands e l a) : w.storage.row? l = some (e, a.value? l.row) := by
  have hl : l = ⟨l.archetype, l.row⟩ := rfl
  rw [hl, Storage.row?_of_get? h.table, Archetype.row?_eq_some_iff]
  exact ⟨h.entity, rfl⟩

theorem row_lt (h : w.Stands e l a) : l.row < a.size :=
  Storage.row_lt_of_row? h.table h.row

theorem peek (h : w.Stands e l a) : w.peek e = a.value? l.row := by
  funext id
  simp only [World.peek, h.location, h.table]

theorem contents (h : w.Stands e l a) : w.contents e = some (a.value? l.row) := by
  rw [World.contents, if_pos h.alive, h.peek]

theorem has (h : w.Stands e l a) (id : Id) : w.has e id = a.contains id := by
  simp only [World.has, archetypeOf?, h.location, h.table]

end Stands

namespace WellFormed

theorem stands_of_row (h : w.WellFormed) (hl : w.storage.row? l = some (e, m)) :
    ∃ a, w.Stands e l a ∧ a.value? l.row = m := by
  obtain ⟨a, ha, hrow⟩ := Storage.row?_eq_some_iff.1 hl
  obtain ⟨he, hm⟩ := Archetype.row?_eq_some_iff.1 hrow
  have halive := h.placed.alive_of_row hl
  refine ⟨a, ⟨halive, ?_, ha, he⟩, hm⟩
  rw [location?_eq, if_pos halive, h.placed.slot_of_row hl]

theorem stands (h : w.WellFormed) (he : w.isAlive e = true) : ∃ l a, w.Stands e l a := by
  obtain ⟨l, m, -, hl⟩ := h.placed.row_of_alive he
  obtain ⟨a, ha, -⟩ := h.stands_of_row hl
  exact ⟨l, a, ha⟩

theorem contents_eq_some_iff (h : w.WellFormed) :
    w.contents e = some m ↔ RowMap.Holds w.storage.row? e m := by
  constructor
  · intro hc
    unfold contents at hc
    split at hc
    · next he =>
      obtain ⟨l, a, hs⟩ := h.stands he
      rw [Option.some.injEq, hs.peek] at hc
      exact ⟨l, hc ▸ hs.row⟩
    · cases hc
  · intro hex
    obtain ⟨l, hl⟩ := hex
    obtain ⟨a, hs, rfl⟩ := h.stands_of_row hl
    exact hs.contents

theorem shaped (h : w.WellFormed) {a : Archetype} (hs : w.Stands e l a) : a.Shaped w.registry :=
  h.storage.shaped _ a hs.table

theorem isSome_value?_iff (h : w.WellFormed) {a : Archetype} (hs : w.Stands e l a) :
    (a.value? l.row id).isSome = true ↔ id ∈ a.ids :=
  (h.shaped hs).isSome_value? (h.storage.filled _ a hs.table) hs.row_lt

theorem value?_eq_none_iff (h : w.WellFormed) {a : Archetype} (hs : w.Stands e l a) :
    a.value? l.row id = none ↔ id ∉ a.ids := by
  rw [← h.isSome_value?_iff hs, Bool.not_eq_true, Option.isSome_eq_false_iff,
    Option.isNone_iff_eq_none]

theorem has_iff (h : w.WellFormed) (hw : id.isWildcard = false) :
    w.has e id = true ↔ ∃ m, w.contents e = some m ∧ (m id).isSome = true := by
  constructor
  · intro hh
    cases he : w.isAlive e with
    | false => simp [has, archetypeOf?, location?_eq, he] at hh
    | true =>
      obtain ⟨l, a, hs⟩ := h.stands he
      rw [hs.has, Archetype.contains_iff hw, ← h.isSome_value?_iff hs] at hh
      exact ⟨_, hs.contents, hh⟩
  · intro hex
    obtain ⟨m, hm, hid⟩ := hex
    obtain ⟨l, hl⟩ := h.contents_eq_some_iff.1 hm
    obtain ⟨a, hs, rfl⟩ := h.stands_of_row hl
    rwa [hs.has, Archetype.contains_iff hw, ← h.isSome_value?_iff hs]

theorem exists_descriptor?_of_value (h : w.WellFormed) (hm : w.contents e = some m)
    (hid : (m id).isSome = true) :
    id.isWildcard = false ∧ ∃ d, w.registry.descriptor? id.typeHandle = some d := by
  obtain ⟨l, hl⟩ := h.contents_eq_some_iff.1 hm
  obtain ⟨a, hs, rfl⟩ := h.stands_of_row hl
  rw [h.isSome_value?_iff hs] at hid
  exact ⟨(h.shaped hs).concrete id hid, (h.shaped hs).exists_descriptor? hid⟩

end WellFormed

theorem contents_eq_none_iff : w.contents e = none ↔ w.isAlive e = false := by
  cases h : w.isAlive e <;> simp [contents, h]

theorem value?_contents (w : World) (e : Entity) (id : Id) :
    w.contents.value? e id = w.peek e id := by
  unfold Contents.value? contents
  split
  · rfl
  · next he =>
    rw [Bool.not_eq_true] at he
    simp [peek, location?_eq, he]

theorem peek_of_contents (h : w.contents e = some m) : w.peek e = m := by
  unfold contents at h
  split at h
  · exact Option.some.inj h
  · cases h

/-! ### What being well formed depends on -/

theorem WellFormed.congr {v : World} (h : w.WellFormed) (hr : v.registry = w.registry)
    (he : v.entities = w.entities) (hs : v.storage = w.storage) (hl : v.slot? = w.slot?) :
    v.WellFormed := by
  refine ⟨?_, ?_, ?_, ?_⟩
  · rw [hr]
    exact h.registry
  · rw [he]
    exact h.entities
  · rw [hs, hr]
    exact h.storage
  · have ha : v.isAlive = w.isAlive := by
      funext x
      simp only [isAlive, he]
    rw [hs, hl, ha]
    exact h.placed

theorem WellFormed.contents_congr {v : World} (h : w.WellFormed) (hv : v.WellFormed)
    (hs : v.storage.row? = w.storage.row?) : v.contents = w.contents := by
  funext x
  refine Option.ext fun m => ?_
  rw [hv.contents_eq_some_iff, h.contents_eq_some_iff, hs]

/-- The rows of a world say what it stands for, provided that they are where its slots say. -/
theorem WellFormed.of_placed {rows : RowMap} {slot : UInt32 → Option Location}
    {alive : Entity → Prop} {c : Contents} (hr : w.registry.WellFormed) (he : w.entities.WellFormed)
    (hs : w.storage.WellFormed w.registry) (hrows : w.storage.row? = rows) (hslot : w.slot? = slot)
    (halive : ∀ x, w.isAlive x = true ↔ alive x) (hplaced : RowMap.Placed rows slot alive)
    (hc : ∀ x m, rows.Holds x m ↔ c x = some m) : w.WellFormed ∧ w.contents = c := by
  have halive' : (fun x => w.isAlive x = true) = alive := funext fun x => propext (halive x)
  have hw : w.WellFormed := by
    refine ⟨hr, he, hs, ?_⟩
    rw [hrows, hslot, halive']
    exact hplaced
  refine ⟨hw, funext fun x => Option.ext fun m => ?_⟩
  rw [hw.contents_eq_some_iff, hrows, hc]

theorem WellFormed.note (h : w.WellFormed) (events : List HookEvent) : (w.note events).WellFormed :=
  h.congr rfl rfl rfl rfl

theorem WellFormed.extend {s : Storage} (h : w.WellFormed) (hs : s.WellFormed w.registry)
    (hext : w.storage.Extends s) : { w with storage := s }.WellFormed := by
  refine ⟨h.registry, h.entities, hs, ?_⟩
  have hrows : s.row? = w.storage.row? := funext hext.rows
  rw [hrows]
  exact h.placed

/-! ### The places of the slots -/

theorem slot?_setLocation (w : World) (i : UInt32) (l : Option Location) :
    (w.setLocation i l).slot? = Function.update w.slot? i l := by
  funext j
  have hij : i.toNat = j.toNat ↔ j = i := UInt32.toNat_inj.trans eq_comm
  unfold slot? setLocation
  rw [Array.getElem?_setIfInBounds]
  by_cases h : j = i
  · subst h
    rw [if_pos rfl, Function.update_self, if_pos (by simp; omega)]
    rfl
  · rw [if_neg (fun hh => h (hij.1 hh)), Function.update_of_ne h, Array.getElem?_append,
      Array.getElem?_replicate]
    split
    · rfl
    · next hn =>
      rw [Array.getElem?_eq_none (by omega)]
      split <;> rfl

theorem slot?_clear (w : World) (i j : UInt32) :
    { w with locations := w.locations.setIfInBounds i.toNat none }.slot? j =
      if j = i then none else w.slot? j := by
  have hij : i.toNat = j.toNat ↔ j = i := UInt32.toNat_inj.trans eq_comm
  unfold slot?
  rw [Array.getElem?_setIfInBounds]
  by_cases h : j = i
  · subst h
    rw [if_pos rfl, if_pos rfl]
    split <;> rfl
  · rw [if_neg (fun hh => h (hij.1 hh)), if_neg h]

theorem slot?_relocate (w : World) (x : Entity) (row : Nat) (j : UInt32) :
    (w.relocate (some x) row).slot? j =
      if j = x.index then (w.slot? j).map fun l => { l with row := row } else w.slot? j := by
  have hx : x.index.toNat = j.toNat ↔ j = x.index := UInt32.toNat_inj.trans eq_comm
  cases h : (w.locations[x.index.toNat]?).join with
  | none =>
    have hs : w.slot? x.index = none := h
    simp only [relocate, h]
    split
    · next hj => rw [hj, hs, Option.map_none]
    · rfl
  | some l =>
    obtain ⟨hlt, hl⟩ := Array.getElem?_eq_some_iff.1 (Option.join_eq_some_iff.1 h)
    simp only [relocate, slot?, h, Array.getElem?_setIfInBounds]
    by_cases hj : j = x.index
    · subst hj
      rw [if_pos rfl, if_pos hlt, if_pos rfl, h]
      rfl
    · rw [if_neg (fun hh => hj (hx.1 hh)), if_neg hj]

theorem slot?_relocate_of_none {i : UInt32} (hi : w.slot? i = none) (moved : Option Entity)
    (row : Nat) : (w.relocate moved row).slot? i = none := by
  cases moved with
  | none => exact hi
  | some x =>
    rw [slot?_relocate, hi]
    split <;> rfl

theorem WellFormed.slot?_vacate {a : Archetype} (h : w.WellFormed) (hs : w.Stands e l a) :
    ∃ last k, w.storage.row? ⟨l.archetype, a.size - 1⟩ = some (last, k) ∧
      ∀ v : World, (∀ i, i ≠ e.index → v.slot? i = w.slot? i) → ∀ i, i ≠ e.index →
        (v.relocate (Storage.movedBy a l.row) l.row).slot? i =
          if i = last.index then some l else w.slot? i := by
  have hlt := hs.row_lt
  obtain ⟨last, hlast⟩ : ∃ last, a.entities[a.size - 1]? = some last :=
    ⟨_, Array.getElem?_eq_getElem (show a.size - 1 < a.size by omega)⟩
  have hrow : w.storage.row? ⟨l.archetype, a.size - 1⟩ = some (last, a.value? (a.size - 1)) := by
    rw [Storage.row?_of_get? hs.table, Archetype.row?_eq_some_iff]
    exact ⟨hlast, rfl⟩
  have hslot : w.slot? last.index = some ⟨l.archetype, a.size - 1⟩ := h.placed.slot_of_row hrow
  refine ⟨last, _, hrow, fun v hv i hi => ?_⟩
  unfold Storage.movedBy
  split
  · rw [hlast, slot?_relocate]
    split
    · next hil =>
      rw [hv i hi, hil, hslot]
      rfl
    · exact hv i hi
  · next hend =>
    have hn : a.size - 1 = l.row := by omega
    have hle : l = ⟨l.archetype, a.size - 1⟩ := by rw [hn]
    have hne : i ≠ last.index := by
      rw [← (h.placed.index_eq_iff hs.row hrow).2 hle]
      exact hi
    rw [if_neg hne]
    exact hv i hi

/-! ### New worlds and types -/

theorem WellFormed.new : World.new.WellFormed := by
  refine ⟨?_, .empty, .empty _, fun i l => ?_, fun e => ?_⟩
  · have hreg : World.new.registry = builtins.2 := rfl
    rw [hreg]
    unfold builtins
    cases hr : Registry.empty.register childOfDescription with
    | error err => exact .empty
    | ok p => exact Registry.WellFormed.empty.register hr
  · constructor
    · intro hs
      simp [slot?, World.new] at hs
    · intro hex
      obtain ⟨y, k, hl, _⟩ := hex
      rw [show World.new.storage = Storage.empty from rfl, Storage.row?_empty] at hl
      cases hl
  · constructor
    · intro he
      simp [World.new, isAlive, Allocator.empty, Allocator.isAlive, Allocator.slot?] at he
    · intro hex
      obtain ⟨k, l, hl⟩ := hex
      rw [show World.new.storage = Storage.empty from rfl, Storage.row?_empty] at hl
      cases hl

theorem WellFormed.registerType (h : w.WellFormed) (d : TypeDescription) :
    (w.registerType d).2.WellFormed := by
  unfold World.registerType
  cases hr : w.registry.register d with
  | error err => exact h
  | ok p =>
    obtain ⟨k, r⟩ := p
    exact ⟨h.registry.register hr, h.entities,
      h.storage.mono fun k d hd => Registry.descriptor?_register hr hd, h.placed⟩

end World
end EntityWorld
