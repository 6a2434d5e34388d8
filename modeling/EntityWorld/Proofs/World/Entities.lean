import EntityWorld.Proofs.World.Changes
set_option autoImplicit false

/-!
Entities come and go. A new entity has a row of the table without ids; the end of an entity takes
its row, its name and its slot.
-/
namespace EntityWorld.World

variable {w : World} {e x : Entity} {l : Location} {a : Archetype}

/-! ### A new entity -/

theorem slot?_eq_none (h : w.WellFormed) {i : UInt32} (hi : w.resolve i = none) :
    w.slot? i = none := by
  cases hl : w.slot? i with
  | none => rfl
  | some l =>
    obtain ⟨x, k, hx, hxi⟩ := (h.placed.placed i l).1 hl
    have halive : w.resolve i = some x :=
      Allocator.resolve_eq_some_iff.2 ⟨hxi, h.placed.alive_of_row hx⟩
    rw [hi] at halive
    cases halive

theorem gains_root {r : Registry} (ha : a.Shaped r) (hids : a.ids = []) (e : Entity) :
    a.Gains (a.pushEntity e) e fun _ => none := by
  have hcells : ∀ id, a.cells id = none := by
    intro id
    have hc : (a.cells id).isSome = true ↔ id ∈ a.ids := ha.isSome_cells
    rw [hids, iff_false_right List.not_mem_nil] at hc
    simpa using hc
  refine ⟨rfl, fun id => ?_, fun id => ?_⟩
  · rw [hcells]
    rfl
  · have hc : (a.pushEntity e).cells id = a.cells id := rfl
    rw [hc, hcells]
    rfl

theorem spawn_eq (h : w.WellFormed) : ∃ a, w.storage.get? .empty = some a ∧ a.ids = [] ∧
    w.spawn = (w.entities.allocate.1,
      { w with entities := w.entities.allocate.2,
               storage := w.storage.set (a.pushEntity w.entities.allocate.1) }.setLocation
        w.entities.allocate.1.index (some ⟨.empty, a.size⟩)) := by
  obtain ⟨a, ha, hids⟩ := h.storage.root
  refine ⟨a, ha, hids, ?_⟩
  simp only [spawn, ha]

theorem WellFormed.spawn (h : w.WellFormed) (hf : w.Fits) :
    w.spawn.2.WellFormed ∧ w.contents w.spawn.1 = none ∧
      w.spawn.2.contents = w.contents.create w.spawn.1 := by
  obtain ⟨a, ha, hids, hspawn⟩ := spawn_eq h
  obtain ⟨e, he⟩ : ∃ e, w.entities.allocate.1 = e := ⟨_, rfl⟩
  have hfree : w.slot? e.index = none := by
    rw [← he]
    exact slot?_eq_none h (Allocator.resolve_allocate_fst h.entities fun _ => hf.slots)
  have hdead : w.isAlive e = false := by
    rw [← he]
    exact Allocator.isAlive_allocate_fst h.entities fun _ => hf.slots
  have hshaped := h.storage.shaped _ a ha
  obtain ⟨hs, hrows⟩ := h.storage.set_gains (t := a.pushEntity e) ha rfl rfl
    (gains_root hshaped hids e)
  have hnew := Storage.row?_size ha
  have hplaced := h.placed.occupy hnew hfree fun _ => none
  obtain ⟨v, hv⟩ : ∃ v, w.spawn.2 = v := ⟨_, rfl⟩
  have hstorage : v.storage = w.storage.set (a.pushEntity e) := by
    rw [← hv, hspawn, ← he]
    rfl
  have hslot : v.slot? = Function.update w.slot? e.index (some ⟨.empty, a.size⟩) := by
    rw [← hv, hspawn, ← he]
    exact slot?_setLocation { w with entities := _, storage := _ } _ _
  have hentities : v.entities = w.entities.allocate.2 := by
    rw [← hv, hspawn]
    rfl
  have hregistry : v.registry = w.registry := by
    rw [← hv, hspawn]
    rfl
  have halive : ∀ x, v.isAlive x = true ↔ w.isAlive x = true ∨ x = e := by
    intro x
    rw [isAlive, hentities, Allocator.isAlive_allocate h.entities fun _ => hf.slots, he, or_comm]
    rfl
  have hc := WellFormed.of_placed (c := w.contents.create e) (by rw [hregistry]; exact h.registry)
    (by rw [hentities]; exact h.entities.allocate fun _ => hf.slots)
    (by rw [hstorage, hregistry]; exact hs) (by rw [hstorage, hrows]) hslot halive hplaced
    fun x k => by
      rw [RowMap.Placed.holds_occupy hnew, Contents.create]
      by_cases hx : x = e
      · have hno : ¬ RowMap.Holds w.storage.row? e k := by
          rw [← h.contents_eq_some_iff, contents_eq_none_iff.2 hdead]
          simp
        simp [hx, hno, eq_comm]
      · simp [hx, h.contents_eq_some_iff]
  rw [hv, hspawn, he]
  exact ⟨hc.1, contents_eq_none_iff.2 hdead, hc.2⟩

/-! ### The end of an entity -/

theorem dropName_eq (w : World) (i : UInt32) :
    ∃ n k, w.dropName i = { w with names := n, entityNames := k } := by
  unfold dropName
  cases w.entityNames.get? i <;> exact ⟨_, _, rfl⟩

theorem Stands.despawnOne_eq (hs : w.Stands e l a) : ∃ places n k,
    ({ w with locations := w.locations.setIfInBounds e.index.toNat none }.relocate
      (Storage.movedBy a l.row) l.row).locations = places ∧
    w.despawnOne e =
      { w with
        entities := (w.entities.deallocate e).2
        locations := places
        storage := w.storage.set (a.vacate l.row)
        names := n
        entityNames := k
        listeners := w.listeners.map fun s => { s with heard := e :: s.heard }
        events := (Archetype.dropRow l.row a.columns).2.reverse ++ w.events } := by
  have hremove := Storage.removeRow_eq hs.table l.row
  have hslot : (w.locations[e.index.toNat]?).join = some l := by
    have hl := hs.location
    rwa [location?_eq, if_pos hs.alive] at hl
  obtain ⟨u, hu⟩ : ∃ u, { w with locations := w.locations.setIfInBounds e.index.toNat none } = u :=
    ⟨_, rfl⟩
  obtain ⟨places, hp⟩ : ∃ places, (u.relocate (Storage.movedBy a l.row) l.row).locations = places :=
    ⟨_, rfl⟩
  obtain ⟨v, hv⟩ : ∃ v, { u with
    locations := places, storage := w.storage.set (a.vacate l.row) } = v := ⟨_, rfl⟩
  have hmoved : { u with storage := w.storage.set (a.vacate l.row) }.relocate
      (Storage.movedBy a l.row) l.row = v := by
    rw [relocate_storage, relocate_eq, hp, hv]
  obtain ⟨n, k, hname⟩ := dropName_eq (v.note (Archetype.dropRow l.row a.columns).2) e.index
  refine ⟨places, n, k, ?_, ?_⟩
  · rw [hu, hp]
  · subst hu
    simp only [despawnOne, hslot, hremove, hmoved, hname]
    subst hv
    rfl

structure Ends (w : World) (e : Entity) (v : World) : Prop where
  registry : v.registry = w.registry
  entities : v.entities = (w.entities.deallocate e).2
  listeners : v.listeners = w.listeners.map fun s => { s with heard := e :: s.heard }
  wellFormed : v.WellFormed
  contents : v.contents = Function.update w.contents e none

theorem WellFormed.despawnOne (h : w.WellFormed) (he : w.isAlive e = true) :
    w.Ends e (w.despawnOne e) := by
  obtain ⟨l, a, hs⟩ := h.stands he
  obtain ⟨last, k, hlast, hslot⟩ := h.slot?_vacate hs
  obtain ⟨places, n, names, hplaces, heq⟩ := hs.despawnOne_eq
  have hstorage := h.storage.set_vacate hs.table hs.row_lt
  have hrows := h.storage.row?_set_vacate hs.table hs.row_lt
  have hplaced := h.placed.vacate hs.row hlast
  obtain ⟨v, hv⟩ : ∃ v, w.despawnOne e = v := ⟨_, rfl⟩
  rw [hv] at heq ⊢
  have hslotv : v.slot? = fun i =>
      if i = e.index then none else if i = last.index then some l else w.slot? i := by
    obtain ⟨u, hu⟩ :
      ∃ u, { w with locations := w.locations.setIfInBounds e.index.toNat none } = u := ⟨_, rfl⟩
    have hslotu : ∀ i, u.slot? i = if i = e.index then none else w.slot? i := by
      rw [← hu]
      exact slot?_clear w e.index
    have hvu : v.slot? = (u.relocate (Storage.movedBy a l.row) l.row).slot? := by
      rw [heq, ← hplaces, hu]
      rfl
    rw [hvu]
    funext i
    by_cases hi : i = e.index
    · rw [if_pos hi]
      refine slot?_relocate_of_none ?_ _ _
      rw [hslotu, if_pos hi]
    · rw [if_neg hi]
      refine hslot u (fun j hj => ?_) i hi
      rw [hslotu, if_neg hj]
  have halive : ∀ x, v.isAlive x = true ↔ w.isAlive x = true ∧ x ≠ e := by
    intro x
    rw [heq]
    exact Allocator.isAlive_deallocate he x
  have hc := WellFormed.of_placed (c := Function.update w.contents e none)
    (by rw [heq]; exact h.registry) (by rw [heq]; exact h.entities.deallocate e)
    (by rw [heq]; exact hstorage) (by rw [heq]; exact hrows) hslotv halive hplaced fun x m => by
      rw [h.placed.holds_vacate hs.row hlast]
      by_cases hx : x = e
      · simp [hx]
      · simp [hx, h.contents_eq_some_iff]
  exact ⟨by rw [heq], by rw [heq], by rw [heq], hc.1, hc.2⟩

end EntityWorld.World
