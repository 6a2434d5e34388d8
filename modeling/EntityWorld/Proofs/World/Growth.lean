import EntityWorld.Proofs.World.Entities
import EntityWorld.Command
import EntityWorld.World.Row
set_option autoImplicit false

/-!
Slots and tables are only ever added, whatever happens to a world short of a shutdown. So a world
that fits into its numbers came from worlds that did.
-/
namespace EntityWorld

namespace Storage

variable {s s' : Storage} {r : Registry} {i j : ArchetypeId} {id : Id}

/-- What looking for a table does: it may be created, and where it was found may be remembered. -/
inductive Prepared (s : Storage) : Storage → Prop where
  | refl : Prepared s s
  | push {u : Storage} (ids : List Id) (types : List TypeDescriptor) :
    Prepared s u → Prepared s (u.push ids types)
  | remember {u : Storage} {i : ArchetypeId} {a t : Archetype} : Prepared s u → u.get? i = some a →
    t = { a with addEdges := t.addEdges, removeEdges := t.removeEdges } → Prepared s (u.set t)

theorem getOrCreate_prepared {ids : List Id} (h : s.getOrCreate ids r = some (i, s')) :
    s.Prepared s' := by
  unfold getOrCreate at h
  split at h
  · cases h
    exact .refl
  · split at h
    · cases h
    · cases h
      exact .push ids _ .refl

theorem withId_prepared (h : s.withId i id r = some (j, s')) : s.Prepared s' := by
  unfold withId at h
  split at h
  · cases h
  · split at h
    · cases h
      exact .refl
    · split at h
      · cases h
        exact .refl
      · split at h
        · cases h
        · next hget =>
          split at h
          · next ha =>
            cases h
            exact .remember (getOrCreate_prepared hget) ha rfl
          · cases h
            exact getOrCreate_prepared hget

theorem withoutId_prepared (h : s.withoutId i id r = some (j, s')) : s.Prepared s' := by
  unfold withoutId at h
  split at h
  · cases h
  · split at h
    · cases h
      exact .refl
    · split at h
      · cases h
        exact .refl
      · split at h
        · cases h
        · next hget =>
          split at h
          · next ha =>
            cases h
            exact .remember (getOrCreate_prepared hget) ha rfl
          · cases h
            exact getOrCreate_prepared hget

theorem Prepared.size (h : s.Prepared s') : s.size ≤ s'.size := by
  induction h with
  | refl => exact Nat.le_refl _
  | push ids types _ ih =>
    refine Nat.le_trans ih ?_
    simp [Storage.size, Storage.push]
  | remember _ _ _ ih =>
    rw [size_set]
    exact ih

end Storage

namespace World

structure Grows (w v : World) : Prop where
  slots : w.entities.slots.size ≤ v.entities.slots.size
  tables : w.storage.size ≤ v.storage.size

variable {u v w : World} {e : Entity} {id : Id}

namespace Grows

theorem refl (w : World) : w.Grows w := ⟨Nat.le_refl _, Nat.le_refl _⟩

theorem trans (h₁ : u.Grows v) (h₂ : v.Grows w) : u.Grows w :=
  ⟨Nat.le_trans h₁.slots h₂.slots, Nat.le_trans h₁.tables h₂.tables⟩

theorem of_eq (he : v.entities = w.entities) (hs : v.storage.size = w.storage.size) : w.Grows v :=
  ⟨Nat.le_of_eq (by rw [he]), Nat.le_of_eq hs.symm⟩

theorem note (h : w.Grows v) (events : List HookEvent) : w.Grows (v.note events) :=
  ⟨h.slots, h.tables⟩

theorem fits (h : w.Grows v) (hv : v.Fits) : w.Fits :=
  ⟨Nat.lt_of_le_of_lt h.slots hv.slots, Nat.lt_of_le_of_lt h.tables hv.tables⟩

end Grows

theorem relocate_grows (w : World) (moved : Option Entity) (row : Nat) :
    w.Grows (w.relocate moved row) := by
  rw [relocate_eq]
  exact .of_eq rfl rfl

theorem moveTo_grows (w : World) (e : Entity) (l : Location) (j : ArchetypeId) :
    w.Grows (w.moveTo e l j) := by
  unfold moveTo Storage.moveRow
  cases w.storage.get? l.archetype with
  | none => exact .refl w
  | some a =>
    cases w.storage.get? j with
    | none => exact .refl w
    | some b =>
      simp only [relocate_storage]
      refine .of_eq ?_ ?_
      · rw [relocate_eq]
        rfl
      · exact (Storage.size_set _ _).trans (Storage.size_set _ _)

theorem insertWith_grows (w : World) (e : Entity) (l : Location) (id : Id)
    (fill : Column → Column × List HookEvent) : w.Grows (w.insertWith e l id fill).2 := by
  unfold insertWith
  split
  · exact .refl w
  · next j s hs =>
    have hs' : w.Grows { w with storage := s } := ⟨Nat.le_refl _, (Storage.withId_prepared hs).size⟩
    have hm := hs'.trans (moveTo_grows _ e l j)
    simp only
    split
    · exact ⟨hm.slots, Nat.le_trans hm.tables (Nat.le_of_eq (Storage.size_set _ _).symm)⟩
    · exact hm

theorem add_grows (w : World) (e : Entity) (id : Id) : w.Grows (w.add e id).2 := by
  unfold add
  split
  · exact .refl w
  · split
    · exact .refl w
    · split
      · exact .refl w
      · split
        · exact .refl w
        · exact insertWith_grows w e _ id _

theorem remove_grows (w : World) (e : Entity) (id : Id) : w.Grows (w.remove e id).2 := by
  unfold remove
  split
  · exact .refl w
  · next l _ =>
    split
    · exact .refl w
    · next j s hs =>
      have hs' : w.Grows { w with storage := s } :=
        ⟨Nat.le_refl _, (Storage.withoutId_prepared hs).size⟩
      simp only
      split
      · exact hs'
      · exact hs'.trans (moveTo_grows _ e l j)

theorem set_grows (w : World) (a : Archetype) (events : List HookEvent) :
    w.Grows ({ w with storage := w.storage.set a }.note events) :=
  .of_eq rfl (Storage.size_set _ _)

theorem put_grows (w : World) (e : Entity) (id : Id) (v : Value) (how : Transfer) :
    w.Grows (w.put e id v how).2 := by
  unfold put
  split
  · exact .refl w
  · split
    · exact .refl w
    · split
      · split
        · exact set_grows w _ _
        · exact insertWith_grows w e _ id _
      · exact insertWith_grows w e _ id _

theorem spawn_grows (w : World) : w.Grows w.spawn.2 := by
  unfold spawn
  simp only
  split
  · exact ⟨Allocator.size_le_size_allocate _, Nat.le_of_eq (Storage.size_set _ _).symm⟩
  · exact ⟨Allocator.size_le_size_allocate _, Nat.le_refl _⟩

theorem removeRow_size {s : Storage} {i : ArchetypeId} {row : Nat} {m : Storage.RowMove}
    (h : s.removeRow i row = some m) : m.storage.size = s.size := by
  unfold Storage.removeRow at h
  split at h
  · cases h
    exact Storage.size_set _ _
  · cases h

theorem despawnOne_grows (w : World) (e : Entity) : w.Grows (w.despawnOne e) := by
  -- whatever is done to the row and to the name, the end of the handle and of the names adds
  -- nothing
  have hend : ∀ v : World, w.Grows v → w.Grows ({ v.dropName e.index with
      entities := ((v.dropName e.index).entities.deallocate e).2 }.announce e) := by
    intro v hv
    obtain ⟨n, k, hname⟩ := dropName_eq v e.index
    rw [hname]
    exact ⟨Nat.le_trans hv.slots (Nat.le_of_eq (Allocator.size_deallocate _ _).symm), hv.tables⟩
  unfold despawnOne
  split
  · exact .refl w
  · next l _ =>
    simp only
    refine hend _ ?_
    split
    · next m hm =>
      obtain ⟨v, hv⟩ : ∃ v, { w with
        locations := w.locations.setIfInBounds e.index.toNat none, storage := m.storage } = v :=
          ⟨_, rfl⟩
      have hwv : w.Grows v := by
        rw [← hv]
        exact .of_eq rfl (removeRow_size hm)
      rw [hv]
      exact (hwv.trans (relocate_grows v m.moved l.row)).note m.events
    · exact .of_eq rfl rfl

end World
end EntityWorld
