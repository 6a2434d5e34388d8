import EntityWorld.Proofs.World.Reachable
set_option autoImplicit false

/-!
Tables stay where they are and keep their ids, and new ones come after them. So the list of all
numbers with their ids only grows at its end, as long as there is no shutdown.
-/
namespace EntityWorld

def Archetype.key (a : Archetype) : ArchetypeId × List Id := (a.id, a.ids)

namespace Storage

variable {s s' u : Storage} {r : Registry} {a t : Archetype} {i j : ArchetypeId} {id : Id}

def keys (s : Storage) : List (ArchetypeId × List Id) := s.archetypes.toList.map Archetype.key

def Numbered (s : Storage) : Prop := ∀ i a, s.get? i = some a → a.id = i

/-- All tables of `s` are there in `s'`, in the same places and with the same ids. -/
def Keeps (s s' : Storage) : Prop := s.Numbered → s'.Numbered ∧ s.keys <+: s'.keys

theorem Keeps.refl (s : Storage) : s.Keeps s := fun h => ⟨h, List.prefix_refl _⟩

theorem Keeps.trans (h₁ : s.Keeps s') (h₂ : s'.Keeps u) : s.Keeps u := by
  intro hs
  obtain ⟨hs', hkeys⟩ := h₁ hs
  obtain ⟨hu, hkeys'⟩ := h₂ hs'
  exact ⟨hu, hkeys.trans hkeys'⟩

theorem length_keys (s : Storage) : s.keys.length = s.size := by simp [keys, size]

theorem getElem?_keys (s : Storage) (n : Nat) :
    s.keys[n]? = (s.archetypes[n]?).map Archetype.key := by
  rw [keys, List.getElem?_map, Array.getElem?_toList]

theorem key_of_get? (h : s.get? i = some a) : s.keys[i.raw.toNat]? = some a.key := by
  rw [getElem?_keys, show s.archetypes[i.raw.toNat]? = some a from h, Option.map_some]

theorem Numbered.congr (h : s.Numbered) (hkeys : s'.keys = s.keys) : s'.Numbered := by
  intro i a ha
  have hkey := key_of_get? ha
  rw [hkeys, getElem?_keys, Option.map_eq_some_iff] at hkey
  obtain ⟨b, hb, heq⟩ := hkey
  rw [← h i b hb]
  exact (congrArg Prod.fst heq).symm

theorem Keeps.of_keys (h : s.Numbered → s'.keys = s.keys) : s.Keeps s' := fun hs =>
  ⟨hs.congr (h hs), (h hs).symm ▸ List.prefix_refl s.keys⟩

theorem keys_set (h : s.keys[t.id.raw.toNat]? = some t.key) : (s.set t).keys = s.keys := by
  obtain ⟨hlt, heq⟩ := List.getElem?_eq_some_iff.1 h
  rw [set, keys, Array.toList_setIfInBounds, List.map_set, ← keys, ← heq, List.set_getElem_self]

theorem Numbered.keys_set (hs : s.Numbered) (ha : s.get? i = some a) (hkey : t.key = a.key) :
    (s.set t).keys = s.keys := by
  have hid : t.id = i := (congrArg Prod.fst hkey).trans (hs i a ha)
  refine Storage.keys_set ?_
  rw [hid, key_of_get? ha, hkey]

theorem set_keeps (ha : s.get? i = some a) (hkey : t.key = a.key) : s.Keeps (s.set t) :=
  .of_keys fun hs => hs.keys_set ha hkey

theorem keys_push (s : Storage) (ids : List Id) (types : List TypeDescriptor) :
    (s.push ids types).keys = s.keys ++ [(⟨UInt32.ofNat s.size⟩, ids)] := by
  simp [keys, push, Archetype.key, Archetype.new]

theorem push_keeps (s : Storage) (ids : List Id) (types : List TypeDescriptor) :
    s.Keeps (s.push ids types) := by
  intro hs
  refine ⟨fun i a ha => ?_, ?_⟩
  · rw [get?, push, Array.getElem?_push] at ha
    split at ha
    · next hi =>
      cases ha
      rw [show s.size = i.raw.toNat from hi.symm]
      simp [Archetype.new]
    · exact hs i a ha
  · rw [keys_push]
    exact List.prefix_append _ _

theorem Prepared.keeps (h : s.Prepared s') : s.Keeps s' := by
  induction h with
  | refl => exact .refl s
  | push ids types _ ih => exact ih.trans (push_keeps _ ids types)
  | remember _ ha ht ih =>
    refine ih.trans (set_keeps ha ?_)
    rw [ht]
    rfl

theorem moveRow_keeps {e : Entity} {row : Nat} {m : RowMove} (h : s.moveRow e i row j = some m) :
    s.Keeps m.storage := by
  unfold moveRow at h
  split at h
  · next src dst hsrc hdst =>
    simp only [Archetype.swapRemoveEntity_snd, Option.some.injEq] at h
    subst h
    refine .of_keys fun hs => ?_
    -- the old table has been put back when the new one is, which may be the same
    refine (keys_set ?_).trans (hs.keys_set hsrc rfl)
    rw [hs.keys_set hsrc, Archetype.takeRow_snd]
    · simp only [Archetype.pushEntity, hs j dst hdst, key_of_get? hdst]
      rw [Archetype.key, hs j dst hdst]
      rfl
    · rfl
  · cases h

theorem removeRow_keeps {row : Nat} {m : RowMove} (h : s.removeRow i row = some m) :
    s.Keeps m.storage := by
  unfold removeRow at h
  split at h
  · next a ha =>
    simp only [Archetype.swapRemoveEntity_snd, Option.some.injEq] at h
    subst h
    exact set_keeps ha rfl
  · cases h

theorem updateColumn_keeps (ha : s.get? i = some a) (id : Id)
    (f : Column → Column × List HookEvent) : s.Keeps (s.set (a.updateColumn id f).1) :=
  set_keeps ha (by rw [Archetype.updateColumn_fst]; rfl)

end Storage

namespace World

variable {u v w : World} {e : Entity} {id : Id}

theorem relocate_keeps (w : World) (moved : Option Entity) (row : Nat) :
    w.storage.Keeps (w.relocate moved row).storage := by
  rw [relocate_eq]
  exact .refl w.storage

theorem moveTo_keeps (w : World) (e : Entity) (l : Location) (j : ArchetypeId) :
    w.storage.Keeps (w.moveTo e l j).storage := by
  unfold moveTo
  split
  · next m hm =>
    exact (Storage.moveRow_keeps hm).trans (relocate_keeps { w with storage := m.storage } _ _)
  · exact .refl w.storage

theorem insertWith_keeps (w : World) (e : Entity) (l : Location) (id : Id)
    (fill : Column → Column × List HookEvent) :
    w.storage.Keeps (w.insertWith e l id fill).2.storage := by
  unfold insertWith
  split
  · exact .refl w.storage
  · next j s hs =>
    have hmoved :=
      (Storage.withId_prepared hs).keeps.trans (moveTo_keeps { w with storage := s } e l j)
    simp only
    split
    · next ha => exact hmoved.trans (Storage.updateColumn_keeps ha id fill)
    · exact hmoved

theorem add_keeps (w : World) (e : Entity) (id : Id) :
    w.storage.Keeps (w.add e id).2.storage := by
  unfold add
  split
  · exact .refl w.storage
  · split
    · exact .refl w.storage
    · split
      · exact .refl w.storage
      · split
        · exact .refl w.storage
        · exact insertWith_keeps w e _ id _

theorem remove_keeps (w : World) (e : Entity) (id : Id) :
    w.storage.Keeps (w.remove e id).2.storage := by
  unfold remove
  split
  · exact .refl w.storage
  · next l _ =>
    split
    · exact .refl w.storage
    · next j s hs =>
      have hwithout := (Storage.withoutId_prepared hs).keeps
      simp only
      split
      · exact hwithout
      · exact hwithout.trans (moveTo_keeps { w with storage := s } e l j)

theorem put_keeps (w : World) (e : Entity) (id : Id) (v : Value) (how : Transfer) :
    w.storage.Keeps (w.put e id v how).2.storage := by
  unfold put
  split
  · exact .refl w.storage
  · split
    · exact .refl w.storage
    · split
      · next ha =>
        split
        · exact Storage.updateColumn_keeps ha id _
        · exact insertWith_keeps w e _ id _
      · exact insertWith_keeps w e _ id _

theorem spawn_keeps (w : World) : w.storage.Keeps w.spawn.2.storage := by
  unfold spawn
  simp only
  split
  · next ha => exact Storage.set_keeps ha rfl
  · exact .refl w.storage

theorem registerType_keeps (w : World) (d : TypeDescription) :
    w.storage.Keeps (w.registerType d).2.storage := by
  unfold registerType
  split <;> exact .refl w.storage

theorem despawnOne_keeps (w : World) (e : Entity) :
    w.storage.Keeps (w.despawnOne e).storage := by
  have hend : ∀ v : World, ({ v.dropName e.index with
      entities := ((v.dropName e.index).entities.deallocate e).2 }.announce e).storage =
        v.storage := by
    intro v
    obtain ⟨n, k, hname⟩ := dropName_eq v e.index
    rw [hname]
    rfl
  unfold despawnOne
  split
  · exact .refl w.storage
  · simp only
    rw [hend]
    split
    · next m hm =>
      exact (Storage.removeRow_keeps hm).trans
        (relocate_keeps { w with locations := _, storage := m.storage } _ _)
    · exact .refl w.storage

theorem throughout_keeps : Throughout fun w v => w.storage.Keeps v.storage where
  refl w := .refl w.storage
  trans := .trans
  setName w e name := by
    obtain ⟨n, k, heq⟩ := setName_eq w e name
    rw [heq]
    exact .refl w.storage
  listeners w _ := .refl w.storage
  events w _ := .refl w.storage
  spawn := spawn_keeps
  add := add_keeps
  remove := remove_keeps
  despawnOne _ := despawnOne_keeps _ _
  registerType := registerType_keeps
  put := put_keeps
  writeTable id ha _ _ := Storage.updateColumn_keeps ha id _

theorem perform_keeps (w : World) {op : Operation} (hop : op ≠ .shutdown) :
    w.storage.Keeps (w.perform op).storage :=
  throughout_keeps.perform w hop

end World
end EntityWorld
