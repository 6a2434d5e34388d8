import EntityWorld.Proofs.World.Reachable
set_option autoImplicit false

/-!
A reachable world is a map from its live entities to the values of their ids, and its operations
on single values are the operations on this map.
-/
namespace EntityWorld

namespace Contents

variable {c d : Contents} {check : Id → Except EcsError TypeDescriptor} {e x : Entity} {id i : Id}

structure SameBut (e : Entity) (id : Id) (c d : Contents) : Prop where
  entities : ∀ x, (d x).isSome = (c x).isSome
  entries : ∀ x i, (x, i) ≠ (e, id) → d.value? x i = c.value? x i

namespace SameBut

theorem refl (e : Entity) (id : Id) (c : Contents) : SameBut e id c c :=
  ⟨fun _ => rfl, fun _ _ _ => rfl⟩

theorem update (c : Contents) (e : Entity) (id : Id) (v : Option Value) :
    SameBut e id c (Function.update c e ((c e).map fun m => Function.update m id v)) := by
  refine ⟨fun x => ?_, fun x i hne => ?_⟩
  · by_cases hx : x = e
    · rw [hx, Function.update_self, Option.isSome_map]
    · rw [Function.update_of_ne hx]
  · by_cases hx : x = e
    · subst hx
      have hi : i ≠ id := fun hi => hne (by rw [hi])
      unfold value?
      rw [Function.update_self]
      cases c x with
      | none => rfl
      | some m => exact Function.update_of_ne hi _ _
    · rw [value?, Function.update_of_ne hx, value?]

end SameBut

theorem add_sameBut : SameBut e id c (c.add check e id).2 := by
  unfold add
  split
  · exact .refl e id c
  · exact .refl e id c
  · split
    · exact .refl e id c
    · exact .update c e id _
    · exact .refl e id c

theorem remove_sameBut : SameBut e id c (c.remove e id).2 := by
  unfold remove
  split
  · exact .refl e id c
  · exact .update c e id _

theorem put_sameBut {v : Value} : SameBut e id c (c.put check e id v).2 := by
  unfold put
  split
  · exact .refl e id c
  · exact .refl e id c
  · exact .update c e id _

theorem add_of_error {err : EcsError} (h : (c.add check e id).1 = .error err) :
    (c.add check e id).2 = c := by
  unfold add at h ⊢
  split at h
  · rfl
  · rfl
  · split at h
    · cases h
    · cases h
    · rfl

theorem put_of_error {v : Value} {err : EcsError} (h : (c.put check e id v).1 = .error err) :
    (c.put check e id v).2 = c := by
  unfold put at h ⊢
  split at h
  · rfl
  · rfl
  · cases h

theorem remove_of_error {err : EcsError} (h : (c.remove e id).1 = .error err) :
    (c.remove e id).2 = c := by
  unfold remove at h ⊢
  split at h
  · rfl
  · cases h

theorem ensure_snd : (c.ensure check e id).2 = (c.add check e id).2 := by
  unfold ensure
  split <;> next hr => rw [hr]

theorem ensure_of_error {err : EcsError} (h : (c.ensure check e id).1 = .error err) :
    (c.ensure check e id).2 = c := by
  rw [ensure_snd]
  unfold ensure at h
  split at h
  · next hr => exact add_of_error (by rw [hr])
  · next hr =>
    obtain ⟨-, t, ht⟩ := get_of_add hr
    rw [ht] at h
    cases h

theorem fst_of_tell_error {α β : Type} {f : α → Answer} {r : Except EcsError α × β} {err : EcsError}
    (h : (Answer.tell f r).1 = .error err) : r.1 = .error err := by
  obtain ⟨a, b⟩ := r
  cases a with
  | error err' =>
    have herr : err' = err := Except.error.inj h
    rw [herr]
  | ok x => cases h

theorem edit_sameBut (x : Edit) : SameBut x.target.1 x.target.2 c (c.edit check x).2 := by
  cases x with
  | add e id => exact add_sameBut
  | remove e id => exact remove_sameBut
  | write e k t v | writeRef e k t v =>
    show SameBut e (Id.component k) c (c.putTyped check e k t v).2
    unfold putTyped
    split
    · exact .refl ..
    · split
      · exact .refl ..
      · exact put_sameBut
  | writeValue e v | writeValueRef e v => exact put_sameBut
  | writeBytes e k bytes =>
    show SameBut e (Id.component k) c (c.putBytes check e k bytes).2
    unfold putBytes
    split
    · exact .refl ..
    · split
      · exact put_sameBut
      · exact .refl ..
  | ensureDefault e id =>
    show SameBut e id c (c.ensure check e id).2
    rw [ensure_snd]
    exact add_sameBut

theorem edit_of_error (x : Edit) {err : EcsError} (h : (c.edit check x).1 = .error err) :
    (c.edit check x).2 = c := by
  cases x with
  | add e id => exact add_of_error (fst_of_tell_error h)
  | remove e id => exact remove_of_error (fst_of_tell_error h)
  | write e k t v | writeRef e k t v =>
    have h' : (c.putTyped check e k t v).1 = .error err := fst_of_tell_error h
    show (c.putTyped check e k t v).2 = c
    unfold putTyped at h' ⊢
    split at h'
    · rfl
    · split at h'
      · rfl
      · exact put_of_error h'
  | writeValue e v | writeValueRef e v => exact put_of_error (fst_of_tell_error h)
  | writeBytes e k bytes =>
    have h' : (c.putBytes check e k bytes).1 = .error err := fst_of_tell_error h
    show (c.putBytes check e k bytes).2 = c
    unfold putBytes at h' ⊢
    split at h'
    · rfl
    · split at h'
      · next hok =>
        rw [if_pos hok]
        exact put_of_error h'
      · next hno => rw [if_neg hno]
  | ensureDefault e id => exact ensure_of_error (fst_of_tell_error h)

end Contents

namespace World

variable {w : World} {e : Entity} {id : Id}

/-- The world is a map to its host: what it reports is what the map holds, and what is done to it
is done to the map. -/
structure ActsAsMap (w : World) : Prop where
  spawn : w.contents w.spawn.1 = none ∧ w.spawn.2.contents = w.contents.create w.spawn.1
  edit : ∀ x : Edit, (x.run w).1 = (w.contents.edit w.checkId x).1 ∧
    (x.run w).2.contents = (w.contents.edit w.checkId x).2
  others : ∀ x : Edit, Contents.SameBut x.target.1 x.target.2 w.contents (x.run w).2.contents
  failure : ∀ (x : Edit) (err : EcsError), (x.run w).1 = .error err →
    (x.run w).2.contents = w.contents
  has : ∀ e id, id.isWildcard = false → w.has e id = (w.contents.value? e id).isSome
  read : ∀ e k t, (w.read e k t).1 =
    (w.descriptor k).bind fun d =>
      (d.checkTyped t).map fun _ => w.contents.value? e (Id.component k)
  readValue : ∀ e id, (w.readValue e id).1.map ComponentValue.value = w.contents.value? e id ∧
    ∀ v, (w.readValue e id).1 = some v → w.descriptor? id.typeHandle = some v.type
  reading : (∀ e k t, (w.read e k t).2.contents = w.contents) ∧
    ∀ e id, (w.readValue e id).2.contents = w.contents

theorem read_fst (w : World) (e : Entity) (k : TypeHandle) (t : HostType) :
    (w.read e k t).1 = (w.descriptor k).bind fun d =>
      (d.checkTyped t).map fun _ => w.contents.value? e (Id.component k) := by
  rw [value?_contents]
  unfold World.read
  cases w.descriptor k with
  | error err => rfl
  | ok d =>
    simp only [Except.bind]
    cases d.checkTyped t with
    | error err => rfl
    | ok u =>
      simp only [Except.map]
      cases w.peek e (Id.component k) <;> rfl

theorem readValue_fst (w : World) (e : Entity) (id : Id) :
    (w.readValue e id).1 = (w.descriptor? id.typeHandle).bind fun d =>
      (w.contents.value? e id).map fun v => ⟨d, v⟩ := by
  rw [value?_contents]
  unfold readValue
  cases w.descriptor? id.typeHandle with
  | none => rfl
  | some d => cases w.peek e id <;> rfl

theorem WellFormed.value?_of_unknown (h : w.WellFormed) (hd : w.descriptor? id.typeHandle = none) :
    w.contents.value? e id = none := by
  cases hv : w.contents.value? e id with
  | none => rfl
  | some v =>
    obtain ⟨m, hm, hmv⟩ := Option.bind_eq_some_iff.1 hv
    have hsome : (m id).isSome = true := by rw [hmv, Option.isSome_some]
    obtain ⟨-, d, hd'⟩ := h.exists_descriptor?_of_value hm hsome
    rw [descriptor?, hd'] at hd
    cases hd

theorem WellFormed.readValue_value (h : w.WellFormed) (e : Entity) (id : Id) :
    (w.readValue e id).1.map ComponentValue.value = w.contents.value? e id := by
  rw [readValue_fst]
  cases hd : w.descriptor? id.typeHandle with
  | none => rw [h.value?_of_unknown hd, Option.bind_none, Option.map_none]
  | some d =>
    rw [Option.bind_some, Option.map_map]
    exact Option.map_id_apply

theorem readValue_type {v : ComponentValue} (hv : (w.readValue e id).1 = some v) :
    w.descriptor? id.typeHandle = some v.type := by
  rw [readValue_fst] at hv
  obtain ⟨d, hd, hv⟩ := Option.bind_eq_some_iff.1 hv
  obtain ⟨u, -, rfl⟩ := Option.map_eq_some_iff.1 hv
  exact hd

theorem read_contents (w : World) (e : Entity) (k : TypeHandle) (t : HostType) :
    (w.read e k t).2.contents = w.contents := by
  unfold World.read
  split
  · rfl
  · split
    · rfl
    · split <;> rfl

theorem readValue_contents (w : World) (e : Entity) (id : Id) :
    (w.readValue e id).2.contents = w.contents := by
  unfold readValue
  split
  · rfl
  · split <;> rfl

theorem Reachable.actsAsMap (h : w.Reachable) : w.ActsAsMap where
  spawn := (h.wellFormed.spawn h.fits).2
  edit x :=
    have hx := h.wellFormed.edit h.fits x
    ⟨hx.answer, hx.becomes.contents⟩
  others x := by
    rw [(h.wellFormed.edit h.fits x).becomes.contents]
    exact Contents.edit_sameBut x
  failure x err herr := by
    have hx := h.wellFormed.edit h.fits x
    rw [hx.becomes.contents]
    exact Contents.edit_of_error x (hx.answer.symm.trans herr)
  has e id hid := by
    rw [Bool.eq_iff_iff, h.wellFormed.has_iff hid, Contents.value?, Option.isSome_bind]
    cases w.contents e <;> simp
  read := w.read_fst
  readValue e id := ⟨h.wellFormed.readValue_value e id, fun _ => readValue_type⟩
  reading := ⟨w.read_contents, w.readValue_contents⟩

theorem actsAsMap_family : family.Reachable ∧ family.ActsAsMap :=
  ⟨reachable_family, reachable_family.actsAsMap⟩

end World
end EntityWorld
