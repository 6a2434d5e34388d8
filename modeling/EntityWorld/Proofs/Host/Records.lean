import EntityWorld.Host.Record
import EntityWorld.Proofs.World.Along
set_option autoImplicit false

/-!
Applying a record is made of structural operations and of writes, up to the first failure.
-/
namespace EntityWorld

namespace EntityRecord

/-- What comes next comes after a success only. -/
def andThen (r : Except BridgeError Unit × World) (f : World → Except BridgeError Unit × World) :
    Except BridgeError Unit × World :=
  match r with
  | (.ok (), v) => f v
  | (.error err, v) => (.error err, v)

theorem andThen_cases (r : Except BridgeError Unit × World)
    (f : World → Except BridgeError Unit × World) : (∃ err v, r = (.error err, v) ∧
      andThen r f = (.error err, v)) ∨ ∃ v, r = (.ok (), v) ∧ andThen r f = f v := by
  obtain ⟨result, v⟩ := r
  cases result with
  | error err => exact .inl ⟨err, v, rfl, rfl⟩
  | ok _ => exact .inr ⟨v, rfl, rfl⟩

variable {R : World → World → Prop}

theorem building_andThen (h : World.Building R) {w : World} {r : Except BridgeError Unit × World}
    {f : World → Except BridgeError Unit × World} (hr : R w r.2) (hf : ∀ v, R v (f v).2) :
    R w (andThen r f).2 := by
  obtain ⟨err, v, rfl, heq⟩ | ⟨v, rfl, heq⟩ := andThen_cases r f
  · rwa [heq]
  · rw [heq]
    exact h.trans hr (hf v)

theorem ok_of_andThen {r : Except BridgeError Unit × World} {v : World}
    {f : World → Except BridgeError Unit × World} (hr : andThen r f = (.ok (), v)) :
    ∃ u, r = (.ok (), u) ∧ f u = (.ok (), v) := by
  obtain ⟨err, u, -, heq⟩ | ⟨u, hu, heq⟩ := andThen_cases r f
  · rw [heq] at hr
    cases hr
  · exact ⟨u, hu, heq.symm.trans hr⟩

theorem fits_of_andThen {r : Except BridgeError Unit × World}
    {f : World → Except BridgeError Unit × World} (hgrows : ∀ v : World, v.Grows (f v).2)
    (hf : (andThen r f).2.Fits) : r.2.Fits := by
  obtain ⟨err, v, rfl, heq⟩ | ⟨v, rfl, heq⟩ := andThen_cases r f
  · rwa [heq] at hf
  · rw [heq] at hf
    exact (hgrows v).fits hf

theorem furnishing_applySeeds (h : World.Furnishing R) (resolve : ObjectId → Option Entity)
    (r : EntityRecord) (e : Entity) (w : World) : R w (r.applySeeds resolve e w).2 := by
  induction r generalizing w with
  | nil => exact h.refl w
  | default k rest ih => exact building_andThen h.toBuilding (h.add w e (Id.component k)) ih
  | value v rest ih =>
    exact building_andThen h.toBuilding (h.put w e (Id.component v.handle) v.value .copy) ih
  | pair relation target rest ih =>
    unfold applySeeds
    split
    · exact h.refl w
    · next t _ => exact building_andThen h.toBuilding (h.addPair w e relation t) ih
  | name n rest ih => exact building_andThen h.toBuilding (h.setName w e n) ih
  | sub _ _ rest _ ih => exact ih w

variable (h : World.Wide R) (resolve : ObjectId → Option Entity)
include h

omit resolve in
theorem spawnChild_of_spawn (parent : Entity) (name : String) (w : World) :
    R w.spawn.2 (spawnChild parent name w).2 := by
  have hparent := h.setParent w.spawn.2 w.spawn.1 parent
  unfold spawnChild
  simp only
  split
  · next hr =>
    rw [hr] at hparent
    exact h.trans hparent (h.despawn _ _)
  · next v hr =>
    rw [hr] at hparent
    have hname (path : String) := h.trans hparent (h.setName v w.spawn.1 path)
    split
    · next err u hr =>
      have hu : (v.setName w.spawn.1 _).2 = u := congrArg Prod.snd hr
      exact hu ▸ hname _
    · next named u hr =>
      have hu : (v.setName w.spawn.1 _).2 = u := congrArg Prod.snd hr
      exact hu ▸ hname _

omit resolve in
theorem wide_spawnChild (parent : Entity) (name : String) (w : World) :
    R w (spawnChild parent name w).2 :=
  h.trans (h.spawn w) (spawnChild_of_spawn h parent name w)

omit h in
theorem applySubs_sub {w v : World} {e child : Entity} {name : String} {record rest : EntityRecord}
    (hchild : spawnChild e name w = (.ok child, v)) : (sub name record rest).applySubs resolve e w =
      andThen (record.applySeeds resolve child v) fun u =>
        andThen (record.applySubs resolve child u) (rest.applySubs resolve e) := by
  simp only [applySubs, hchild]
  obtain ⟨result, u⟩ := record.applySeeds resolve child v
  cases result with
  | error err => rfl
  | ok _ =>
    show _ = andThen (record.applySubs resolve child u) (rest.applySubs resolve e)
    simp only
    obtain ⟨result, t⟩ := record.applySubs resolve child u
    cases result <;> rfl

theorem sub_of_spawnChild {record rest : EntityRecord}
    (hrecord : ∀ e w, R w (record.applySubs resolve e w).2)
    (hrest : ∀ e w, R w (rest.applySubs resolve e w).2) (e : Entity) (name : String) (w : World) :
    R (spawnChild e name w).2 ((sub name record rest).applySubs resolve e w).2 := by
  cases hr : spawnChild e name w with
  | mk result v =>
    cases result with
    | error err =>
      unfold applySubs
      rw [hr]
      exact h.refl v
    | ok child =>
      rw [applySubs_sub resolve hr]
      exact building_andThen h.toBuilding
        (furnishing_applySeeds h.toFurnishing resolve record child v) fun u =>
          building_andThen h.toBuilding (hrecord child u) (hrest e)

theorem wide_applySubs (r : EntityRecord) (e : Entity) (w : World) :
    R w (r.applySubs resolve e w).2 := by
  induction r generalizing e w with
  | nil => exact h.refl w
  | default _ rest ih | value _ rest ih | pair _ _ rest ih | name _ rest ih => exact ih e w
  | sub name record rest ihrecord ih =>
    exact h.trans (wide_spawnChild h e name w) (sub_of_spawnChild h resolve ihrecord ih e name w)

omit h in
theorem apply_eq (r : EntityRecord) (e : Entity) (w : World) :
    r.apply resolve e w = andThen (r.applySeeds resolve e w) (r.applySubs resolve e) := by
  unfold apply
  obtain ⟨result, v⟩ := r.applySeeds resolve e w
  cases result <;> rfl

theorem wide_apply (r : EntityRecord) (e : Entity) (w : World) : R w (r.apply resolve e w).2 := by
  rw [apply_eq]
  exact building_andThen h.toBuilding (furnishing_applySeeds h.toFurnishing resolve r e w)
    (wide_applySubs h resolve r e)

/-! ### Success

A record that is applied to its end has ended no entity. -/

omit h resolve in
theorem building_spawnChild (h : World.Building R) {parent child : Entity} {name : String}
    {w v : World} (hr : spawnChild parent name w = (.ok child, v)) : R w v := by
  have hparent := h.trans (h.spawn w) (h.setParent w.spawn.2 w.spawn.1 parent)
  unfold spawnChild at hr
  simp only at hr
  split at hr
  · cases hr
  · next u hu =>
    rw [hu] at hparent
    have hname (path : String) := h.trans hparent (h.setName u w.spawn.1 path)
    split at hr
    · cases hr
    · next named t ht =>
      obtain ⟨-, rfl⟩ := Prod.mk.inj hr
      have hlast : (u.setName w.spawn.1 _).2 = t := congrArg Prod.snd ht
      exact hlast ▸ hname _

omit h in
theorem furnishing_applySubs (h : World.Furnishing R) (r : EntityRecord) {e : Entity} {w v : World}
    (hr : r.applySubs resolve e w = (.ok (), v)) : R w v := by
  induction r generalizing e w v with
  | nil =>
    obtain ⟨-, rfl⟩ := Prod.mk.inj hr
    exact h.refl w
  | default _ rest ih | value _ rest ih | pair _ _ rest ih | name _ rest ih => exact ih hr
  | sub name record rest ihrecord ih =>
    cases hspawn : spawnChild e name w with
    | mk result u =>
      cases result with
      | error err =>
        unfold applySubs at hr
        rw [hspawn] at hr
        cases hr
      | ok child =>
        rw [applySubs_sub resolve hspawn] at hr
        obtain ⟨s, hseeds, hr⟩ := ok_of_andThen hr
        obtain ⟨t, hsubs, hrest⟩ := ok_of_andThen hr
        have hseeded := furnishing_applySeeds h resolve record child u
        rw [hseeds] at hseeded
        have hchild := h.trans (building_spawnChild h.toBuilding hspawn) hseeded
        exact h.trans hchild (h.trans (ihrecord hsubs) (ih hrest))

omit h in
theorem furnishing_apply (h : World.Furnishing R) {r : EntityRecord} {e : Entity} {w v : World}
    (hr : r.apply resolve e w = (.ok (), v)) : R w v := by
  rw [apply_eq] at hr
  obtain ⟨u, hseeds, hsubs⟩ := ok_of_andThen hr
  have hseeded := furnishing_applySeeds h resolve r e w
  rw [hseeds] at hseeded
  exact h.trans hseeded (furnishing_applySubs resolve h r hsubs)

end EntityRecord

end EntityWorld
