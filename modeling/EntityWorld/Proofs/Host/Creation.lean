import EntityWorld.Proofs.Host.Attendance
import EntityWorld.Proofs.Host.Offspring
set_option autoImplicit false

/-!
The creation of host objects. An object whose record can be applied is bound to a new entity that
has what the record names and nothing else, with an entity below it for each sub-entity.
-/
namespace EntityWorld

namespace World

variable {u v w : World} {e t x : Entity} {made : List Entity}

/-- Every stored pair targets a live entity. -/
def Anchored (w : World) : Prop :=
  ∀ x id i, w.Carries x id → id.target? = some i → ∃ t, w.resolve i = some t

/-- The same, read off the tables that have rows. -/
def anchored? (w : World) : Bool :=
  w.storage.archetypes.toList.all fun a =>
    a.entities.isEmpty || a.ids.all fun id => id.target?.all fun i => (w.resolve i).isSome

theorem WellFormed.anchored (h : w.WellFormed) (hall : w.anchored? = true) : w.Anchored := by
  intro x id i hx hi
  obtain ⟨a, ha, hxa, hid⟩ := h.carries_iff.1 hx
  have hrows : a.entities.isEmpty = false := by
    rw [← Bool.not_eq_true, Array.isEmpty_iff]
    intro hnone
    rw [hnone] at hxa
    exact Array.not_mem_empty x hxa
  have htable := List.all_eq_true.1 hall a (Array.mem_toList_iff.2 ha)
  rw [hrows, Bool.false_or] at htable
  have htarget := List.all_eq_true.1 htable id hid
  rw [hi, Option.all_some] at htarget
  exact Option.isSome_iff_exists.1 htarget

theorem Anchored.isAlive (h : u.Anchored) (hb : Builds u made v) {id : Id} (hx : u.Carries x id)
    (hi : id.target? = some t.index) (ht : v.isAlive t = true) : u.isAlive t = true := by
  obtain ⟨y, hy⟩ := h x id t.index hx hi
  obtain ⟨hindex, hlive⟩ := Allocator.resolve_eq_some_iff.1 hy
  have heq : y = t := Allocator.eq_of_isAlive ((hb.alive y).2 (.inl hlive)) ht hindex
  exact heq ▸ hlive

theorem Anchored.not_carries (h : u.Anchored) (hb : Builds u made v) (ht : t ∈ made) {id : Id}
    (hi : id.target? = some t.index) : ¬ u.Carries x id := by
  intro hx
  have hlive := h.isAlive hb hx hi ((hb.alive t).2 (.inr ht))
  rw [hb.fresh t ht] at hlive
  cases hlive

theorem Builds.hasPair (hb : Builds u made v) (hu : u.WellFormed) (hf : u.Fits) (hfv : v.Fits)
    (h : u.Anchored) (hx : u.isAlive x = true) (relation : TypeHandle) (t : Entity) :
    v.hasPair x relation t = u.hasPair x relation t := by
  rw [Bool.eq_iff_iff, hb.wellFormed.hasPair_iff hfv, hu.hasPair_iff hf, hb.carries hx]
  refine and_congr_left fun hc => ⟨h.isAlive hb hc (Id.target?_pair relation t), fun ht => ?_⟩
  exact (hb.alive t).2 (.inl ht)

end World

namespace IdentityMap

open World (Builds Anchored Grown Reared)

variable {m : IdentityMap} {w v : World} {o : ObjectId} {e x : Entity} {made : List Entity}
variable {r : EntityRecord} {resolve : ObjectId → Option Entity}

theorem entityOf_isAlive (h : m.entityOf w o = some e) : w.isAlive e = true := by
  unfold entityOf at h
  split at h
  · next b _ =>
    split at h
    · next hb =>
      obtain rfl := Option.some.inj h
      exact (Bool.and_eq_true_iff.1 hb).2
    · cases h
  · cases h

theorem resolver_sound (h : m.resolver w r o = some e) : m.entityOf w o = some e := by
  obtain ⟨p, hp, rfl⟩ := Option.map_eq_some_iff.1 h
  have hkey : p.1 = o := by simpa using List.find?_some hp
  obtain ⟨t, -, ht⟩ := List.mem_filterMap.1 (List.mem_of_find?_eq_some hp)
  obtain ⟨y, hy, rfl⟩ := Option.map_eq_some_iff.1 ht
  exact hkey ▸ hy

theorem created_fst (m : IdentityMap) (w : World) {o : ObjectId} {r : EntityRecord}
    (hr : r.participates w.registry = true) (ho : m.entityOf w o = none) :
    (m.created w o r).1 =
      (r.apply (m.resolver w r) w.spawn.1 w.spawn.2).1.map fun _ => some w.spawn.1 := by
  have hspawn : m.spawn w o = (.ok w.spawn.1, m.bind o w.spawn.1, w.spawn.2) := by
    rw [spawn, ho]
    rfl
  unfold resolver
  simp only [created, hr, hspawn, Bool.not_true, if_neg Bool.false_ne_true]
  split <;> next hx => rw [hx]; rfl

/-- What creating an object comes to: the record is applied in full to a new entity, or the object
is destroyed again. -/
theorem Attentive.created_cases (h : Attentive m w) (hr : r.participates w.registry = true)
    (ho : m.entityOf w o = none) (hf : (m.created w o r).2.2.Fits) : ∃ made v,
      Reared w.spawn.1 w (w.spawn.1 :: made) v ∧ v.Fits ∧
        ((m.created w o r = (.ok (some w.spawn.1), m.bind o w.spawn.1, v) ∧
            ∃ k, v.contents w.spawn.1 = some k ∧
              r.Seeded w.registry (m.resolver w r) (fun _ => none) k ∧
              r.Offspring (Grown (m.resolver w r) v) w.spawn.1 made) ∨
          ∃ err, m.created w o r = (.error err, ((m.bind o w.spawn.1).destroyed v o).2)) := by
  have hfit := apply_fits hr ho hf
  obtain ⟨made, hreared, hlaw⟩ := h.world.apply_reared h.typed hfit
  have hfst := created_fst m w hr ho
  have hsnd := created_eq m w hr ho rfl
  obtain ⟨x, hx⟩ : ∃ x, r.apply (m.resolver w r) w.spawn.1 w.spawn.2 = x := ⟨_, rfl⟩
  rw [hx] at hfit hreared hlaw hfst hsnd
  have hsettle : (m.bind o w.spawn.1).settle x.2 = (m.bind o w.spawn.1, x.2) := by
    refine settle_of_silent ?_
    rw [World.ears, hreared.builds.listeners]
    exact h.ears
  refine ⟨made, x.2, hreared, hfit, ?_⟩
  rw [hsettle] at hsnd
  cases hresult : x.1 with
  | ok _ =>
    rw [hresult] at hfst hsnd
    exact .inl ⟨Prod.ext hfst hsnd, hlaw hresult⟩
  | error err =>
    rw [hresult] at hfst hsnd
    exact .inr ⟨err, Prod.ext hfst hsnd⟩

/-! ### What a record promises -/

/-- `e` has what the record names and nothing else; with `above` as the entity of the enclosing
record, it is a child of that one too. -/
structure Mirrors (m : IdentityMap) (w v : World) (above : Option Entity) (r : EntityRecord)
    (e : Entity) : Prop where
  carries : ∀ id, v.Carries e id ↔ (∃ h ∈ r.types, id = Id.component h) ∨
    (∃ p ∈ r.pairs, ∃ x, m.entityOf w p.2 = some x ∧ id = Id.pair p.1 x) ∨
      ∃ parent ∈ above, id = Id.pair w.childOf parent
  values : ∀ h ∈ r.types, v.peek e (Id.component h) = (r.lastValue? h).or (w.registry.default? h)
  targets : ∀ p ∈ r.pairs, ∃ x, m.entityOf w p.2 = some x ∧ v.hasPair e p.1 x = true
  parent : ∀ parent ∈ above, v.hasPair e w.childOf parent = true

theorem Mirrors.of_seeded (hb : Builds w made v) (hf : v.Fits) {above : Option Entity}
    (habove : ∀ parent ∈ above, v.isAlive parent = true)
    (hsound : ∀ o x, resolve o = some x → m.entityOf w o = some x) {k k' : Id → Option Value}
    (hk : ∀ id, (k id).isSome = true ↔ ∃ parent ∈ above, id = Id.pair w.childOf parent)
    (hseeded : r.Seeded w.registry resolve k k') (he : v.contents e = some k') :
    Mirrors m w v above r e := by
  have hvalue : ∀ id, v.peek e id = k' id := fun id => by
    rw [← World.value?_contents, Contents.value?, he, Option.bind_some]
  have hcarries : ∀ id, v.Carries e id ↔ (∃ h ∈ r.types, id = Id.component h) ∨
      (∃ p ∈ r.pairs, ∃ x, m.entityOf w p.2 = some x ∧ id = Id.pair p.1 x) ∨
        ∃ parent ∈ above, id = Id.pair w.childOf parent := by
    intro id
    rw [World.Carries, hvalue, hseeded.carried, hk, or_comm, or_assoc]
    refine or_congr_right (or_congr_left ⟨fun hp => ?_, fun hp => ?_⟩)
    · obtain ⟨p, hp, x, hx, rfl⟩ := hp
      exact ⟨p, hp, x, hsound _ x hx, rfl⟩
    · obtain ⟨p, hp, x, hx, rfl⟩ := hp
      obtain ⟨y, hy⟩ := hseeded.resolved p hp
      obtain rfl := Option.some.inj ((hsound _ y hy).symm.trans hx)
      exact ⟨p, hp, y, hy, rfl⟩
  refine ⟨hcarries, fun h hh => ?_, fun p hp => ?_, fun parent hparent => ?_⟩
  · have hnone : k (Id.component h) = none := by
      rw [← Option.isNone_iff_eq_none, ← Option.isSome_eq_false_iff, ← Bool.not_eq_true, hk]
      intro hex
      obtain ⟨parent, -, heq⟩ := hex
      exact Id.component_ne_pair h w.childOf parent heq
    rw [hvalue, hseeded.component, hnone, if_pos hh]
    rfl
  · obtain ⟨x, hx⟩ := hseeded.resolved p hp
    have hbound := hsound _ x hx
    refine ⟨x, hbound, (hb.wellFormed.hasPair_iff hf).2 ⟨?_, ?_⟩⟩
    · exact (hb.alive x).2 (.inl (entityOf_isAlive hbound))
    · exact (hcarries _).2 (.inr (.inl ⟨p, hp, x, hbound, rfl⟩))
  · refine (hb.wellFormed.hasPair_iff hf).2 ⟨habove parent hparent, ?_⟩
    exact (hcarries _).2 (.inr (.inr ⟨parent, hparent, rfl⟩))

structure Mirrored (m : IdentityMap) (w : World) (o : ObjectId) (r : EntityRecord) (e : Entity)
    (m' : IdentityMap) (w' : World) : Prop where
  state : m'.state o = .bound e
  objectOf : m'.objectOf e = some o
  entityOf : m'.entityOf w' o = some e
  mirrors : Mirrors m w w' none r e
  /-- Each sub-entity has a new entity of its own, and nothing else is new. -/
  offspring : ∃ made, (e :: made).Nodup ∧ (∀ x ∈ e :: made, w.isAlive x = false) ∧
    (∀ x, w'.isAlive x = true ↔ w.isAlive x = true ∨ x ∈ e :: made) ∧
    r.Offspring (fun record parent child => Mirrors m w w' (some parent) record child) e made
  count : w'.entityCount = w.entityCount + 1 + r.subCount
  unchanged : ∀ x, w.isAlive x = true → (∀ id, w'.peek x id = w.peek x id) ∧
    w'.nameOf x = w.nameOf x ∧ ∀ relation t, w'.hasPair x relation t = w.hasPair x relation t
  others : ∀ o', o' ≠ o → m'.state o' = m.state o'

theorem get?_byObject_bind (m : IdentityMap) (o : ObjectId) (e : Entity) (o' : ObjectId) :
    (m.bind o e).byObject.get? o' = if o' = o then some ⟨e, false⟩ else m.byObject.get? o' :=
  FinMap.get?_insert _ _ _ _

theorem Mirrors.of_grown (hb : Builds w made v) (hf : v.Fits) (hsound : ∀ o x, resolve o = some x →
    m.entityOf w o = some x) {parent child : Entity} (hparent : v.isAlive parent = true)
    (hgrown : Grown resolve v r parent child) : Mirrors m w v (some parent) r child := by
  obtain ⟨x, k, hk, hseeded⟩ := hgrown
  rw [hb.registry, hb.childOf] at hseeded
  refine .of_seeded hb hf (fun p hp => Option.some.inj hp ▸ hparent) hsound (fun id => ?_) hseeded
    hk
  rw [EntityRecord.Seeded.isSome_update]
  simp

theorem created_some (hok : (m.created w o r).1 = .ok (some e)) :
    r.participates w.registry = true ∧ m.entityOf w o = none := by
  cases hr : r.participates w.registry with
  | false => simp [created, hr] at hok
  | true =>
    cases ho : m.entityOf w o with
    | none => exact ⟨rfl, rfl⟩
    | some x => simp [created, spawn, hr, ho] at hok

/-- An object that has been created mirrors its record. -/
theorem Attended.created_mirrors (h : Attended m w) (hp : w.Anchored)
    (hf : (m.created w o r).2.2.Fits) (hok : (m.created w o r).1 = .ok (some e)) :
    Mirrored m w o r e (m.created w o r).2.1 (m.created w o r).2.2 := by
  have ha := h.attentive
  obtain ⟨hr, ho⟩ := created_some hok
  obtain ⟨made, v, hreared, hfit, hcase⟩ := ha.created_cases hr ho hf
  obtain ⟨heq, k, hk, hseeded, hoffspring⟩ | ⟨err, heq⟩ := hcase
  · rw [heq] at hok ⊢
    obtain rfl : w.spawn.1 = e := Option.some.inj (Except.ok.inj hok)
    obtain ⟨hb, -⟩ := hreared
    have hlive : ∀ x ∈ w.spawn.1 :: made, v.isAlive x = true := fun x hx => (hb.alive x).2 (.inr hx)
    have hself := hlive w.spawn.1 List.mem_cons_self
    have hsound : ∀ o' x, m.resolver w r o' = some x → m.entityOf w o' = some x := fun _ _ =>
      resolver_sound
    have hget := get?_byObject_bind m o w.spawn.1
    refine ⟨?_, (FinMap.get?_insert _ _ _ _).trans (if_pos rfl), ?_, ?_, ⟨made, hb.nodup, hb.fresh,
      hb.alive, ?_⟩, ?_, fun x hx => ⟨hb.peek hx, hb.names x hx, ?_⟩, fun o' ho' => ?_⟩
    · simp only [state, hget, if_pos]
      rfl
    · simp only [entityOf, hget, if_pos, hself]
      rfl
    · exact .of_seeded hb hfit (by simp) hsound (by simp) hseeded hk
    · exact hoffspring.imp fun _ parent _ hparent _ =>
        .of_grown hb hfit hsound (hlive parent hparent)
    · rw [hb.entityCount ha.world, List.length_cons, hoffspring.length_eq]
      omega
    · exact hb.hasPair ha.world h.fits hfit hp hx
    · simp only [state, hget, if_neg ho']
  · rw [heq] at hok
    cases hok

/-! ### A ship comes into harbour -/

def cargo : TypeDescription := TypeDescription.plain .u32 "Sea.Cargo"

def waterside : World :=
  World.new.run [.registerType cargo,
    .registerType ((TypeDescription.tag "Sea.Moored").relationship .remove)]

def quay : IdentityMap × World := Deed.run .empty (waterside.listen .identityMap) (.spawn ⟨1⟩)

def harbour : IdentityMap × World := Deed.run quay.1 quay.2 (.attach ⟨2⟩ ⟨1⟩)

theorem attended_harbour : Attended harbour.1 harbour.2 := by
  have hstart : Attended .empty (waterside.listen .identityMap) :=
    .install (World.Reachable.new.run (by decide +kernel)) (by decide +kernel)
  have hquay : Attended quay.1 quay.2 := hstart.deed (.spawn ⟨1⟩) trivial (by decide +kernel)
  exact hquay.deed (.attach ⟨2⟩ ⟨1⟩) trivial (by decide +kernel)

theorem anchored_harbour : harbour.2.Anchored :=
  attended_harbour.attentive.world.anchored (by decide +kernel)

def tons (n : Nat) : ComponentValue := ⟨Registry.freeze cargo ⟨1⟩, .ofNat 4 n⟩

def ship : EntityRecord :=
  .value (tons 5) (.sub "Mast"
    (.pair ⟨0⟩ ⟨1⟩ (.default ⟨1⟩ (.sub "Flag" (.value (tons 2) .nil) .nil)))
    (.default ⟨1⟩ (.pair ⟨2⟩ ⟨1⟩ (.value (tons 9) .nil))))

def moored : Except BridgeError (Option Entity) × IdentityMap × World :=
  harbour.1.created harbour.2 ⟨3⟩ ship

theorem created_mirrors_ship : moored.1 = .ok (some ⟨2, 0⟩) ∧
    Mirrored harbour.1 harbour.2 ⟨3⟩ ship ⟨2, 0⟩ moored.2.1 moored.2.2 ∧
    moored.2.2.entityCount = 5 ∧
    moored.2.2.peek ⟨2, 0⟩ (Id.component ⟨1⟩) = some (.plain [9, 0, 0, 0]) := by
  have hok : moored.1 = .ok (some ⟨2, 0⟩) := by decide +kernel
  have hf : moored.2.2.Fits := by decide +kernel
  refine ⟨hok, ?_, by decide +kernel, by decide +kernel⟩
  unfold moored at hok hf ⊢
  exact attended_harbour.created_mirrors anchored_harbour hf hok

end IdentityMap
end EntityWorld
