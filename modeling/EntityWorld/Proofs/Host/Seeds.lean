import EntityWorld.Proofs.Host.Records
import EntityWorld.Proofs.World.Names
import EntityWorld.Proofs.World.Pairs
set_option autoImplicit false

/-!
The seeds of one record. Whatever their order, an entity gets the types and the pairs that they name
and nothing else, the last value given for a type is the one that stays, and nobody else notices.
-/
namespace EntityWorld

theorem Id.component_ne_pair (h relation : TypeHandle) (t : Entity) :
    Id.component h ≠ Id.pair relation t := by
  intro heq
  have hpair := congrArg Id.isPair heq
  rw [isPair_component, pair, isPair_pairAt] at hpair
  cases hpair

def Registry.default? (reg : Registry) (h : TypeHandle) : Option Value :=
  (reg.descriptor? h).bind fun d => d.default?.map Prod.fst

namespace EntityRecord

def types : EntityRecord → List TypeHandle
  | nil => []
  | default h rest => h :: rest.types
  | value v rest => v.handle :: rest.types
  | pair _ _ rest | name _ rest | sub _ _ rest => rest.types

def pairs : EntityRecord → List (TypeHandle × ObjectId)
  | nil => []
  | pair relation target rest => (relation, target) :: rest.pairs
  | default _ rest | value _ rest | name _ rest | sub _ _ rest => rest.pairs

def lastValue? (h : TypeHandle) : EntityRecord → Option Value
  | nil => none
  | value v rest => (rest.lastValue? h).or (if v.handle = h then some v.value else none)
  | default _ rest | pair _ _ rest | name _ rest | sub _ _ rest => rest.lastValue? h

/-- The ids `k` of an entity become `k'` by the seeds of a record. -/
structure Seeded (reg : Registry) (resolve : ObjectId → Option Entity) (r : EntityRecord)
    (k k' : Id → Option Value) : Prop where
  carried : ∀ id, (k' id).isSome = true ↔ (k id).isSome = true ∨
    (∃ h ∈ r.types, id = Id.component h) ∨
      ∃ p ∈ r.pairs, ∃ x, resolve p.2 = some x ∧ id = Id.pair p.1 x
  /-- A value that was there before stays, unless the seeds give another one. -/
  component : ∀ h, k' (Id.component h) = (r.lastValue? h).or
    ((k (Id.component h)).or (if h ∈ r.types then reg.default? h else none))
  resolved : ∀ p ∈ r.pairs, ∃ x, resolve p.2 = some x

namespace Seeded

variable {reg : Registry} {resolve : ObjectId → Option Entity} {rest : EntityRecord}
variable {k k' : Id → Option Value} {h : TypeHandle} {x : Value}

theorem nil (k : Id → Option Value) : Seeded reg resolve .nil k k :=
  ⟨fun _ => by simp [types, pairs], fun _ => (Option.or_none (o := _)).symm, nofun⟩

theorem isSome_update (k : Id → Option Value) (id i : Id) (x : Value) :
    (Function.update k i (some x) id).isSome = true ↔ id = i ∨ (k id).isSome = true := by
  by_cases hid : id = i
  · simp [hid]
  · simp [hid]

theorem default (hx : (k (Id.component h)).or (reg.default? h) = some x)
    (hrest : Seeded reg resolve rest (Function.update k (Id.component h) (some x)) k') :
    Seeded reg resolve (.default h rest) k k' := by
  refine ⟨fun id => ?_, fun i => ?_, hrest.resolved⟩
  · rw [hrest.carried, isSome_update, types, List.exists_mem_cons_iff, pairs]
    simp only [or_assoc, or_left_comm]
  · rw [hrest.component]
    by_cases hi : i = h
    · subst hi
      have hor : (k (Id.component i)).or (reg.default? i) =
          (some x).or (if i ∈ rest.types then reg.default? i else none) := hx
      rw [Function.update_self, types, if_pos List.mem_cons_self, ← hor]
      rfl
    · rw [Function.update_of_ne fun heq => hi (Id.component_inj heq), types]
      simp only [List.mem_cons, hi, false_or]
      rfl

theorem value {v : ComponentValue} (hrest : Seeded reg resolve rest
      (Function.update k (Id.component v.handle) (some v.value)) k') :
    Seeded reg resolve (.value v rest) k k' := by
  refine ⟨fun id => ?_, fun i => ?_, hrest.resolved⟩
  · rw [hrest.carried, isSome_update, types, List.exists_mem_cons_iff, pairs]
    simp only [or_assoc, or_left_comm]
  · rw [hrest.component, lastValue?]
    by_cases hi : i = v.handle
    · subst hi
      rw [Function.update_self, if_pos rfl, Option.or_assoc]
      rfl
    · rw [Function.update_of_ne fun heq => hi (Id.component_inj heq), if_neg (Ne.symm hi),
        Option.or_none, types]
      simp only [List.mem_cons, hi, false_or]

theorem paired {relation : TypeHandle} {target : ObjectId} {t : Entity}
    (ht : resolve target = some t)
    (hrest : Seeded reg resolve rest (Function.update k (Id.pair relation t) (some x)) k') :
    Seeded reg resolve (.pair relation target rest) k k' := by
  refine ⟨fun id => ?_, fun i => ?_, fun p hp => ?_⟩
  · rw [hrest.carried, isSome_update, types, pairs, List.exists_mem_cons_iff]
    simp only [ht, Option.some.injEq, exists_eq_left', or_assoc, or_left_comm]
  · rw [hrest.component, Function.update_of_ne (Id.component_ne_pair i relation t)]
    rfl
  · obtain rfl | hp := List.mem_cons.1 hp
    · exact ⟨t, ht⟩
    · exact hrest.resolved p hp

end Seeded
end EntityRecord

/-! ### On the contents -/

namespace Contents

variable {c : Contents} {check : Id → Except EcsError TypeDescriptor} {e x : Entity} {id i : Id}
variable {m : Id → Option Value}

theorem value?_set (c : Contents) (e : Entity) (id : Id) (v : Value) (hx : (x, i) ≠ (e, id)) :
    (c.set e id v).value? x i = c.value? x i :=
  (SameBut.update c e id (some v)).entries x i hx

theorem add_cases (check : Id → Except EcsError TypeDescriptor) (id : Id) (hm : c e = some m) :
    (∃ err, c.add check e id = (.error err, c)) ∨
      ∃ b d v, check id = .ok d ∧ (m id).or (d.default?.map Prod.fst) = some v ∧
        c.add check e id = (.ok b, c.set e id v) := by
  unfold add
  rw [hm]
  cases hd : check id with
  | error err => exact .inl ⟨err, rfl⟩
  | ok d =>
    cases hv : m id with
    | some v =>
      have hsame : c.set e id v = c := by
        rw [set, hm, Option.map_some, ← hv, Function.update_eq_self, ← hm, Function.update_eq_self]
      refine .inr ⟨false, d, v, rfl, rfl, ?_⟩
      simp only [hv, hsame]
    | none =>
      cases hp : d.default? with
      | none => exact .inl ⟨.schema (.noDefault d.path), by simp only [hv, hp]⟩
      | some p =>
        refine .inr ⟨true, d, p.1, rfl, by rw [hp]; rfl, ?_⟩
        simp only [hv, hp]

theorem put_cases (check : Id → Except EcsError TypeDescriptor) (id : Id) (hm : c e = some m)
    (v : Value) : (∃ err, c.put check e id v = (.error err, c)) ∨
      c.put check e id v = (.ok (), c.set e id v) := by
  unfold put
  rw [hm]
  cases check id with
  | error err => exact .inl ⟨err, rfl⟩
  | ok d => exact .inr rfl

end Contents

/-! ### On a world -/

namespace World

variable {u v w : World} {e x : Entity} {id : Id} {c : Contents} {value : Value}

/-- From `u` to `v` something is given to `e`, and nothing else happens. -/
structure Dresses (e : Entity) (u v : World) : Prop where
  wellFormed : v.WellFormed
  registry : v.registry = u.registry
  childOf : v.childOf = u.childOf
  entities : v.entities = u.entities
  listeners : v.listeners = u.listeners
  contents : ∀ x, x ≠ e → v.contents x = u.contents x
  names : ∀ x, x ≠ e → v.nameOf x = u.nameOf x
  keeps : ∀ x id, u.Carries x id → v.Carries x id

namespace Dresses

theorem refl (h : u.WellFormed) (e : Entity) : Dresses e u u :=
  ⟨h, rfl, rfl, rfl, rfl, fun _ _ => rfl, fun _ _ => rfl, fun _ _ hc => hc⟩

theorem trans (huv : Dresses e u v) (hvw : Dresses e v w) : Dresses e u w where
  wellFormed := hvw.wellFormed
  registry := hvw.registry.trans huv.registry
  childOf := hvw.childOf.trans huv.childOf
  entities := hvw.entities.trans huv.entities
  listeners := hvw.listeners.trans huv.listeners
  contents x hx := (hvw.contents x hx).trans (huv.contents x hx)
  names x hx := (hvw.names x hx).trans (huv.names x hx)
  keeps x id hc := hvw.keeps x id (huv.keeps x id hc)

theorem isAlive (h : Dresses e u v) (x : Entity) : v.isAlive x = u.isAlive x := by
  rw [World.isAlive, h.entities]
  rfl

theorem of_becomes (h : u.Becomes c v) (hc : ∀ x, x ≠ e → c x = u.contents x)
    (hkeeps : ∀ x id, (u.contents.value? x id).isSome = true → (c.value? x id).isSome = true) :
    Dresses e u v := by
  refine ⟨h.wellFormed, h.registry, by rw [h.frame], h.entities, h.listeners, fun x hx => ?_,
    fun x _ => ?_, fun x id => ?_⟩
  · rw [h.contents, hc x hx]
  · rw [h.frame]
    rfl
  · rw [carries_iff_value?, carries_iff_value?, h.contents]
    exact hkeeps x id

theorem of_same (h : u.Becomes u.contents v) (e : Entity) : Dresses e u v :=
  of_becomes h (fun _ _ => rfl) fun _ _ hc => hc

theorem of_set (h : u.Becomes (u.contents.set e id value) v) : Dresses e u v := by
  refine of_becomes h (fun x hx => Function.update_of_ne hx _ _) fun x i hc => ?_
  by_cases hxi : (x, i) = (e, id)
  · obtain ⟨rfl, rfl⟩ := Prod.mk.inj hxi
    cases hx : u.contents x with
    | none =>
      rw [Contents.value?, hx] at hc
      cases hc
    | some m => rw [Contents.value?, set_eq hx, Function.update_self, Option.bind_some,
        Function.update_self, Option.isSome_some]
  · rwa [Contents.value?_set _ _ _ _ hxi]

theorem setName (h : u.WellFormed) (e : Entity) (name : String) :
    Dresses e u (u.setName e name).2 := by
  have hnames := fun x (hx : x ≠ e) => nameOf_setName u hx name
  have hcontents := setName_contents u e name
  obtain ⟨n, k, heq⟩ := setName_eq u e name
  rw [heq] at hnames hcontents ⊢
  refine ⟨h.congr rfl rfl rfl rfl, rfl, rfl, rfl, rfl, fun x _ => congrFun hcontents x, hnames,
    fun x id hc => ?_⟩
  rwa [carries_iff_value?, hcontents, ← carries_iff_value?]

end Dresses

/-- What applying seeds to `e` leaves: if it succeeds, the ids of `e` changed as `law` tells. -/
structure Leaves (e : Entity) (u : World) (law : (Id → Option Value) → (Id → Option Value) → Prop)
    (r : Except BridgeError Unit × World) : Prop where
  dresses : Dresses e u r.2
  law : r.1 = .ok () → ∀ k, u.contents e = some k → ∃ k', r.2.contents e = some k' ∧ law k k'

variable {P Q S : (Id → Option Value) → (Id → Option Value) → Prop}

theorem Leaves.andThen {r : Except BridgeError Unit × World}
    {f : World → Except BridgeError Unit × World} (hgrows : ∀ v : World, v.Grows (f v).2)
    (h : r.2.Fits → Leaves e u P r)
    (hrest : ∀ v, Dresses e u v → (f v).2.Fits → Leaves e v Q (f v))
    (hlaw : ∀ k k₁ k', P k k₁ → Q k₁ k' → S k k') (hf : (EntityRecord.andThen r f).2.Fits) :
    Leaves e u S (EntityRecord.andThen r f) := by
  have hfirst := h (EntityRecord.fits_of_andThen hgrows hf)
  obtain ⟨err, v, rfl, heq⟩ | ⟨v, rfl, heq⟩ := EntityRecord.andThen_cases r f
  · rw [heq]
    exact ⟨hfirst.dresses, nofun⟩
  · rw [heq] at hf ⊢
    have hthen := hrest v hfirst.dresses hf
    refine ⟨hfirst.dresses.trans hthen.dresses, fun hok k hk => ?_⟩
    obtain ⟨k₁, hk₁, hP⟩ := hfirst.law rfl k hk
    obtain ⟨k', hk', hQ⟩ := hthen.law hok k₁ hk₁
    exact ⟨k', hk', hlaw k k₁ k' hP hQ⟩

def Gives (id : Id) (good : (Id → Option Value) → Value → Prop) (k k' : Id → Option Value) : Prop :=
  ∃ x, good k x ∧ k' = Function.update k id (some x)

theorem WellFormed.add_leaves (h : w.WellFormed) (hf : w.Fits) (he : w.isAlive e = true) (id : Id) :
    Leaves e w (Gives id fun k x => (k id).or (w.registry.default? id.typeHandle) = some x)
      (EntityRecord.lift (w.add e id)) := by
  obtain ⟨hanswer, hbecomes⟩ := h.add hf e id
  obtain ⟨l, a, hs⟩ := h.stands he
  obtain ⟨err, hcase⟩ | ⟨b, d, x, hd, hx, hcase⟩ :=
    Contents.add_cases w.checkId id hs.contents
  · rw [hcase] at hanswer hbecomes
    refine ⟨.of_same hbecomes e, fun hok => ?_⟩
    rw [EntityRecord.lift, hanswer] at hok
    cases hok
  · rw [hcase] at hanswer hbecomes
    refine ⟨.of_set hbecomes, fun _ k hk => ?_⟩
    have hdefault : w.registry.default? id.typeHandle = d.default?.map Prod.fst := by
      rw [Registry.default?, (checkId_eq_ok hd).1, Option.bind_some]
    obtain rfl := Option.some.inj (hs.contents.symm.trans hk)
    refine ⟨_, ?_, x, hdefault ▸ hx, rfl⟩
    show (w.add e id).2.contents e = _
    rw [hbecomes.contents]
    exact (congrFun (set_eq hk _ _) e).trans (Function.update_self ..)

theorem WellFormed.writeValueRef_leaves (h : w.WellFormed) (hf : w.Fits) (he : w.isAlive e = true)
    (v : ComponentValue) : Leaves e w (Gives (Id.component v.handle) fun _ x => x = v.value)
      (EntityRecord.lift (w.writeValueRef e v)) := by
  obtain ⟨hanswer, hbecomes⟩ := h.put hf e (Id.component v.handle) v.value .copy
  obtain ⟨l, a, hs⟩ := h.stands he
  obtain ⟨err, hcase⟩ | hcase :=
    Contents.put_cases w.checkId (Id.component v.handle) hs.contents v.value
  · rw [hcase] at hanswer hbecomes
    refine ⟨.of_same hbecomes e, fun hok => ?_⟩
    rw [EntityRecord.lift, writeValueRef, hanswer] at hok
    cases hok
  · rw [hcase] at hanswer hbecomes
    refine ⟨.of_set hbecomes, fun _ k hk => ⟨_, ?_, v.value, rfl, rfl⟩⟩
    show (w.put e (Id.component v.handle) v.value .copy).2.contents e = _
    rw [hbecomes.contents]
    exact (congrFun (set_eq hk _ _) e).trans (Function.update_self ..)

theorem WellFormed.addPair_leaves (h : w.WellFormed) (hf : w.Fits) (he : w.isAlive e = true)
    (relation : TypeHandle) (t : Entity) : Leaves e w (Gives (Id.pair relation t) fun _ _ => True)
      (EntityRecord.lift (w.addPair e relation t)) := by
  unfold addPair
  split
  · obtain ⟨hdresses, hlaw⟩ := h.add_leaves hf he (Id.pair relation t)
    refine ⟨hdresses, fun hok k hk => ?_⟩
    obtain ⟨k', hk', x, -, hx⟩ := hlaw hok k hk
    exact ⟨k', hk', x, trivial, hx⟩
  · exact ⟨.refl h e, nofun⟩

theorem WellFormed.setName_leaves (h : w.WellFormed) (e : Entity) (name : String) :
    Leaves e w Eq (EntityRecord.lift (w.setName e name)) := by
  refine ⟨.setName h e name, fun _ k hk => ⟨k, ?_, rfl⟩⟩
  show (w.setName e name).2.contents e = _
  rw [setName_contents, hk]

variable {r : EntityRecord} {resolve : ObjectId → Option Entity}

theorem WellFormed.applySeeds_leaves (h : w.WellFormed) (he : w.isAlive e = true)
    (hf : (r.applySeeds resolve e w).2.Fits) :
    Leaves e w (EntityRecord.Seeded w.registry resolve r) (r.applySeeds resolve e w) := by
  have hgrows (r : EntityRecord) (v : World) : v.Grows (r.applySeeds resolve e v).2 :=
    (EntityRecord.furnishing_applySeeds throughout_leads.toFurnishing resolve r e v).grows
  induction r generalizing w with
  | nil => exact ⟨.refl h e, fun _ k hk => ⟨k, hk, .nil k⟩⟩
  | default i rest ih =>
    refine .andThen (hgrows rest)
      (fun hr => h.add_leaves ((add_grows w e _).fits hr) he (Id.component i))
      (fun v hv hf => hv.registry ▸ ih hv.wellFormed (hv.isAlive e ▸ he) hf)
      (fun k k₁ k' hk hk' => ?_) hf
    obtain ⟨x, hx, rfl⟩ := hk
    rw [Id.typeHandle_component] at hx
    exact .default hx hk'
  | value x rest ih =>
    refine .andThen (hgrows rest)
      (fun hr => h.writeValueRef_leaves ((put_grows w e _ _ _).fits hr) he x)
      (fun v hv hf => hv.registry ▸ ih hv.wellFormed (hv.isAlive e ▸ he) hf)
      (fun k k₁ k' hk hk' => ?_) hf
    obtain ⟨_, rfl, rfl⟩ := hk
    exact .value hk'
  | pair relation target rest ih =>
    unfold EntityRecord.applySeeds at hf ⊢
    split at hf
    · exact ⟨.refl h e, nofun⟩
    · next t ht =>
      have hfits := (throughout_leads.addPair w e relation t).grows.fits
      refine .andThen (hgrows rest)
        (fun hr => h.addPair_leaves (hfits hr) he relation t)
        (fun v hv hf => hv.registry ▸ ih hv.wellFormed (hv.isAlive e ▸ he) hf)
        (fun k k₁ k' hk hk' => ?_) hf
      obtain ⟨x, -, rfl⟩ := hk
      exact .paired ht hk'
  | name n rest ih =>
    refine .andThen (hgrows rest) (fun _ => h.setName_leaves e n)
      (fun v hv hf => hv.registry ▸ ih hv.wellFormed (hv.isAlive e ▸ he) hf)
      (fun k k₁ k' hk hk' => ?_) hf
    subst hk
    exact ⟨hk'.carried, hk'.component, hk'.resolved⟩
  | sub _ _ rest _ ih =>
    obtain ⟨hdresses, hlaw⟩ := ih h he hf
    refine ⟨hdresses, fun hok k hk => ?_⟩
    obtain ⟨k', hk', hseeded⟩ := hlaw hok k hk
    exact ⟨k', hk', hseeded.carried, hseeded.component, hseeded.resolved⟩

end World
end EntityWorld
