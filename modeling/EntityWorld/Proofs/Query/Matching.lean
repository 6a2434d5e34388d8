import EntityWorld.Proofs.World.Pairs
import EntityWorld.Query
set_option autoImplicit false

/-!
What the terms of a query mean for an entity, and how a table decides it by its ids. A table knows
the slot of a target only, so its answer is the meaning as long as the target is alive.
-/
namespace EntityWorld

/-! ### The ids of a relation -/

namespace Id

theorem eq_pairAt {id : Id} (h : id.isPair = true) : id = pairAt id.typeHandle id.lowIndex := by
  have hlt : id.bits.toNat < 0x10000000000000000 := id.bits.toNat_lt
  have hflag : pairFlag ≤ id.bits.toNat := by simpa [isPair] using h
  have hrel : id.typeHandle.raw.toNat = (id.bits.toNat - pairFlag) / 0x100000000 := by
    rw [typeHandle, if_pos h, UInt32.toNat_ofNat', pairFlag]
    omega
  have hlow : id.lowIndex.toNat = id.bits.toNat % 0x100000000 := by
    rw [lowIndex, UInt32.toNat_ofNat']
    omega
  have hbits : id.bits = (pairAt id.typeHandle id.lowIndex).bits := by
    apply UInt64.toNat_inj.1
    rw [toNat_pairAt, hrel, hlow]
    unfold pairFlag at hflag ⊢
    omega
  cases id
  exact congrArg Id.mk hbits

theorem satisfies_wildcard_iff {relation : TypeHandle} (h : relation.raw.toNat < 0x80000000)
    {id : Id} : id.satisfies (wildcard relation) = true ↔ ∃ i, id = pairAt relation i := by
  have hw : (wildcard relation).isWildcard = true := by simp [isWildcard, wildcard]
  rw [satisfies, if_pos hw, Bool.and_eq_true, beq_iff_eq, wildcard, typeHandle_pairAt _ _ h]
  constructor
  · intro hid
    obtain ⟨hpair, hrel⟩ := hid
    exact ⟨id.lowIndex, hrel ▸ eq_pairAt hpair⟩
  · intro hex
    obtain ⟨i, rfl⟩ := hex
    exact ⟨isPair_pairAt relation i, typeHandle_pairAt relation i h⟩

end Id

theorem Archetype.contains_wildcard_iff {relation : TypeHandle}
    (h : relation.raw.toNat < 0x80000000) (a : Archetype) :
    a.contains (Id.wildcard relation) = true ↔ ∃ i, Id.pairAt relation i ∈ a.ids := by
  have hw : (Id.wildcard relation).isWildcard = true := by simp [Id.isWildcard, Id.wildcard]
  rw [contains, if_pos hw, List.any_eq_true]
  simp only [Id.satisfies_wildcard_iff h]
  constructor
  · intro hex
    obtain ⟨id, hid, i, rfl⟩ := hex
    exact ⟨i, hid⟩
  · intro hex
    obtain ⟨i, hi⟩ := hex
    exact ⟨_, hi, i, rfl⟩

/-! ### Terms -/

namespace TermId

def type : TermId → TypeHandle
  | .component k => k
  | .pair relation _ => relation

def id : TermId → Id
  | .component k => Id.component k
  | .pair relation (.entity t) => Id.pair relation t
  | .pair relation .any => Id.wildcard relation

def entity? : TermId → Option Entity
  | .pair _ (.entity t) => some t
  | _ => none

/-- The relation has room in an id, and the slot of the target is not the wildcard. -/
structure Fits (t : TermId) : Prop where
  type : t.type.raw.toNat < 0x80000000
  target : ∀ e, t.entity? = some e → e.index ≠ Id.wildcardIndex

end TermId

namespace World

variable {w : World} {e : Entity} {l : Location} {a : Archetype} {t : TermId}

theorem WellFormed.handle_lt (h : w.WellFormed) {k : TypeHandle} {d : TypeDescriptor}
    (hd : w.descriptor? k = some d) : k.raw.toNat < 0x80000000 := by
  have hlt : k.raw.toNat < w.registry.size := (List.getElem?_eq_some_iff.1 hd).1
  exact Nat.lt_of_lt_of_le hlt h.registry.bounded

def Shows (w : World) (e : Entity) : TermId → Prop
  | .component k => w.has e (Id.component k) = true
  | .pair relation (.entity t) => w.hasPair e relation t = true
  | .pair relation .any => ∃ i, w.Carries e (Id.pairAt relation i)

/-- If the term means a single entity, it is alive. -/
def TargetAlive (w : World) (t : TermId) : Prop := ∀ x, t.entity? = some x → w.isAlive x = true

theorem not_targetAlive_iff : ¬ w.TargetAlive t ↔
    ∃ relation x, t = .pair relation (.entity x) ∧ w.isAlive x = false := by
  cases t with
  | component k => simp [TargetAlive, TermId.entity?]
  | pair relation target => cases target <;> simp [TargetAlive, TermId.entity?]

/-- What a term asks of an entity with the slot of the target in place of the target. -/
def ShowsSlot (w : World) (e : Entity) : TermId → Prop
  | .component k => w.Carries e (Id.component k)
  | .pair relation (.entity t) => w.Carries e (Id.pair relation t)
  | .pair relation .any => ∃ i, w.Carries e (Id.pairAt relation i)

theorem WellFormed.shows_iff (h : w.WellFormed) (hf : w.Fits) :
    w.Shows e t ↔ w.TargetAlive t ∧ w.ShowsSlot e t := by
  cases t with
  | component k =>
    have hw : (Id.component k).isWildcard = false := by simp [Id.isWildcard]
    simp [Shows, ShowsSlot, TargetAlive, TermId.entity?, h.has_iff_carries hw]
  | pair relation target =>
    cases target with
    | entity x => simp [Shows, ShowsSlot, TargetAlive, TermId.entity?, h.hasPair_iff hf]
    | any => simp [Shows, ShowsSlot, TargetAlive, TermId.entity?]

theorem WellFormed.mem_ids_iff (h : w.WellFormed) (hs : w.Stands e l a) {id : Id} :
    id ∈ a.ids ↔ w.Carries e id := by
  rw [Carries, hs.peek, h.isSome_value?_iff hs]

theorem WellFormed.contains_iff_showsSlot (h : w.WellFormed) (hs : w.Stands e l a) (ht : t.Fits) :
    a.contains t.id = true ↔ w.ShowsSlot e t := by
  cases t with
  | component k =>
    have hw : (Id.component k).isWildcard = false := by simp [Id.isWildcard]
    exact (Archetype.contains_iff hw).trans (h.mem_ids_iff hs)
  | pair relation target =>
    cases target with
    | entity x =>
      have hw : (Id.pair relation x).isWildcard = false := by
        simp [Id.isWildcard, Id.pair, ht.target x rfl]
      exact (Archetype.contains_iff hw).trans (h.mem_ids_iff hs)
    | any =>
      have hroom : relation.raw.toNat < 0x80000000 := ht.type
      refine (Archetype.contains_wildcard_iff hroom a).trans ?_
      simp only [ShowsSlot, h.mem_ids_iff hs]

def Meets (w : World) (e : Entity) (t : Term) : Prop :=
  match t.role with
  | .required => w.Shows e t.id
  | .excluded => ¬ w.Shows e t.id
  | .optional => True

def MeetsSlot (w : World) (e : Entity) (t : Term) : Prop :=
  match t.role with
  | .required => w.ShowsSlot e t.id
  | .excluded => ¬ w.ShowsSlot e t.id
  | .optional => True

theorem WellFormed.meetsSlot_iff (h : w.WellFormed) (hf : w.Fits) {t : Term}
    (hreq : t.role = .required → w.TargetAlive t.id) : w.MeetsSlot e t ↔
      w.Meets e t ∧ (t.role = .excluded → ¬ w.TargetAlive t.id → ¬ w.ShowsSlot e t.id) := by
  have hshows := h.shows_iff (e := e) (t := t.id) hf
  unfold MeetsSlot Meets
  cases hr : t.role with
  | required =>
    have halive := hreq hr
    simp [hshows, halive]
  | excluded =>
    by_cases halive : w.TargetAlive t.id
    · simp [hshows, halive]
    · simp [hshows, halive]
  | optional => simp

end World

/-! ### Compiled terms -/

def Term.compiled (t : Term) : CompiledTerm := ⟨t.id.id, t.role, t.id.entity?⟩

namespace Query

variable {w : World} {source : TermList} {q : Query}

/-- The term can be compiled in `w`: its type is registered and its target is alive. -/
structure Sound (w : World) (t : Term) : Prop where
  registered : ∃ d, w.descriptor? t.id.type = some d
  alive : w.TargetAlive t.id

theorem compileTerm_eq_ok {t : Term} {c : CompiledTerm} (h : compileTerm w t = .ok c) :
    c = t.compiled ∧ Sound w t := by
  obtain ⟨id, role, access⟩ := t
  cases id with
  | component k =>
    unfold compileTerm at h
    simp only at h
    split at h
    · cases h
    · next d hd =>
      split at h
      · cases h
      · cases h
        exact ⟨rfl, ⟨d, hd⟩, nofun⟩
  | pair relation target =>
    unfold compileTerm at h
    simp only at h
    split at h
    · cases h
    · next d hd =>
      split at h
      · cases h
      · cases target with
        | any =>
          rw [← Except.ok.inj h]
          exact ⟨rfl, ⟨d, hd⟩, nofun⟩
        | entity e =>
          simp only at h
          split at h
          · next he =>
            rw [← Except.ok.inj h]
            refine ⟨rfl, ⟨d, hd⟩, fun x hx => ?_⟩
            cases hx
            exact he
          · cases h

theorem mapM_compileTerm_eq_ok {terms : List CompiledTerm}
    (h : source.mapM (compileTerm w) = .ok terms) :
    terms = source.map Term.compiled ∧ ∀ t ∈ source, Sound w t := by
  induction source generalizing terms with
  | nil =>
    rw [List.mapM_nil] at h
    cases h
    exact ⟨rfl, nofun⟩
  | cons t rest ih =>
    rw [List.mapM_cons] at h
    cases ht : compileTerm w t with
    | error err =>
      rw [ht] at h
      cases h
    | ok c =>
      cases hrest : rest.mapM (compileTerm w) with
      | error err =>
        rw [ht, hrest] at h
        cases h
      | ok cs =>
        rw [ht, hrest] at h
        cases h
        obtain ⟨rfl, hsound⟩ := compileTerm_eq_ok ht
        obtain ⟨rfl, hall⟩ := ih hrest
        refine ⟨rfl, fun x hx => ?_⟩
        obtain rfl | hx := List.mem_cons.1 hx
        · exact hsound
        · exact hall x hx

theorem compile_eq_ok (h : compile w source = .ok q) :
    q = ⟨source.map Term.compiled, source, [], 0⟩ ∧ ∀ t ∈ source, Sound w t := by
  unfold compile at h
  cases hterms : source.mapM (compileTerm w) with
  | error err =>
    rw [hterms] at h
    cases h
  | ok terms =>
    obtain ⟨rfl, hsound⟩ := mapM_compileTerm_eq_ok hterms
    rw [hterms] at h
    refine ⟨?_, hsound⟩
    cases hc : contradiction? (source.map Term.compiled) with
    | none =>
      simp only [bind, Except.bind, hc] at h
      cases h
      rfl
    | some id =>
      simp only [bind, Except.bind, hc] at h
      split at h <;> cases h

theorem Sound.fits {t : Term} (ht : Sound w t) (h : w.WellFormed) (hf : w.Fits) : t.id.Fits := by
  constructor
  · obtain ⟨d, hd⟩ := ht.registered
    exact h.handle_lt hd
  · intro e he hi
    have hlt := Nat.lt_trans (Allocator.index_lt_of_isAlive (ht.alive e he)) hf.slots
    rw [hi] at hlt
    exact absurd hlt (by decide)

/-! ### Tables that match -/

theorem admits_congr {a b : Archetype} (h : a.ids = b.ids) : q.admits a = q.admits b := by
  simp only [admits, Archetype.contains, Archetype.columnIndex?, h]

theorem admits_iff (h : w.WellFormed) {e : Entity} {l : Location} {a : Archetype}
    (hs : w.Stands e l a) (hterms : q.terms = source.map Term.compiled)
    (hfits : ∀ t ∈ source, t.id.Fits) :
    q.admits a = true ↔ ∀ t ∈ source, w.MeetsSlot e t := by
  rw [admits, hterms, List.all_map, List.all_eq_true]
  refine forall₂_congr fun t ht => ?_
  have hslot := h.contains_iff_showsSlot hs (hfits t ht)
  cases hr : t.role with
  | required => simpa [Term.compiled, World.MeetsSlot, hr] using hslot
  | excluded => simpa [Term.compiled, World.MeetsSlot, hr] using not_congr hslot
  | optional => simp [Term.compiled, World.MeetsSlot, hr]

end Query
end EntityWorld
