import EntityWorld.Proofs.World.Parents
import EntityWorld.Proofs.World.Refinement
set_option autoImplicit false

/-!
Relations that are not registered. A pair has room for the low 31 bits of the relation's handle, and
what is looked up is the handle that comes out of the pair. So a handle that is too large stands for
another relation, which may be a registered one.
-/
namespace EntityWorld

/-- The relation that a pair with this one is of: what is left of the handle in 31 bits. -/
def TypeHandle.packed (r : TypeHandle) : TypeHandle := ⟨UInt32.ofNat (r.raw.toNat % 0x80000000)⟩

namespace TypeHandle

variable {r : TypeHandle}

theorem toNat_packed (r : TypeHandle) : r.packed.raw.toNat = r.raw.toNat % 0x80000000 := by
  rw [packed, UInt32.toNat_ofNat']
  omega

theorem packed_lt (r : TypeHandle) : r.packed.raw.toNat < 0x80000000 := by
  rw [toNat_packed]
  exact Nat.mod_lt _ (by decide)

theorem packed_eq_self_iff : r.packed = r ↔ r.raw.toNat < 0x80000000 := by
  constructor
  · intro h
    rw [← h]
    exact packed_lt r
  · intro h
    rw [packed, Nat.mod_eq_of_lt h, UInt32.ofNat_toNat]

end TypeHandle

namespace Id

theorem pairAt_packed (r : TypeHandle) (i : UInt32) : pairAt r.packed i = pairAt r i := by
  rw [pairAt, pairAt, r.toNat_packed, Nat.mod_mod]

theorem typeHandle_pair (r : TypeHandle) (t : Entity) : (pair r t).typeHandle = r.packed := by
  rw [pair, ← pairAt_packed, typeHandle_pairAt _ _ r.packed_lt]

end Id

theorem Registry.contains_eq_false_iff {r : Registry} {h : TypeHandle} :
    r.contains h = false ↔ r.descriptor? h = none := by
  rw [contains, decide_eq_false_iff_not, Nat.not_lt, descriptor?, List.getElem?_eq_none_iff]

namespace World

variable {w : World} {e t : Entity} {id : Id} {relation other : TypeHandle}

/-- For the pairs of `e` with `t`, the one relation is as good as the other. -/
structure ActsAs (w : World) (e t : Entity) (relation other : TypeHandle) : Prop where
  add : w.addPair e relation t = w.addPair e other t
  remove : w.removePair e relation t = w.removePair e other t
  has : w.hasPair e relation t = w.hasPair e other t
  targets : w.targets e relation = w.targets e other

/-- Nothing is done with the relation: a pair with it is refused, for the type `named` is not
registered, and there is none to be seen or taken off. -/
structure Rejects (w : World) (e t : Entity) (relation named : TypeHandle) : Prop where
  add : w.addPair e relation t = (.error (.unknownType named), w)
  remove : w.removePair e relation t = (.ok false, w)
  has : w.hasPair e relation t = false
  targets : w.targets e relation = []

theorem actsAs_packed (w : World) (e t : Entity) (relation : TypeHandle) :
    w.ActsAs e t relation relation.packed := by
  have hpair : Id.pair relation.packed t = Id.pair relation t := Id.pairAt_packed _ _
  have hwild : Id.wildcard relation.packed = Id.wildcard relation := Id.pairAt_packed _ _
  constructor
  · rw [addPair, addPair, hpair]
  · rw [removePair, removePair, hpair]
  · rw [hasPair, hasPair, hpair]
  · simp only [targets, pairedSlots, hwild]

theorem Rejects.of_actsAs {named : TypeHandle} (h : w.Rejects e t other named)
    (ha : w.ActsAs e t relation other) : w.Rejects e t relation named :=
  ⟨ha.add.trans h.add, ha.remove.trans h.remove, ha.has.trans h.has, ha.targets.trans h.targets⟩

/-! ### Ids of unknown types -/

theorem WellFormed.not_carries_of_unknown (h : w.WellFormed)
    (hd : w.descriptor? id.typeHandle = none) : ¬ w.Carries e id := by
  rw [carries_iff_value?, h.value?_of_unknown hd]
  exact Bool.false_ne_true

theorem WellFormed.add_of_unknown (h : w.WellFormed) (he : w.isAlive e = true)
    (hd : w.descriptor? id.typeHandle = none) :
    w.add e id = (.error (.unknownType id.typeHandle), w) := by
  obtain ⟨l, a, hs⟩ := h.stands he
  simp only [World.add, hs.place, checkId, descriptor, hd]

theorem WellFormed.remove_of_not_has (h : w.WellFormed) (he : w.isAlive e = true)
    (hno : w.has e id = false) : w.remove e id = (.ok false, w) := by
  obtain ⟨l, a, hs⟩ := h.stands he
  rw [hs.has] at hno
  simp [World.remove, hs.place, Storage.withoutId, hs.table, hno]

theorem eq_of_checkId_unknown {k : TypeHandle} (h : w.checkId id = .error (.unknownType k)) :
    k = id.typeHandle := by
  unfold checkId descriptor at h
  cases hd : w.descriptor? id.typeHandle with
  | none =>
    simp only [hd, Except.error.injEq, EcsError.unknownType.injEq] at h
    exact h.symm
  | some d =>
    simp only [hd] at h
    split at h
    · simp at h
    · split at h
      · simp at h
      · cases h

theorem eq_of_add_unknown {k : TypeHandle} (h : w.WellFormed) (hf : w.Fits)
    (hk : (w.add e id).1 = .error (.unknownType k)) : k = id.typeHandle := by
  rw [(h.add hf e id).answer] at hk
  unfold Contents.add at hk
  split at hk
  · simp at hk
  · next err herr =>
    rw [Except.error.inj hk] at herr
    exact eq_of_checkId_unknown herr
  · split at hk
    · cases hk
    · cases hk
    · simp at hk

/-! ### Relations that are not registered -/

theorem WellFormed.rejects (h : w.WellFormed) (hf : w.Fits) (he : w.isAlive e = true)
    (ht : w.isAlive t = true) (hlt : relation.raw.toNat < 0x80000000)
    (hr : w.registry.contains relation = false) : w.Rejects e t relation relation := by
  have htype (x : Entity) : (Id.pair relation x).typeHandle = relation :=
    (Id.typeHandle_pair relation x).trans (TypeHandle.packed_eq_self_iff.2 hlt)
  have hd : w.descriptor? relation = none := Registry.contains_eq_false_iff.1 hr
  have hno (x : Entity) : ¬ w.Carries e (Id.pair relation x) :=
    h.not_carries_of_unknown (by rw [htype, hd])
  have hhas : w.has e (Id.pair relation t) = false := by
    rw [← Bool.not_eq_true, h.has_iff_carries (hf.isWildcard_pair ht relation)]
    exact hno t
  refine ⟨?_, h.remove_of_not_has he hhas, ?_, ?_⟩
  · rw [addPair, if_pos ht, h.add_of_unknown he (by rw [htype, hd]), htype]
  · rw [hasPair, hhas, Bool.and_false]
  · refine List.eq_nil_iff_forall_not_mem.2 fun x hx => ?_
    exact hno x ((h.mem_targets hlt).1 hx).2

/-- A relation that is not registered is rejected by name if its handle fits into a pair. A larger
handle acts as the relation of its low 31 bits: it has that relation's pairs if that one is
registered, and else it is rejected by that relation's name. -/
theorem Reachable.rejects_iff (h : w.Reachable) (he : w.isAlive e = true)
    (ht : w.isAlive t = true) (hr : w.registry.contains relation = false) :
    w.ActsAs e t relation relation.packed ∧
      (w.registry.contains relation.packed = false → w.Rejects e t relation relation.packed) ∧
      (w.Rejects e t relation relation ↔ relation.raw.toNat < 0x80000000) := by
  refine ⟨w.actsAs_packed e t relation, fun hp => ?_, fun hrej => ?_, fun hlt => ?_⟩
  · exact (h.wellFormed.rejects h.fits he ht relation.packed_lt hp).of_actsAs
      (w.actsAs_packed e t relation)
  · have hadd := congrArg Prod.fst hrej.add
    rw [addPair, if_pos ht] at hadd
    have hself := eq_of_add_unknown h.wellFormed h.fits hadd
    rw [Id.typeHandle_pair] at hself
    exact TypeHandle.packed_eq_self_iff.1 hself.symm
  · exact h.wellFormed.rejects h.fits he ht hlt hr

theorem rejects_iff_family : family.Reachable ∧ family.isAlive ⟨3, 0⟩ = true ∧
    family.isAlive ⟨1, 0⟩ = true ∧ family.registry.contains ⟨0x80000001⟩ = false ∧
    family.ActsAs ⟨3, 0⟩ ⟨1, 0⟩ ⟨0x80000001⟩ (TypeHandle.packed ⟨0x80000001⟩) ∧
    (family.registry.contains (TypeHandle.packed ⟨0x80000001⟩) = false →
      family.Rejects ⟨3, 0⟩ ⟨1, 0⟩ ⟨0x80000001⟩ (TypeHandle.packed ⟨0x80000001⟩)) ∧
    (family.Rejects ⟨3, 0⟩ ⟨1, 0⟩ ⟨0x80000001⟩ ⟨0x80000001⟩ ↔
      (0x80000001 : UInt32).toNat < 0x80000000) := by
  have he : family.isAlive ⟨3, 0⟩ = true := by decide +kernel
  have ht : family.isAlive ⟨1, 0⟩ = true := by decide +kernel
  have hr : family.registry.contains ⟨0x80000001⟩ = false := by decide +kernel
  exact ⟨reachable_family, he, ht, hr, reachable_family.rejects_iff he ht hr⟩

/-- No relation has the handle, and yet entity 2 is seen to have a pair with it; entity 3 gets one,
which the relation with the handle 1 has then, and loses the pair of that relation by it. -/
theorem rejects_family : family.Reachable ∧ family.registry.contains ⟨0x80000001⟩ = false ∧
    family.hasPair ⟨2, 0⟩ ⟨0x80000001⟩ ⟨0, 0⟩ = true ∧
    family.targets ⟨2, 0⟩ ⟨0x80000001⟩ = [⟨0, 0⟩] ∧
    (family.addPair ⟨3, 0⟩ ⟨0x80000001⟩ ⟨1, 0⟩).1 = .ok true ∧
    (family.addPair ⟨3, 0⟩ ⟨0x80000001⟩ ⟨1, 0⟩).2.hasPair ⟨3, 0⟩ ⟨1⟩ ⟨1, 0⟩ = true ∧
    (family.removePair ⟨3, 0⟩ ⟨0x80000001⟩ ⟨0, 0⟩).1 = .ok true ∧
    ¬ family.Rejects ⟨2, 0⟩ ⟨0, 0⟩ ⟨0x80000001⟩ ⟨0x80000001⟩ := by
  have hseen : family.hasPair ⟨2, 0⟩ ⟨0x80000001⟩ ⟨0, 0⟩ = true := by decide +kernel
  refine ⟨reachable_family, by decide +kernel, hseen, by decide +kernel, by decide +kernel,
    by decide +kernel, by decide +kernel, fun hrej => ?_⟩
  rw [hrej.has] at hseen
  cases hseen

end World
end EntityWorld
