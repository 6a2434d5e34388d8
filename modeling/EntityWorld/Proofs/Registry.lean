import EntityWorld.Schema.Registry
set_option autoImplicit false

/-!
Types are numbered in order of registration, and a registered type never changes.
-/
namespace EntityWorld.Registry

variable {r r' : Registry} {h : TypeHandle} {d : TypeDescriptor} {desc : TypeDescription}

structure WellFormed (r : Registry) : Prop where
  bounded : r.size ≤ maxHandle + 1
  numbered : ∀ h d, r.descriptor? h = some d → d.handle = h

theorem WellFormed.empty : Registry.empty.WellFormed := by
  refine ⟨by decide, fun h d hd => ?_⟩
  simp [descriptor?, Registry.empty] at hd

theorem check_of_register (hr : r.register desc = .ok (h, r')) : desc.check = .ok () := by
  unfold register at hr
  cases hc : desc.check with
  | error e => simp [hc] at hr
  | ok u => rfl

/-- A successful registration finds a type by its path, or appends one whose path and hash are
free. -/
theorem register_cases (hr : r.register desc = .ok (h, r')) :
    (r' = r ∧ r.lookup desc.path = some h ∧
      ∃ d, r.descriptor? h = some d ∧ d.sameShape desc = true) ∨
      (r.size ≤ maxHandle ∧
        (r.lookup desc.path = none ∧ r.ofStableId? (stableIdOf desc.path) = none) ∧
        h = ⟨UInt32.ofNat r.size⟩ ∧ r' = r.push (freeze desc h)) := by
  have hc := check_of_register hr
  simp only [register, hc] at hr
  cases hl : r.lookup desc.path with
  | some k =>
    simp only [hl] at hr
    cases hd : r.descriptor? k with
    | none => simp [hd] at hr
    | some d =>
      simp only [hd] at hr
      split at hr
      · next hs =>
        cases hr
        exact .inl ⟨rfl, rfl, d, hd, hs⟩
      · cases hr
  | none =>
    simp only [hl] at hr
    cases ho : r.ofStableId? (stableIdOf desc.path) with
    | some k => simp [ho] at hr
    | none =>
      simp only [ho] at hr
      split at hr
      · cases hr
      · next hn =>
        cases hr
        exact .inr ⟨by omega, ⟨rfl, rfl⟩, rfl, rfl⟩

theorem register_of_sameShape (hc : desc.check = .ok ()) (hl : r.lookup desc.path = some h)
    (hd : r.descriptor? h = some d) (hs : d.sameShape desc = true) :
    r.register desc = .ok (h, r) := by
  simp only [register, hc, hl, hd, hs, if_true]

theorem descriptor?_push (r : Registry) (d : TypeDescriptor) (h : TypeHandle) :
    (r.push d).descriptor? h = if h.raw.toNat = r.size then some d else r.descriptor? h := by
  simp only [descriptor?, push]
  by_cases he : h.raw.toNat = r.size
  · have he' : h.raw.toNat = r.entries.length := he
    rw [if_pos he, he', List.getElem?_concat_length]
  · have he' : h.raw.toNat ≠ r.entries.length := he
    rw [if_neg he, List.getElem?_append]
    split
    · rfl
    · rw [List.getElem?_eq_none (by simp; omega), List.getElem?_eq_none (by omega)]

theorem descriptor?_register (hr : r.register desc = .ok (h, r')) {k : TypeHandle}
    (hd : r.descriptor? k = some d) : r'.descriptor? k = some d := by
  obtain ⟨rfl, -⟩ | ⟨-, -, -, rfl⟩ := register_cases hr
  · exact hd
  · have hlt : k.raw.toNat < r.entries.length := (List.getElem?_eq_some_iff.1 hd).1
    rw [descriptor?_push, if_neg (by simp only [size]; omega), hd]

theorem WellFormed.register (hw : r.WellFormed) (hr : r.register desc = .ok (h, r')) :
    r'.WellFormed := by
  obtain ⟨rfl, -⟩ | ⟨hn, -, rfl, rfl⟩ := register_cases hr
  · exact hw
  · refine ⟨?_, fun k d hd => ?_⟩
    · simp only [size, push, List.length_append, List.length_singleton] at hn ⊢
      omega
    · rw [descriptor?_push] at hd
      split at hd
      · next hk =>
        cases hd
        rw [← hk, UInt32.ofNat_toNat]
        rfl
      · exact hw.numbered k d hd

/-! ### Finding types by the hash of their path -/

structure Indexed (r : Registry) : Prop where
  hashed : ∀ h d, r.descriptor? h = some d → d.stableId = stableIdOf d.path
  found : ∀ h d, r.descriptor? h = some d → r.ofStableId? d.stableId = some h

theorem Indexed.empty : Registry.empty.Indexed := by
  have hnone (h : TypeHandle) : Registry.empty.descriptor? h = none := by
    simp [descriptor?, Registry.empty]
  refine ⟨fun h d hd => ?_, fun h d hd => ?_⟩ <;> simp [hnone] at hd

theorem toNat_ofNat_size (hn : r.size ≤ maxHandle) : (UInt32.ofNat r.size).toNat = r.size := by
  rw [UInt32.toNat_ofNat', Nat.mod_eq_of_lt (by simp only [maxHandle] at hn; omega)]

theorem ofStableId?_push (r : Registry) (desc : TypeDescription) (h : TypeHandle) (id : UInt32) :
    (r.push (freeze desc h)).ofStableId? id =
      if id = stableIdOf desc.path then some h else r.ofStableId? id :=
  FinMap.get?_insert _ _ _ _

theorem Indexed.register (hi : r.Indexed) (hr : r.register desc = .ok (h, r')) : r'.Indexed := by
  obtain ⟨rfl, -⟩ | ⟨hn, hfree, hh, rfl⟩ := register_cases hr
  · exact hi
  · have hnumber : h.raw.toNat = r.size := by rw [hh, toNat_ofNat_size hn]
    refine ⟨fun k d hd => ?_, fun k d hd => ?_⟩
    · rw [descriptor?_push] at hd
      split at hd
      · cases hd
        rfl
      · exact hi.hashed k d hd
    · rw [descriptor?_push] at hd
      rw [ofStableId?_push]
      split at hd
      · next hk =>
        cases hd
        have hraw : k.raw = h.raw := UInt32.toNat_inj.1 (hk.trans hnumber.symm)
        obtain rfl : k = h := congrArg TypeHandle.mk hraw
        exact if_pos rfl
      · have hfound := hi.found k d hd
        rw [if_neg fun heq => ?_, hfound]
        rw [heq, hfree.2] at hfound
        cases hfound

/-- A hash that leads anywhere leads to a type with this hash. -/
def Traced (r : Registry) : Prop :=
  ∀ id h, r.ofStableId? id = some h → ∃ d, r.descriptor? h = some d ∧ d.stableId = id

theorem Traced.empty : Registry.empty.Traced := nofun

theorem Traced.register (ht : r.Traced) (hr : r.register desc = .ok (h, r')) : r'.Traced := by
  intro id k hk
  obtain ⟨rfl, -⟩ | ⟨hn, -, hh, rfl⟩ := register_cases hr
  · exact ht id k hk
  · rw [ofStableId?_push] at hk
    split at hk
    · next hid =>
      obtain rfl := Option.some.inj hk
      refine ⟨freeze desc h, ?_, hid.symm⟩
      rw [descriptor?_push, if_pos (by rw [hh, toNat_ofNat_size hn])]
    · obtain ⟨d, hd, hid⟩ := ht id k hk
      exact ⟨d, descriptor?_register hr hd, hid⟩

/-! ### Registrations in a row -/

inductive Grows (r : Registry) : Registry → Prop where
  | refl : Grows r r
  | register {r' r'' : Registry} {h : TypeHandle} {desc : TypeDescription} :
    Grows r r' → r'.register desc = .ok (h, r'') → Grows r r''

namespace Grows

theorem trans {r'' : Registry} (h : r.Grows r') (h' : r'.Grows r'') : r.Grows r'' := by
  induction h' with
  | refl => exact h
  | register _ hr ih => exact ih.register hr

theorem descriptor? {k : TypeHandle} (h : r.Grows r') (hd : r.descriptor? k = some d) :
    r'.descriptor? k = some d := by
  induction h with
  | refl => exact hd
  | register _ hr ih => exact descriptor?_register hr ih

theorem indexed (h : r.Grows r') (hi : r.Indexed) : r'.Indexed := by
  induction h with
  | refl => exact hi
  | register _ hr ih => exact ih.register hr

theorem traced (h : r.Grows r') (ht : r.Traced) : r'.Traced := by
  induction h with
  | refl => exact ht
  | register _ hr ih => exact ih.register hr

end Grows

end EntityWorld.Registry
