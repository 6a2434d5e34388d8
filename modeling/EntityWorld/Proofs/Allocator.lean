import EntityWorld.Allocator
import Mathlib.Data.List.Nodup
set_option autoImplicit false

/-!
The bookkeeping of the allocator. Every operation is described by what it does to `slot?`; from
that follow the handles that are alive, and that the free list and the count agree with the slots.
-/
namespace EntityWorld.Allocator

/-- Free list and count agree with the slots, and every slot has an index of its own that is not
the one set apart for wildcards. -/
structure WellFormed (a : Allocator) : Prop where
  bounded : a.slots.size ≤ 0xffffffff
  mem_free : ∀ i, i ∈ a.free ↔ ∃ s, a.slot? i = some s ∧ s.alive = false
  nodup_free : a.free.Nodup
  count : a.aliveCount = a.slots.countP Slot.alive

variable {a : Allocator} {e x y : Entity} {i : UInt32}

/-! ### Live handles -/

theorem isAlive_iff : a.isAlive e = true ↔ a.slot? e.index = some ⟨e.generation, true⟩ := by
  unfold isAlive
  cases h : a.slot? e.index with
  | none => simp
  | some s =>
    obtain ⟨g, alive⟩ := s
    cases alive <;> simp

theorem resolve_eq_some_iff : a.resolve i = some e ↔ e.index = i ∧ a.isAlive e = true := by
  unfold resolve
  rw [isAlive_iff]
  cases h : a.slot? i with
  | none =>
    constructor
    · intro hs
      cases hs
    · intro hex
      obtain ⟨rfl, hs⟩ := hex
      rw [h] at hs
      cases hs
  | some s =>
    obtain ⟨g, alive⟩ := s
    obtain ⟨j, k⟩ := e
    constructor
    · intro hs
      cases alive with
      | false => simp at hs
      | true =>
        simp only [if_true, Option.some.injEq, Entity.mk.injEq] at hs
        obtain ⟨rfl, rfl⟩ := hs
        exact ⟨rfl, h⟩
    · intro hex
      obtain ⟨rfl, hs⟩ := hex
      rw [h] at hs
      cases hs
      rfl

theorem eq_of_isAlive (hx : a.isAlive x = true) (hy : a.isAlive y = true)
    (h : x.index = y.index) : x = y := by
  have h1 : a.resolve y.index = some x := resolve_eq_some_iff.2 ⟨h, hx⟩
  have h2 : a.resolve y.index = some y := resolve_eq_some_iff.2 ⟨rfl, hy⟩
  rw [h1] at h2
  exact Option.some.inj h2

theorem index_lt_of_slot? {s : Slot} (h : a.slot? i = some s) : i.toNat < a.slots.size :=
  (Array.getElem?_eq_some_iff.1 h).1

theorem index_lt_of_isAlive (h : a.isAlive e = true) : e.index.toNat < a.slots.size :=
  index_lt_of_slot? (isAlive_iff.1 h)

/-! ### Issuing a handle -/

/-- One more handle can be issued: a slot is free, or there is an index for a new one. -/
def HasRoom (a : Allocator) : Prop := a.free = [] → a.slots.size < 0xffffffff

theorem slot?_allocate_fst (h : a.WellFormed) (hn : a.HasRoom) :
    a.slot? a.allocate.1.index = none ∧ a.allocate.1.generation = 0 ∨
      a.slot? a.allocate.1.index = some ⟨a.allocate.1.generation, false⟩ := by
  unfold allocate
  cases hf : a.free with
  | nil =>
    have hlt := hn hf
    refine .inl ⟨?_, rfl⟩
    simp only [slot?, UInt32.toNat_ofNat']
    rw [Nat.mod_eq_of_lt (by omega)]
    exact Array.getElem?_size
  | cons j rest =>
    obtain ⟨s, hs, hdead⟩ := (h.mem_free j).1 (hf ▸ List.mem_cons_self)
    obtain ⟨g, alive⟩ := s
    cases hdead
    right
    simp only [hs]

theorem slot?_allocate (h : a.WellFormed) (hn : a.HasRoom) (j : UInt32) :
    a.allocate.2.slot? j =
      if j = a.allocate.1.index then some ⟨a.allocate.1.generation, true⟩ else a.slot? j := by
  unfold allocate
  cases hf : a.free with
  | nil =>
    have hlt := hn hf
    have hi : (UInt32.ofNat a.slots.size).toNat = a.slots.size := by
      rw [UInt32.toNat_ofNat', Nat.mod_eq_of_lt (by omega)]
    simp only [slot?, Array.getElem?_push, ← UInt32.toNat_inj, hi]
  | cons k rest =>
    obtain ⟨s, hs, -⟩ := (h.mem_free k).1 (hf ▸ List.mem_cons_self)
    have hk := index_lt_of_slot? hs
    simp only [hs]
    by_cases hj : j = k
    · subst hj
      simp [slot?, hk]
    · have hn : k.toNat ≠ j.toNat := fun hh => hj (UInt32.toNat_inj.1 hh).symm
      simp [slot?, hn, hj]

theorem resolve_allocate_fst (h : a.WellFormed) (hn : a.HasRoom) :
    a.resolve a.allocate.1.index = none := by
  rcases slot?_allocate_fst h hn with ⟨hs, -⟩ | hs <;> simp [resolve, hs]

theorem isAlive_allocate_fst (h : a.WellFormed) (hn : a.HasRoom) :
    a.isAlive a.allocate.1 = false := by
  rcases slot?_allocate_fst h hn with ⟨hs, -⟩ | hs <;> simp [isAlive, hs]

theorem isAlive_allocate (h : a.WellFormed) (hn : a.HasRoom) (x : Entity) :
    a.allocate.2.isAlive x = true ↔ x = a.allocate.1 ∨ a.isAlive x = true := by
  rw [isAlive_iff, isAlive_iff, slot?_allocate h hn]
  by_cases hx : x.index = a.allocate.1.index
  · have hold : a.slot? a.allocate.1.index ≠ some ⟨x.generation, true⟩ := by
      rcases slot?_allocate_fst h hn with ⟨hf, -⟩ | hf <;> simp [hf]
    rw [if_pos hx, hx, or_iff_left hold]
    simp only [Option.some.injEq, Slot.mk.injEq, and_true]
    constructor
    · intro hg
      exact congrArg₂ Entity.mk hx hg.symm
    · intro heq
      subst heq
      rfl
  · rw [if_neg hx]
    constructor
    · exact Or.inr
    · intro hor
      obtain rfl | hs := hor
      · exact absurd rfl hx
      · exact hs

theorem size_le_size_allocate (a : Allocator) : a.slots.size ≤ a.allocate.2.slots.size := by
  unfold allocate
  cases a.free with
  | nil => simp
  | cons k rest => cases hs : a.slot? k <;> simp [hs]

theorem countP_setIfInBounds {s t : Slot} (h : a.slot? i = some s) :
    (a.slots.setIfInBounds i.toNat t).countP Slot.alive + s.alive.toNat =
      a.slots.countP Slot.alive + t.alive.toNat := by
  obtain ⟨hi, hs⟩ := Array.getElem?_eq_some_iff.1 h
  have hle : s.alive.toNat ≤ a.slots.countP Slot.alive := by
    cases hb : s.alive with
    | false => exact Nat.zero_le _
    | true =>
      have hm : s ∈ a.slots := hs ▸ Array.getElem_mem hi
      exact Array.countP_pos_iff.2 ⟨s, hm, hb⟩
  have hset : a.slots.setIfInBounds i.toNat t = a.slots.set i.toNat t hi := by
    simp [Array.setIfInBounds, hi]
  have hcount : ∀ b : Bool, (if b = true then 1 else 0) = b.toNat := by decide
  rw [hset, Array.countP_set, hs, hcount, hcount]
  omega

theorem WellFormed.allocate (h : a.WellFormed) (hn : a.HasRoom) : a.allocate.2.WellFormed where
  bounded := by
    unfold Allocator.allocate
    cases hf : a.free with
    | nil =>
      have hlt := hn hf
      simp only [Array.size_push]
      omega
    | cons k rest =>
      have := h.bounded
      cases hs : a.slot? k <;> simp [hs] <;> omega
  mem_free j := by
    have hslot := slot?_allocate h hn j
    rw [hslot]
    unfold Allocator.allocate
    cases hf : a.free with
    | nil =>
      have hempty : j ∉ a.free := by simp [hf]
      rw [h.mem_free] at hempty
      by_cases hj : j = UInt32.ofNat a.slots.size
      · simp [hj]
      · simpa [hj] using hempty
    | cons k rest =>
      obtain ⟨s, hs, -⟩ := (h.mem_free k).1 (hf ▸ List.mem_cons_self)
      have hk : k ∉ rest := (List.nodup_cons.1 (hf ▸ h.nodup_free)).1
      have hmem := h.mem_free j
      rw [hf, List.mem_cons] at hmem
      simp only [hs]
      by_cases hj : j = k
      · simp [hj, hk]
      · simpa [hj] using hmem
  nodup_free := by
    unfold Allocator.allocate
    cases hf : a.free with
    | nil => exact List.nodup_nil
    | cons k rest =>
      have hr := (List.nodup_cons.1 (hf ▸ h.nodup_free)).2
      cases hs : a.slot? k <;> simpa [hs] using hr
  count := by
    unfold Allocator.allocate
    cases hf : a.free with
    | nil => simp [h.count]
    | cons k rest =>
      obtain ⟨s, hs, hdead⟩ := (h.mem_free k).1 (hf ▸ List.mem_cons_self)
      have := countP_setIfInBounds (t := ⟨s.generation, true⟩) hs
      simp only [hs, h.count]
      simpa [hdead] using this.symm

/-! ### Releasing handles -/

theorem slot?_deallocate (h : a.isAlive e = true) (j : UInt32) :
    (a.deallocate e).2.slot? j =
      if j = e.index then some ⟨e.generation + 1, false⟩ else a.slot? j := by
  have hi := index_lt_of_isAlive h
  simp only [deallocate, h, if_true, slot?, Array.getElem?_setIfInBounds]
  by_cases hj : j = e.index
  · simp [hj, hi]
  · have hn : e.index.toNat ≠ j.toNat := fun hh => hj (UInt32.toNat_inj.1 hh).symm
    simp [hn, hj]

theorem isAlive_deallocate (h : a.isAlive e = true) (x : Entity) :
    (a.deallocate e).2.isAlive x = true ↔ a.isAlive x = true ∧ x ≠ e := by
  rw [isAlive_iff, slot?_deallocate h]
  by_cases hx : x.index = e.index
  · rw [if_pos hx]
    constructor
    · intro hs
      simp at hs
    · intro hex
      obtain ⟨hx', hne⟩ := hex
      exact absurd (eq_of_isAlive hx' h hx) hne
  · rw [if_neg hx, ← isAlive_iff]
    constructor
    · intro hs
      exact ⟨hs, fun hh => hx (hh ▸ rfl)⟩
    · exact And.left

theorem size_deallocate (a : Allocator) (e : Entity) :
    (a.deallocate e).2.slots.size = a.slots.size := by
  unfold deallocate
  split <;> simp

theorem aliveCount_deallocate (h : a.WellFormed) (he : a.isAlive e = true) :
    (a.deallocate e).2.aliveCount + 1 = a.aliveCount := by
  have hs := isAlive_iff.1 he
  have hpos : 0 < a.aliveCount := by
    rw [h.count]
    obtain ⟨hi, hs⟩ := Array.getElem?_eq_some_iff.1 hs
    exact Array.countP_pos_iff.2 ⟨_, hs ▸ Array.getElem_mem hi, rfl⟩
  simp only [deallocate, he, if_true]
  omega

theorem WellFormed.deallocate (h : a.WellFormed) (e : Entity) : (a.deallocate e).2.WellFormed := by
  cases he : a.isAlive e with
  | false => rwa [deallocate_of_not_isAlive he]
  | true =>
    have hs := isAlive_iff.1 he
    have hfree : e.index ∉ a.free := by
      rw [h.mem_free, hs]
      intro hex
      obtain ⟨s, hs, hd⟩ := hex
      cases hs
      cases hd
    refine ⟨?_, fun j => ?_, ?_, ?_⟩
    · rw [size_deallocate]
      exact h.bounded
    · rw [slot?_deallocate he]
      have hmem := h.mem_free j
      simp only [Allocator.deallocate, he, if_true, List.mem_cons]
      by_cases hj : j = e.index
      · simp [hj]
      · simpa [hj] using hmem
    · simp only [Allocator.deallocate, he, if_true]
      exact List.nodup_cons.2 ⟨hfree, h.nodup_free⟩
    · have hc := countP_setIfInBounds (t := ⟨e.generation + 1, false⟩) hs
      have hd := aliveCount_deallocate h he
      simp only [Allocator.deallocate, he, if_true] at hd ⊢
      have := h.count
      simp only [Bool.toNat_true, Bool.toNat_false] at hc
      omega

theorem slot?_clear (a : Allocator) (j : UInt32) :
    a.clear.slot? j =
      (a.slot? j).map fun s => if s.alive then ⟨s.generation + 1, false⟩ else s := by
  simp [clear, slot?]

theorem not_isAlive_clear (a : Allocator) (x : Entity) : a.clear.isAlive x = false := by
  rw [Bool.eq_false_iff]
  intro hx
  rw [isAlive_iff, slot?_clear, Option.map_eq_some_iff] at hx
  obtain ⟨s, -, hs⟩ := hx
  cases hb : s.alive with
  | false => simp [hb] at hs; simp [hs] at hb
  | true => simp [hb] at hs

/-! ### The live slots -/

theorem mem_liveIndices (h : a.WellFormed) :
    i ∈ a.liveIndices ↔ ∃ s, a.slot? i = some s ∧ s.alive = true := by
  simp only [liveIndices, List.mem_filterMap, List.mem_range]
  constructor
  · intro hex
    obtain ⟨n, hn, hm⟩ := hex
    have hb := h.bounded
    have hi : (UInt32.ofNat n).toNat = n := by
      rw [UInt32.toNat_ofNat', Nat.mod_eq_of_lt (by omega)]
    cases hs : a.slots[n]? with
    | none => simp [hs] at hm
    | some s =>
      cases hb : s.alive with
      | false => simp [hs, hb] at hm
      | true =>
        simp only [hs, hb, if_true, Option.some.injEq] at hm
        subst hm
        exact ⟨s, by rw [slot?, hi, hs], hb⟩
  · intro hex
    obtain ⟨s, hs, hb⟩ := hex
    refine ⟨i.toNat, index_lt_of_slot? hs, ?_⟩
    have hs' : a.slots[i.toNat]? = some s := hs
    simp [hs', hb, UInt32.ofNat_toNat]

theorem map_toNat_liveIndices (h : a.WellFormed) :
    a.liveIndices.map UInt32.toNat =
      (List.range a.slots.size).filter fun n => (a.slots[n]?.map Slot.alive).getD false := by
  have hb := h.bounded
  rw [liveIndices, List.map_filterMap, ← List.filterMap_eq_filter]
  apply List.filterMap_congr
  intro n hn
  have hlt := List.mem_range.1 hn
  have hi : (UInt32.ofNat n).toNat = n := by
    rw [UInt32.toNat_ofNat', Nat.mod_eq_of_lt (by omega)]
  cases hs : a.slots[n]? with
  | none => simp [Option.guard, hs]
  | some s =>
    cases hb : s.alive with
    | false => simp [hb, hs, Option.guard]
    | true => simp only [hb, if_true, Option.map_some, hi, Option.guard, hs, Option.getD_some]

theorem nodup_liveIndices (h : a.WellFormed) : a.liveIndices.Nodup := by
  apply List.Nodup.of_map UInt32.toNat
  rw [map_toNat_liveIndices h]
  exact List.nodup_range.filter _

theorem length_liveIndices (h : a.WellFormed) : a.liveIndices.length = a.aliveCount := by
  have hl := congrArg List.length (map_toNat_liveIndices h)
  have hslots : a.slots.toList.map some =
      (List.range a.slots.size).map fun n => a.slots[n]? := by
    apply List.ext_getElem
    · simp
    · intro n h1 h2
      simp at h1
      simp [h1]
  have hcount := congrArg (List.countP fun s => (s.map Slot.alive).getD false) hslots
  rw [List.countP_map, List.countP_map] at hcount
  rw [List.length_map] at hl
  rw [hl, h.count, ← List.countP_eq_length_filter, ← Array.countP_toList]
  exact hcount.symm

theorem map_index_live (h : a.WellFormed) : a.live.map Entity.index = a.liveIndices := by
  have hself : ∀ i ∈ a.liveIndices, (a.resolve i).map Entity.index = some i := by
    intro i hi
    obtain ⟨s, hs, hb⟩ := (mem_liveIndices h).1 hi
    simp [resolve, hs, hb]
  rw [live, List.map_filterMap, List.filterMap_congr hself, List.filterMap_some]

theorem mem_live (h : a.WellFormed) : e ∈ a.live ↔ a.isAlive e = true := by
  rw [live, List.mem_filterMap]
  constructor
  · intro hex
    obtain ⟨i, -, hi⟩ := hex
    exact resolve_isAlive hi
  · intro he
    have hs := isAlive_iff.1 he
    exact ⟨e.index, (mem_liveIndices h).2 ⟨_, hs, rfl⟩, resolve_eq_some_iff.2 ⟨rfl, he⟩⟩

theorem nodup_live (h : a.WellFormed) : a.live.Nodup := by
  apply List.Nodup.of_map Entity.index
  rw [map_index_live h]
  exact nodup_liveIndices h

theorem length_live (h : a.WellFormed) : a.live.length = a.aliveCount := by
  rw [← length_liveIndices h, ← map_index_live h, List.length_map]

theorem WellFormed.clear (h : a.WellFormed) : a.clear.WellFormed where
  bounded := by
    simp only [Allocator.clear, Array.size_map]
    exact h.bounded
  mem_free j := by
    rw [slot?_clear]
    simp only [Allocator.clear, List.mem_append, List.mem_reverse, mem_liveIndices h, h.mem_free]
    cases a.slot? j with
    | none => simp
    | some s => cases hb : s.alive <;> simp [hb]
  nodup_free := by
    simp only [Allocator.clear]
    refine List.Nodup.append (List.nodup_reverse.2 (nodup_liveIndices h)) h.nodup_free ?_
    intro j hlive hfree
    obtain ⟨s, hs, hb⟩ := (mem_liveIndices h).1 (List.mem_reverse.1 hlive)
    obtain ⟨t, ht, hd⟩ := (h.mem_free j).1 hfree
    rw [hs] at ht
    cases ht
    rw [hb] at hd
    cases hd
  count := by
    simp only [Allocator.clear, Array.countP_map]
    symm
    rw [Array.countP_eq_zero]
    intro s _
    cases hb : s.alive <;> simp [hb]

theorem WellFormed.empty : Allocator.empty.WellFormed := by
  refine ⟨?_, fun i => ?_, List.nodup_nil, ?_⟩
  · simp [Allocator.empty]
  · simp [Allocator.empty, slot?]
  · simp [Allocator.empty]

end EntityWorld.Allocator
