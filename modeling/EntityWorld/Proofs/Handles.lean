import EntityWorld.Proofs.Allocator
import Mathlib.Data.List.Induction
import Mathlib.Data.Set.Card
set_option autoImplicit false

/-!
The life of a handle. Along a run of an allocator the generation of a slot counts how often the slot
was released. So as long as no slot was released so often that its generation has come round, every
handle is issued once, and is dead for good when it was released.
-/
namespace EntityWorld.Allocator

inductive Act where
  | allocate
  | deallocate (e : Entity)
  | clear
  deriving DecidableEq, Repr

def act (a : Allocator) : Act → Allocator
  | .allocate => a.allocate.2
  | .deallocate e => (a.deallocate e).2
  | .clear => a.clear

def run (a : Allocator) (acts : List Act) : Allocator := acts.foldl act a

def issues (a : Allocator) : Act → List Entity
  | .allocate => [a.allocate.1]
  | _ => []

def issued (a : Allocator) : List Act → List Entity
  | [] => []
  | x :: rest => a.issues x ++ (a.act x).issued rest

def frees (a : Allocator) (i : UInt32) : Act → Bool
  | .allocate => false
  | .deallocate e => a.isAlive e && e.index == i
  | .clear => (a.resolve i).isSome

def releases (a : Allocator) (i : UInt32) : List Act → Nat
  | [] => 0
  | x :: rest => (a.frees i x).toNat + (a.act x).releases i rest

variable {a : Allocator} {e : Entity} {acts before after : List Act}

theorem run_append (a : Allocator) (before after : List Act) :
    a.run (before ++ after) = (a.run before).run after := List.foldl_append

theorem run_concat (a : Allocator) (acts : List Act) (x : Act) :
    a.run (acts ++ [x]) = (a.run acts).act x := List.foldl_concat ..

theorem issued_append (a : Allocator) (before after : List Act) :
    a.issued (before ++ after) = a.issued before ++ (a.run before).issued after := by
  induction before generalizing a with
  | nil => rfl
  | cons x rest ih =>
    rw [List.cons_append, issued, issued, ih, List.append_assoc]
    rfl

theorem releases_append (a : Allocator) (i : UInt32) (before after : List Act) :
    a.releases i (before ++ after) = a.releases i before + (a.run before).releases i after := by
  induction before generalizing a with
  | nil => simp [releases, run]
  | cons x rest ih =>
    rw [List.cons_append, releases, releases, ih, Nat.add_assoc]
    rfl

theorem releases_le_length (a : Allocator) (i : UInt32) (acts : List Act) :
    a.releases i acts ≤ acts.length := by
  induction acts generalizing a with
  | nil => simp [releases]
  | cons x rest ih =>
    have hx := Bool.toNat_le (a.frees i x)
    have hrest := ih (a.act x)
    simp only [releases, List.length_cons]
    omega

theorem size_le_size_act (a : Allocator) (x : Act) : a.slots.size ≤ (a.act x).slots.size := by
  cases x with
  | allocate => exact a.size_le_size_allocate
  | deallocate e => exact Nat.le_of_eq (a.size_deallocate e).symm
  | clear => simp [act, clear]

theorem size_le_size_run (a : Allocator) (acts : List Act) :
    a.slots.size ≤ (a.run acts).slots.size := by
  induction acts generalizing a with
  | nil => exact Nat.le_refl _
  | cons x rest ih => exact Nat.le_trans (a.size_le_size_act x) (ih (a.act x))

/-- The run stays below the number of indices, and no slot is released so often that its generation
comes round. -/
structure Lasts (a : Allocator) (acts : List Act) : Prop where
  slots : (a.run acts).slots.size < 2 ^ 32
  releases : ∀ i, a.releases i acts < 2 ^ 32

theorem Lasts.start (h : a.Lasts (before ++ after)) : a.Lasts before := by
  constructor
  · have hslots := h.slots
    rw [run_append] at hslots
    exact Nat.lt_of_le_of_lt (size_le_size_run _ after) hslots
  · intro i
    have hreleases := h.releases i
    rw [releases_append] at hreleases
    omega

theorem hasRoom_of_allocate (h : a.allocate.2.slots.size < 2 ^ 32) : a.HasRoom := by
  intro hf
  simp only [allocate, hf, Array.size_push] at h
  omega

/-! ### What the past tells -/

structure Past (a : Allocator) (past : List Entity) (count : UInt32 → Nat) : Prop where
  wellFormed : a.WellFormed
  counted : ∀ i, count i = ((a.slot? i).map fun s => s.generation.toNat).getD 0
  nodup : past.Nodup
  live : ∀ e, a.isAlive e = true → e ∈ past
  ended : ∀ e ∈ past, a.isAlive e = true ∨ e.generation.toNat < count e.index

namespace Past

variable {past : List Entity} {count : UInt32 → Nat}

theorem start : empty.Past [] fun _ => 0 :=
  ⟨.empty, fun _ => rfl, List.nodup_nil, fun e he => by simp [isAlive, slot?, empty] at he, nofun⟩

theorem count_of_isAlive (h : a.Past past count) (he : a.isAlive e = true) :
    count e.index = e.generation.toNat := by
  rw [h.counted, isAlive_iff.1 he]
  rfl

theorem count_allocate (h : a.Past past count) (hn : a.HasRoom) :
    count a.allocate.1.index = a.allocate.1.generation.toNat := by
  rw [h.counted]
  obtain ⟨hs, hg⟩ | hs := slot?_allocate_fst h.wellFormed hn
  · rw [hs, hg]
    rfl
  · rw [hs]
    rfl

theorem allocate_not_mem (h : a.Past past count) (hn : a.HasRoom) : a.allocate.1 ∉ past := by
  intro hmem
  obtain halive | hlt := h.ended _ hmem
  · rw [isAlive_allocate_fst h.wellFormed hn] at halive
    cases halive
  · rw [h.count_allocate hn] at hlt
    omega

theorem allocate (h : a.Past past count) (hn : a.HasRoom) :
    a.allocate.2.Past (past ++ [a.allocate.1]) count := by
  have hfresh := h.allocate_not_mem hn
  refine ⟨h.wellFormed.allocate hn, fun i => ?_, ?_, fun e he => ?_, fun e he => ?_⟩
  · rw [slot?_allocate h.wellFormed hn]
    split
    · next hi =>
      rw [hi, h.count_allocate hn]
      rfl
    · exact h.counted i
  · exact List.nodup_append.2 ⟨h.nodup, List.nodup_singleton _, fun x hx y hy hxy =>
      hfresh (List.mem_singleton.1 hy ▸ hxy ▸ hx)⟩
  · obtain rfl | he := (isAlive_allocate h.wellFormed hn e).1 he
    · simp
    · exact List.mem_append_left _ (h.live e he)
  · rw [isAlive_allocate h.wellFormed hn]
    obtain he | he := List.mem_append.1 he
    · obtain halive | hlt := h.ended e he
      · exact .inl (.inr halive)
      · exact .inr hlt
    · exact .inl (.inl (List.mem_singleton.1 he))

theorem deallocate (h : a.Past past count) (he : a.isAlive e = true)
    (hc : e.generation.toNat + 1 < 2 ^ 32) :
    (a.deallocate e).2.Past past fun i => count i + (e.index == i).toNat := by
  have hcount := h.count_of_isAlive he
  have hnext : (e.generation + 1).toNat = e.generation.toNat + 1 := by
    rw [UInt32.toNat_add]
    exact Nat.mod_eq_of_lt hc
  refine ⟨h.wellFormed.deallocate e, fun i => ?_, h.nodup, fun x hx => ?_, fun x hx => ?_⟩
  · rw [slot?_deallocate he]
    by_cases hi : i = e.index
    · simp [hi, hcount, hnext]
    · simp [hi, Ne.symm hi, h.counted i]
  · exact h.live x ((isAlive_deallocate he x).1 hx).1
  · rw [isAlive_deallocate he]
    by_cases hxe : x = e
    · subst hxe
      right
      simp [hcount]
    · obtain halive | hlt := h.ended x hx
      · exact .inl ⟨halive, hxe⟩
      · exact .inr (by omega)

theorem clear (h : a.Past past count)
    (hc : ∀ e, a.isAlive e = true → e.generation.toNat + 1 < 2 ^ 32) :
    a.clear.Past past fun i => count i + (a.resolve i).isSome.toNat := by
  refine ⟨h.wellFormed.clear, fun i => ?_, h.nodup, fun x hx => ?_, fun x hx => ?_⟩
  · rw [slot?_clear, h.counted]
    cases hs : a.slot? i with
    | none => simp [resolve, hs]
    | some s =>
      obtain ⟨g, alive⟩ := s
      cases alive with
      | false => simp [resolve, hs]
      | true =>
        have hlt := hc ⟨i, g⟩ (isAlive_iff.2 hs)
        have hnext : (g + 1).toNat = g.toNat + 1 := by
          rw [UInt32.toNat_add]
          exact Nat.mod_eq_of_lt hlt
        simp [resolve, hs, hnext]
  · rw [not_isAlive_clear] at hx
    cases hx
  · right
    obtain halive | hlt := h.ended x hx
    · have hresolve := resolve_eq_some_iff.2 ⟨rfl, halive⟩
      simp [hresolve, h.count_of_isAlive halive]
    · omega

theorem act (h : a.Past past count) (x : Act) (hsize : (a.act x).slots.size < 2 ^ 32)
    (hc : ∀ i, count i + (a.frees i x).toNat < 2 ^ 32) :
    (a.act x).Past (past ++ a.issues x) fun i => count i + (a.frees i x).toNat := by
  cases x with
  | allocate => exact h.allocate (hasRoom_of_allocate hsize)
  | deallocate e =>
    cases he : a.isAlive e with
    | false => simpa [Allocator.act, issues, frees, he, deallocate_of_not_isAlive he] using h
    | true =>
      have hlt := hc e.index
      simp only [frees, he, h.count_of_isAlive he, beq_self_eq_true, Bool.and_true,
        Bool.toNat_true] at hlt
      simpa [Allocator.act, issues, frees, he] using h.deallocate he hlt
  | clear =>
    have hlt : ∀ e, a.isAlive e = true → e.generation.toNat + 1 < 2 ^ 32 := by
      intro e he
      have hlt := hc e.index
      rwa [frees, resolve_eq_some_iff.2 ⟨rfl, he⟩, h.count_of_isAlive he] at hlt
    simpa [Allocator.act, issues, frees] using h.clear hlt

theorem run (h : empty.Lasts acts) :
    (empty.run acts).Past (empty.issued acts) fun i => empty.releases i acts := by
  induction acts using List.reverseRecOn with
  | nil => exact start
  | append_singleton acts x ih =>
    have hslots := h.slots
    rw [run_concat] at hslots
    have hstep := (ih h.start).act x hslots fun i => by
      have hreleases := h.releases i
      rwa [releases_append, releases, releases, Nat.add_zero] at hreleases
    simpa [run_concat, issued_append, issued, releases_append, releases] using hstep

end Past

/-! ### The life of a handle -/

theorem WellFormed.ncard_alive (h : a.WellFormed) :
    {e | a.isAlive e = true}.ncard = a.aliveCount := by
  have hset : {e | a.isAlive e = true} = ↑a.live.toFinset := by
    ext e
    simp [mem_live h]
  rw [hset, Set.ncard_coe_finset, List.toFinset_card_of_nodup (nodup_live h), length_live h]

theorem WellFormed.mem_free_iff (h : a.WellFormed) (i : UInt32) :
    i ∈ a.free ↔ i.toNat < a.slots.size ∧ a.resolve i = none := by
  rw [h.mem_free]
  constructor
  · intro hex
    obtain ⟨s, hs, hd⟩ := hex
    exact ⟨index_lt_of_slot? hs, by simp [resolve, hs, hd]⟩
  · intro hlt
    obtain ⟨hlt, hr⟩ := hlt
    have hs : a.slot? i = some a.slots[i.toNat] := Array.getElem?_eq_getElem hlt
    cases hd : a.slots[i.toNat].alive with
    | false => exact ⟨_, hs, hd⟩
    | true => simp [resolve, hs, hd] at hr

theorem Lasts.dead_before {start : List Act} (h : empty.Lasts (before ++ .allocate :: after))
    (hstart : start <+: before) :
    (empty.run start).isAlive (empty.run before).allocate.1 = false := by
  obtain ⟨rest, rfl⟩ := hstart
  have hissue : empty.Lasts (start ++ rest ++ [.allocate]) := by
    rw [List.append_cons] at h
    exact h.start
  have hslots := hissue.slots
  rw [run_concat] at hslots
  have hnew := (Past.run hissue.start).allocate_not_mem (hasRoom_of_allocate hslots)
  rw [Bool.eq_false_iff]
  intro he
  apply hnew
  rw [issued_append]
  exact List.mem_append_left _ ((Past.run hissue.start.start).live _ he)

theorem Lasts.isAlive_after (h : empty.Lasts (before ++ .allocate :: after)) :
    (empty.run (before ++ .allocate :: after)).isAlive (empty.run before).allocate.1 = true ↔
      .clear ∉ after ∧ .deallocate (empty.run before).allocate.1 ∉ after := by
  induction after using List.reverseRecOn with
  | nil =>
    have hpast := Past.run h.start
    have hslots := h.slots
    rw [run_concat] at hslots ⊢
    simp [act, isAlive_allocate hpast.wellFormed (hasRoom_of_allocate hslots)]
  | append_singleton after x ih =>
    rw [← List.cons_append, ← List.append_assoc] at h ⊢
    have hpast := Past.run h.start
    have hslots := h.slots
    have hmem : (empty.run before).allocate.1 ∈ empty.issued (before ++ .allocate :: after) := by
      simp [issued_append, issued, issues]
    rw [run_concat] at hslots ⊢
    replace ih := ih h.start
    generalize (empty.run before).allocate.1 = e at ih hmem ⊢
    generalize empty.run (before ++ .allocate :: after) = a at ih hpast hslots ⊢
    cases x with
    | allocate =>
      have hroom := hasRoom_of_allocate hslots
      have hne : e ≠ a.allocate.1 := fun he => hpast.allocate_not_mem hroom (he ▸ hmem)
      simpa [act, isAlive_allocate hpast.wellFormed hroom, hne] using ih
    | deallocate x =>
      cases hx : a.isAlive x with
      | true =>
        simp only [act, isAlive_deallocate hx, ih, List.mem_append, List.mem_singleton,
          Act.deallocate.injEq, reduceCtorEq, or_false, not_or, and_assoc]
      | false =>
        rw [act, deallocate_of_not_isAlive hx, ih]
        simp only [List.mem_append, List.mem_singleton, Act.deallocate.injEq, reduceCtorEq,
          or_false]
        constructor
        · intro hkept
          refine ⟨hkept.1, not_or.2 ⟨hkept.2, fun hxe => ?_⟩⟩
          rw [← hxe, ih.2 (hxe ▸ hkept)] at hx
          cases hx
        · intro hkept
          exact ⟨hkept.1, fun hmem => hkept.2 (.inl hmem)⟩
    | clear => simp [act, not_isAlive_clear]

/-- What the handles mean at the end of a run that begins with no slots. -/
structure Unambiguous (acts : List Act) : Prop where
  nodup : (empty.issued acts).Nodup
  issued : ∀ e, (empty.run acts).isAlive e = true → e ∈ empty.issued acts
  lives : ∀ before after, acts = before ++ .allocate :: after →
    (∀ start, start <+: before →
        (empty.run start).isAlive (empty.run before).allocate.1 = false) ∧
      ((empty.run acts).isAlive (empty.run before).allocate.1 = true ↔
        .clear ∉ after ∧ .deallocate (empty.run before).allocate.1 ∉ after)
  deallocate : ∀ e, ((empty.run acts).deallocate e).1 = (empty.run acts).isAlive e ∧
    ((empty.run acts).isAlive e = false → ((empty.run acts).deallocate e).2 = empty.run acts)
  resolve : ∀ i e, (empty.run acts).resolve i = some e ↔
    (empty.run acts).isAlive e = true ∧ e.index = i ∧
      ∀ x, (empty.run acts).isAlive x = true → x.index = i → x = e
  unresolved : ∀ i, (empty.run acts).resolve i = none ↔
    ∀ e, (empty.run acts).isAlive e = true → e.index ≠ i
  aliveCount : (empty.run acts).aliveCount = {e | (empty.run acts).isAlive e = true}.ncard
  free : (empty.run acts).free.Nodup ∧ ∀ i, i ∈ (empty.run acts).free ↔
    i.toNat < (empty.run acts).slots.size ∧ (empty.run acts).resolve i = none

theorem Lasts.unambiguous (h : empty.Lasts acts) : Unambiguous acts := by
  have hpast := Past.run h
  refine ⟨hpast.nodup, hpast.live, ?_, ?_, ?_, ?_, ?_, ?_⟩
  · intro before after hacts
    subst hacts
    exact ⟨fun start hstart => h.dead_before hstart, h.isAlive_after⟩
  · intro e
    cases he : (empty.run acts).isAlive e <;> simp [Allocator.deallocate, he]
  · intro i e
    rw [resolve_eq_some_iff]
    constructor
    · intro hie
      obtain ⟨rfl, he⟩ := hie
      exact ⟨he, rfl, fun x hx hi => eq_of_isAlive hx he hi⟩
    · intro hex
      obtain ⟨he, hi, -⟩ := hex
      exact ⟨hi, he⟩
  · intro i
    rw [Option.eq_none_iff_forall_ne_some]
    constructor
    · intro hn e he hi
      exact hn e (resolve_eq_some_iff.2 ⟨hi, he⟩)
    · intro hn e he
      obtain ⟨hi, he⟩ := resolve_eq_some_iff.1 he
      exact hn e he hi
  · exact hpast.wellFormed.ncard_alive.symm
  · exact ⟨hpast.wellFormed.nodup_free, hpast.wellFormed.mem_free_iff⟩

/-- A slot is released twice, once by its handle and once with all others, and given away again. -/
def recycling : List Act :=
  [.allocate, .allocate, .deallocate ⟨0, 0⟩, .deallocate ⟨0, 0⟩, .allocate, .clear, .allocate]

theorem unambiguous_recycling :
    empty.Lasts recycling ∧ empty.issued recycling = [⟨0, 0⟩, ⟨1, 0⟩, ⟨0, 1⟩, ⟨1, 1⟩] ∧
      (empty.run recycling).live = [⟨1, 1⟩] ∧ Unambiguous recycling := by
  have hlasts : empty.Lasts recycling := by
    refine ⟨by decide +kernel, fun i => ?_⟩
    have hle := releases_le_length empty i recycling
    have hlength : recycling.length < 2 ^ 32 := by decide
    omega
  exact ⟨hlasts, by decide +kernel, by decide +kernel, hlasts.unambiguous⟩

end EntityWorld.Allocator
