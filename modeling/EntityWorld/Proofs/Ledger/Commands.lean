import EntityWorld.Proofs.Ledger.World
import EntityWorld.Proofs.World.Calls
import Mathlib.Data.Multiset.OrderedMonoid
set_option autoImplicit false

/-!
Accounts of commands. A buffer owns the values that it will insert. Applying it stores or destroys
each of them, and it takes from the host just what they count as if and only if every value that is
stored gets into a column of its own type.
-/
namespace EntityWorld

open Goods

def Command.value? : Command → Option ComponentValue
  | .insert _ v => some v
  | _ => none

def CommandBuffer.values (b : CommandBuffer) : List ComponentValue :=
  b.commands.filterMap Command.value?

namespace World

variable {w : World}

theorem applyCommand_neutral (w : World) (buffer : UInt32) (spawned : List Entity) {c : Command}
    (hc : c.value? = none) : w.Neutral (w.applyCommand buffer spawned c).2 := by
  have hsame := along_neutral.refl w
  cases c with
  | spawn => exact along_neutral.spawn w
  | despawn target =>
    unfold applyCommand
    simp only
    split
    · exact hsame
    · exact along_neutral.despawn w _
  | insert target value => cases hc
  | add target id =>
    unfold applyCommand
    simp only
    split
    · exact hsame
    · exact along_neutral.add w _ id
  | remove target id =>
    unfold applyCommand
    simp only
    split
    · exact hsame
    · exact along_neutral.remove w _ id
  | addPair target relation object =>
    unfold applyCommand
    simp only
    split
    · exact hsame
    · exact hsame
    · exact along_neutral.addPair w _ relation _
  | removePair target relation object =>
    unfold applyCommand
    simp only
    split
    · exact hsame
    · exact hsame
    · exact along_neutral.remove w _ _

/-- What a command lets the world take. -/
def taking (w : World) (buffer : UInt32) (spawned : List Entity) (c : Command) : Goods :=
  c.value?.elim 0 fun v => w.lodged v (w.applyCommand buffer spawned c).1

def takingAll (buffer : UInt32) : World → CommandReport → List Command → Goods
  | _, _, [] => 0
  | w, report, c :: rest =>
    let (r, u) := w.applyCommand buffer report.spawned c
    w.taking buffer report.spawned c + takingAll buffer u (report.after r) rest

theorem applyCommand_insert {buffer : UInt32} {spawned : List Entity} {t : Target} {e : Entity}
    {v : ComponentValue} (ht : t.resolve buffer spawned = .ok e) :
    w.applyCommand buffer spawned (.insert t v) =
      ((w.writeValue e v).1.map fun _ => none, (w.writeValue e v).2) := by
  simp only [applyCommand, ht]

theorem applyCommand_insert_error {buffer : UInt32} {spawned : List Entity} {t : Target}
    {err : EcsError} {v : ComponentValue} (ht : t.resolve buffer spawned = .error err) :
    w.applyCommand buffer spawned (.insert t v) = (.error err, w.note v.dropEvents) := by
  simp only [applyCommand, ht]

theorem WellFormed.insert_books (h : w.WellFormed) (hf : w.Fits) (buffer : UInt32)
    (spawned : List Entity) (t : Target) (v : ComponentValue) :
    w.Books (w.applyCommand buffer spawned (.insert t v)).2
        (w.lodged v (w.applyCommand buffer spawned (.insert t v)).1) 0 ∧
      (w.applyCommand buffer spawned (.insert t v)).2.registry = w.registry := by
  cases ht : t.resolve buffer spawned with
  | error err =>
    rw [applyCommand_insert_error ht]
    refine ⟨.note ?_, rfl⟩
    rw [add_zero]
    exact v.dropEvents_takes w.goods
  | ok e =>
    rw [applyCommand_insert ht, lodged_map]
    exact ⟨h.writeValue_books hf e v, (h.writeValue hf e v).becomes.registry⟩

theorem WellFormed.applyCommand_books (h : w.WellFormed) (buffer : UInt32) (spawned : List Entity)
    (c : Command) (hf : (w.applyCommand buffer spawned c).2.Fits) :
    w.Books (w.applyCommand buffer spawned c).2 (w.taking buffer spawned c) 0 ∧
      (w.applyCommand buffer spawned c).2.registry = w.registry := by
  cases hc : c.value? with
  | none =>
    have hneutral := applyCommand_neutral w buffer spawned hc
    rw [taking, hc]
    exact ⟨hneutral.books h hf, hneutral.registry h hf⟩
  | some v =>
    cases c with
    | insert t _ =>
      cases hc
      have hleads := throughout_leads.applyCommand w buffer spawned (.insert t v)
      exact h.insert_books (hleads.grows.fits hf) buffer spawned t v
    | _ => cases hc

theorem WellFormed.applyAll_books (buffer : UInt32) (commands : List Command) (h : w.WellFormed)
    (report : CommandReport) (hf : (applyAll buffer w report commands).2.Fits) :
    w.Books (applyAll buffer w report commands).2 (takingAll buffer w report commands) 0 := by
  induction commands generalizing w report with
  | nil => exact .refl w
  | cons c rest ih =>
    rw [applyAll_cons] at hf ⊢
    have hleads := throughout_leads.applyCommand w buffer report.spawned c
    have hfc := (throughout_leads.applyAll buffer rest _ _).grows.fits hf
    obtain ⟨hbooks, -⟩ := h.applyCommand_books buffer report.spawned c hfc
    have hall := hbooks.trans (ih (hleads.keeps h hfc) _ hf)
    rwa [add_zero] at hall

/-! ### Values that are stored as what they are -/

def HonestCommand (w : World) (buffer : UInt32) (spawned : List Entity) (c : Command) : Prop :=
  ∀ v a, c.value? = some v → (w.applyCommand buffer spawned c).1 = .ok a → w.Suits v

def HonestAll (buffer : UInt32) : World → CommandReport → List Command → Prop
  | _, _, [] => True
  | w, report, c :: rest =>
    let (r, u) := w.applyCommand buffer report.spawned c
    w.HonestCommand buffer report.spawned c ∧ HonestAll buffer u (report.after r) rest

theorem exists_descriptor?_of_insert {buffer : UInt32} {spawned : List Entity} {t : Target}
    {a : Option Entity} {v : ComponentValue}
    (hok : (w.applyCommand buffer spawned (.insert t v)).1 = .ok a) :
    ∃ d, w.descriptor? v.handle = some d := by
  cases ht : t.resolve buffer spawned with
  | error err =>
    rw [applyCommand_insert_error ht] at hok
    cases hok
  | ok e =>
    rw [applyCommand_insert ht] at hok
    cases hwrite : (w.writeValue e v).1 with
    | error err =>
      rw [hwrite] at hok
      cases hok
    | ok _ => exact exists_descriptor?_of_writeValue hwrite

theorem taking_eq_iff (buffer : UInt32) (spawned : List Entity) (c : Command) :
    w.taking buffer spawned c = c.value?.elim 0 ComponentValue.goods ↔
      w.HonestCommand buffer spawned c := by
  cases hc : c.value? with
  | none =>
    rw [taking, hc]
    exact iff_of_true rfl fun v a hv => by cases hc.symm.trans hv
  | some v =>
    cases c with
    | insert t _ =>
      cases hc
      rw [taking]
      refine (lodged_eq_goods_iff fun _ => exists_descriptor?_of_insert).trans ⟨?_, ?_⟩
      · intro hsuits v' a hv' hok
        cases hv'
        exact hsuits a hok
      · exact fun hhonest a hok => hhonest v a rfl hok
    | _ => cases hc

theorem WellFormed.honestAll (buffer : UInt32) (commands : List Command) (h : w.WellFormed)
    (report : CommandReport) (hf : (applyAll buffer w report commands).2.Fits)
    (hall : ∀ v ∈ commands.filterMap Command.value?, w.Registered v) :
    HonestAll buffer w report commands := by
  induction commands generalizing w report with
  | nil => trivial
  | cons c rest ih =>
    rw [applyAll_cons] at hf
    have hleads := throughout_leads.applyCommand w buffer report.spawned c
    have hfc := (throughout_leads.applyAll buffer rest _ _).grows.fits hf
    have hregistry := (h.applyCommand_books buffer report.spawned c hfc).2
    refine ⟨fun v a hv _ => (hall v ?_).suits, ih (hleads.keeps h hfc) _ hf fun v hv => ?_⟩
    · exact List.mem_filterMap.2 ⟨c, List.mem_cons_self, hv⟩
    · obtain ⟨c', hc', hv'⟩ := List.mem_filterMap.1 hv
      rw [Registered, descriptor?, hregistry]
      exact hall v (List.mem_filterMap.2 ⟨c', List.mem_cons_of_mem c hc', hv'⟩)

/-- `booked` is `owed`, except that some items of types of the registry stand for some items of
other types. -/
def Strays (r : Registry) (owed booked : Goods) : Prop :=
  ∃ kept lost gained, owed = kept + lost ∧ booked = kept + gained ∧
    (∀ i ∈ lost, r.descriptor? i.1.handle ≠ some i.1) ∧
    ∀ i ∈ gained, r.descriptor? i.1.handle = some i.1

namespace Strays

variable {r : Registry} {owed owed' booked booked' : Goods}

theorem refl (r : Registry) (g : Goods) : Strays r g g :=
  ⟨g, 0, 0, (add_zero g).symm, (add_zero g).symm, fun i hi => absurd hi (Multiset.notMem_zero i),
    fun i hi => absurd hi (Multiset.notMem_zero i)⟩

theorem add (h : Strays r owed booked) (h' : Strays r owed' booked') :
    Strays r (owed + owed') (booked + booked') := by
  obtain ⟨kept, lost, gained, rfl, rfl, hlost, hgained⟩ := h
  obtain ⟨kept', lost', gained', rfl, rfl, hlost', hgained'⟩ := h'
  refine ⟨kept + kept', lost + lost', gained + gained', by abel, by abel, fun i hi => ?_,
    fun i hi => ?_⟩
  · exact (Multiset.mem_add.1 hi).elim (hlost i) (hlost' i)
  · exact (Multiset.mem_add.1 hi).elim (hgained i) (hgained' i)

/-- Strays never make up for each other: what is lost and what is gained are of different types. -/
theorem split (h : Strays r owed booked) (h' : Strays r owed' booked')
    (heq : booked + booked' = owed + owed') : booked = owed ∧ booked' = owed' := by
  obtain ⟨kept, lost, gained, rfl, rfl, hlost, hgained⟩ := h
  obtain ⟨kept', lost', gained', rfl, rfl, hlost', hgained'⟩ := h'
  have hsame : gained + gained' = lost + lost' := by
    refine add_left_cancel (a := kept + kept') ?_
    calc kept + kept' + (gained + gained') = kept + gained + (kept' + gained') := by abel
      _ = kept + lost + (kept' + lost') := heq
      _ = kept + kept' + (lost + lost') := by abel
  have hnone : gained + gained' = 0 := by
    refine Multiset.eq_zero_of_forall_notMem fun i hi => ?_
    have hnow := (Multiset.mem_add.1 hi).elim (hgained i) (hgained' i)
    rw [hsame] at hi
    exact (Multiset.mem_add.1 hi).elim (hlost i) (hlost' i) hnow
  obtain ⟨rfl, rfl⟩ := add_eq_zero.1 hnone
  obtain ⟨rfl, rfl⟩ := add_eq_zero.1 (hsame.symm.trans hnone)
  exact ⟨rfl, rfl⟩

end Strays

theorem WellFormed.lodged_strays {α : Type} (h : w.WellFormed) (v : ComponentValue)
    (r : Except EcsError α) (htype : ∀ a, r = .ok a → ∃ d, w.descriptor? v.handle = some d) :
    Strays w.registry v.goods (w.lodged v r) := by
  cases r with
  | error err => exact .refl _ _
  | ok a =>
    obtain ⟨d, hd⟩ := htype a rfl
    have hhandle : d.handle = v.handle := h.registry.numbered _ d hd
    rw [lodged, ← itemOf_eq v.value hd]
    by_cases hsame : d = v.type
    · rw [hsame]
      exact .refl _ _
    · refine ⟨0, _, _, (zero_add _).symm, (zero_add _).symm, fun i hi hnow => ?_, fun i hi => ?_⟩
      · rw [TypeDescriptor.mem_item hi] at hnow
        exact hsame (Option.some.inj (hd.symm.trans hnow))
      · rw [TypeDescriptor.mem_item hi, hhandle]
        exact hd

theorem WellFormed.taking_strays (h : w.WellFormed) (buffer : UInt32) (spawned : List Entity)
    (c : Command) :
    Strays w.registry (c.value?.elim 0 ComponentValue.goods) (w.taking buffer spawned c) := by
  cases hc : c.value? with
  | none =>
    rw [taking, hc]
    exact .refl _ 0
  | some v =>
    cases c with
    | insert t _ =>
      cases hc
      exact h.lodged_strays v _ fun _ => exists_descriptor?_of_insert
    | _ => cases hc

theorem ofOwned_values_cons (c : Command) (rest : List Command) :
    ofOwned ((c :: rest).filterMap Command.value? : List ComponentValue) =
      c.value?.elim 0 ComponentValue.goods +
        ofOwned (rest.filterMap Command.value? : List ComponentValue) := by
  cases hc : c.value? <;> simp [hc, ofOwned]

/-- The commands of a buffer take what they hold if and only if each of them is honest. -/
theorem WellFormed.takingAll_eq_iff (buffer : UInt32) (commands : List Command) (h : w.WellFormed)
    (report : CommandReport) (hf : (applyAll buffer w report commands).2.Fits) :
    Strays w.registry (ofOwned (commands.filterMap Command.value? : List ComponentValue))
        (takingAll buffer w report commands) ∧
      (takingAll buffer w report commands =
        ofOwned (commands.filterMap Command.value? : List ComponentValue) ↔
          HonestAll buffer w report commands) := by
  induction commands generalizing w report with
  | nil => exact ⟨.refl _ 0, iff_of_true rfl trivial⟩
  | cons c rest ih =>
    rw [applyAll_cons] at hf
    have hleads := throughout_leads.applyCommand w buffer report.spawned c
    have hfc := (throughout_leads.applyAll buffer rest _ _).grows.fits hf
    have hregistry := (h.applyCommand_books buffer report.spawned c hfc).2
    have hfirst := h.taking_strays buffer report.spawned c
    obtain ⟨hlater, hiff⟩ := ih (hleads.keeps h hfc) _ hf
    rw [hregistry] at hlater
    rw [ofOwned_values_cons]
    refine ⟨hfirst.add hlater, fun heq => ?_, fun hhonest => ?_⟩
    · obtain ⟨hc, hrest⟩ := hfirst.split hlater heq
      exact ⟨(taking_eq_iff buffer report.spawned c).1 hc, hiff.1 hrest⟩
    · obtain ⟨hc, hrest⟩ := hhonest
      exact congrArg₂ (· + ·) ((taking_eq_iff buffer report.spawned c).2 hc) (hiff.2 hrest)

end World
end EntityWorld
