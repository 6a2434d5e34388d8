import EntityWorld.Proofs.Ledger.Operations
set_option autoImplicit false

/-!
The types under which owned values are stored. A value finds its column by its handle alone, so it
gets into a column of its own layout if and only if its handle still means a type of that layout.
-/
namespace EntityWorld

/-- The type `d` has the layout that `v` was built for, and the host type where both know it. -/
structure ComponentValue.FitsIn (v : ComponentValue) (d : TypeDescriptor) : Prop where
  size : d.size = v.type.size
  align : d.align = v.type.align
  hostType : ∀ t, d.hostType = some t → ∀ t', v.type.hostType = some t' → t = t'

theorem ComponentValue.fitsIn_type (v : ComponentValue) : v.FitsIn v.type :=
  ⟨rfl, rfl, fun _ ht _ ht' => Option.some.inj (ht.symm.trans ht')⟩

namespace World

variable {u w : World} {e : Entity} {id : Id} {x : Value} {v : ComponentValue} {c : Column}

/-- The value `x` of `id` on `e` is in the column `c`. -/
def HoldsIn (w : World) (e : Entity) (id : Id) (c : Column) (x : Value) : Prop :=
  ∃ l a, w.Stands e l a ∧ a.column? id = some c ∧ c.rows[l.row]? = some x

theorem WellFormed.holdsIn (h : w.WellFormed) (hc : w.contents.value? e id = some x) :
    ∃ c, w.HoldsIn e id c x ∧ w.descriptor? id.typeHandle = some c.type := by
  have halive : w.isAlive e = true := by
    cases he : w.isAlive e with
    | true => rfl
    | false => simp [Contents.value?, contents_eq_none_iff.2 he] at hc
  obtain ⟨l, a, hs⟩ := h.stands halive
  rw [value?_contents, hs.peek] at hc
  unfold Archetype.value? at hc
  split at hc
  · next c hcol => exact ⟨c, ⟨l, a, hs, hcol, hc⟩, (h.shaped hs).descriptor?_of_column? hcol⟩
  · cases hc

/-- A write fails and changes nothing, or stores the value in a column that it fits in. -/
inductive WritesSafely {α : Type} (w : World) (e : Entity) (v : ComponentValue) :
    Except EcsError α × World → Prop where
  | failed (err : EcsError) (events : List HookEvent) :
      WritesSafely w e v (.error err, w.note events)
  | stored {u : World} {c : Column} (a : α) : u.HoldsIn e (Id.component v.handle) c v.value →
      u.descriptor? v.handle = some c.type → v.FitsIn c.type → WritesSafely w e v (.ok a, u)

theorem WritesSafely.map_iff {α β : Type} {r : Except EcsError α × World} (f : α → β) :
    w.WritesSafely e v (r.1.map f, r.2) ↔ w.WritesSafely e v r := by
  obtain ⟨a, u⟩ := r
  cases a with
  | error err =>
    constructor
    · intro h
      cases h
      exact .failed err _
    · intro h
      cases h
      exact .failed err _
  | ok a =>
    constructor
    · intro h
      cases h with
      | stored _ hin hd hfits => exact .stored a hin hd hfits
    · intro h
      cases h with
      | stored _ hin hd hfits => exact .stored (f a) hin hd hfits

/-- The handle of `v` means nothing, or a type that `v` fits in, if `e` is there to have a value. -/
def Welcomes (w : World) (e : Entity) (v : ComponentValue) : Prop :=
  w.isAlive e = true → ∀ d, w.descriptor? v.handle = some d → v.FitsIn d

theorem Registered.welcomes (h : w.Registered v) (e : Entity) : w.Welcomes e v := by
  intro _ d hd
  cases Option.some.inj (hd.symm.trans h)
  exact v.fitsIn_type

theorem WellFormed.put_stores (h : w.WellFormed) (hf : w.Fits) (he : w.isAlive e = true)
    {d : TypeDescriptor} (hd : w.descriptor? v.handle = some d) (how : Transfer) :
    ∃ u c, w.put e (Id.component v.handle) v.value how = (.ok (), u) ∧
      u.HoldsIn e (Id.component v.handle) c v.value ∧ u.descriptor? v.handle = some c.type ∧
      c.type = d := by
  have hput := h.put hf e (Id.component v.handle) v.value how
  have hc : w.contents e = some (w.peek e) := if_pos he
  have hcheck : w.checkId (Id.component v.handle) = .ok d := by
    rw [checkId_component, descriptor, hd]
  simp only [Contents.put, hc, hcheck] at hput
  obtain ⟨hanswer, hbecomes⟩ := hput
  have hvalue : (w.put e (Id.component v.handle) v.value how).2.contents.value? e
      (Id.component v.handle) = some v.value := by
    rw [hbecomes.contents]
    simp [Contents.value?, Contents.set, hc]
  obtain ⟨c, hin, htype⟩ := hbecomes.wellFormed.holdsIn hvalue
  rw [Id.typeHandle_component] at htype
  refine ⟨_, c, Prod.ext hanswer rfl, hin, htype, ?_⟩
  rw [descriptor?, hbecomes.registry] at htype
  exact Option.some.inj (htype.symm.trans hd)

theorem put_fails (h : w.isAlive e = true → w.descriptor? v.handle = none) (how : Transfer) :
    ∃ err, w.put e (Id.component v.handle) v.value how = (.error err, w) := by
  unfold put place location?
  cases he : w.isAlive e with
  | false => exact ⟨_, rfl⟩
  | true =>
    have hcheck : w.checkId (Id.component v.handle) = .error (.unknownType v.handle) := by
      rw [checkId_component, descriptor, h he]
    rw [if_pos rfl]
    cases (w.locations[e.index.toNat]?).join with
    | none => exact ⟨_, rfl⟩
    | some l =>
      simp only [hcheck]
      exact ⟨_, rfl⟩

theorem WellFormed.put_writesSafely_iff (h : w.WellFormed) (hf : w.Fits) (how : Transfer) :
    w.WritesSafely e v (w.put e (Id.component v.handle) v.value how) ↔ w.Welcomes e v := by
  by_cases hstored : w.isAlive e = true ∧ ∃ d, w.descriptor? v.handle = some d
  · obtain ⟨he, d, hd⟩ := hstored
    obtain ⟨u, c, hput, hin, hc, hcd⟩ := h.put_stores hf he hd how
    rw [hput]
    constructor
    · intro hsafe _ d' hd'
      cases hsafe with
      | stored _ _ hc' hfits =>
        rw [Option.some.inj (hc'.symm.trans hc), hcd] at hfits
        rwa [Option.some.inj (hd'.symm.trans hd)]
    · intro hwelcome
      exact .stored () hin hc (hcd ▸ hwelcome he d hd)
  · have hnone : w.isAlive e = true → w.descriptor? v.handle = none := by
      intro he
      cases hd : w.descriptor? v.handle with
      | none => rfl
      | some d => exact absurd ⟨he, d, hd⟩ hstored
    obtain ⟨err, hput⟩ := put_fails (v := v) hnone how
    rw [hput]
    refine iff_of_true (.failed err []) fun he d hd => ?_
    rw [hnone he] at hd
    cases hd

theorem writeValue_writesSafely_iff :
    w.WritesSafely e v (w.writeValue e v) ↔
      w.WritesSafely e v (w.put e (Id.component v.handle) v.value .move) := by
  have hclean := w.clean_put e (Id.component v.handle) v.value .move
  unfold writeValue
  split
  · next hput => rw [hput]
  · next err u hput =>
    rw [hput] at hclean ⊢
    obtain ⟨rfl, -⟩ := hclean err rfl
    exact iff_of_true (.failed err _) (.failed err [])

theorem insert_writesSafely_iff {buffer : UInt32} {spawned : List Entity} {t : Target}
    (ht : t.resolve buffer spawned = .ok e) :
    w.WritesSafely e v (w.applyCommand buffer spawned (.insert t v)) ↔
      w.WritesSafely e v (w.writeValue e v) := by
  rw [applyCommand_insert ht]
  exact WritesSafely.map_iff _

/-- Each way to store an owned value is safe if and only if its handle means a type that it fits in,
as the handle of a value does that was built with the types that the world has now. -/
theorem Reachable.writesSafely_iff (h : w.Reachable) (e : Entity) (v : ComponentValue) :
    (w.WritesSafely e v (w.writeValue e v) ↔ w.Welcomes e v) ∧
    (w.WritesSafely e v (w.writeValueRef e v) ↔ w.Welcomes e v) ∧
    (∀ buffer spawned t, t.resolve buffer spawned = .ok e →
      (w.WritesSafely e v (w.applyCommand buffer spawned (.insert t v)) ↔ w.Welcomes e v)) ∧
    (∀ buffer spawned t err, t.resolve buffer spawned = .error err →
      w.WritesSafely e v (w.applyCommand buffer spawned (.insert t v))) ∧
    ∀ r, (w.build r).1 = .ok v → (w.build r).2.Welcomes e v := by
  have hput := h.wellFormed.put_writesSafely_iff h.fits (e := e) (v := v)
  have hmove := writeValue_writesSafely_iff.trans (hput .move)
  refine ⟨hmove, hput .copy, fun buffer spawned t ht => (insert_writesSafely_iff ht).trans hmove,
    fun buffer spawned t err ht => ?_, fun r hr => (h.wellFormed.registered_build hr).welcomes e⟩
  rw [applyCommand_insert_error ht]
  exact .failed err _

/-- A world with a small type, and after a shutdown with a larger one of the same handle. -/
def clinic : World := World.new.run [.registerType (.plain .hp "Game.Health"), .spawn]

def nameplate : TypeDescription := .managed .label "Game.Nameplate"

def renamed : World := clinic.run [.shutdown, .registerType nameplate, .spawn]

def health : ComponentValue := ⟨Registry.freeze (.plain .hp "Game.Health") ⟨1⟩, .plain [7, 0, 0, 0]⟩

theorem reachable_clinic : clinic.Reachable := Reachable.new.run (by decide +kernel)

theorem writesSafely_iff_clinic : clinic.Reachable ∧
    (clinic.WritesSafely ⟨0, 0⟩ health (clinic.writeValue ⟨0, 0⟩ health) ↔
      clinic.Welcomes ⟨0, 0⟩ health) ∧
    (clinic.WritesSafely ⟨0, 0⟩ health (clinic.writeValueRef ⟨0, 0⟩ health) ↔
      clinic.Welcomes ⟨0, 0⟩ health) ∧
    (∀ buffer spawned t, t.resolve buffer spawned = .ok ⟨0, 0⟩ →
      (clinic.WritesSafely ⟨0, 0⟩ health (clinic.applyCommand buffer spawned (.insert t health)) ↔
        clinic.Welcomes ⟨0, 0⟩ health)) ∧
    (∀ buffer spawned t err, t.resolve buffer spawned = .error err →
      clinic.WritesSafely ⟨0, 0⟩ health (clinic.applyCommand buffer spawned (.insert t health))) ∧
    ∀ r, (clinic.build r).1 = .ok health → (clinic.build r).2.Welcomes ⟨0, 0⟩ health :=
  ⟨reachable_clinic, reachable_clinic.writesSafely_iff ⟨0, 0⟩ health⟩

/-- A value of four bytes that was built before the shutdown is put into a column of larger ones. -/
theorem renamed_not_writesSafely :
    (clinic.build (.bytes ⟨1⟩ [7, 0, 0, 0])).1 = .ok health ∧ renamed.Reachable ∧
    renamed.isAlive ⟨0, 1⟩ = true ∧
    renamed.descriptor? health.handle = some (Registry.freeze nameplate ⟨1⟩) ∧
    health.type.size = 4 ∧ (Registry.freeze nameplate ⟨1⟩).size = 24 ∧
    (renamed.writeValue ⟨0, 1⟩ health).1 = .ok () ∧
    ¬ renamed.WritesSafely ⟨0, 1⟩ health (renamed.writeValue ⟨0, 1⟩ health) := by
  have hreachable : renamed.Reachable := reachable_clinic.run (by decide +kernel)
  have halive : renamed.isAlive ⟨0, 1⟩ = true := by decide +kernel
  have htype : renamed.descriptor? health.handle = some (Registry.freeze nameplate ⟨1⟩) := rfl
  refine ⟨rfl, hreachable, halive, htype, rfl, rfl, by decide +kernel, fun hsafe => ?_⟩
  have hput := writeValue_writesSafely_iff.1 hsafe
  have hfits :=
    (hreachable.wellFormed.put_writesSafely_iff hreachable.fits .move).1 hput halive _ htype
  exact absurd hfits.size (by decide)

end World
end EntityWorld
