import EntityWorld.Proofs.Ledger.Operations
set_option autoImplicit false

/-!
The whole account of a world and its host. Every value that came about has been destroyed, is stored
or is owned by the host, and only one of these, as long as no value is stored in a column of another
type. That can happen after a shutdown, which gives the handles away again, or with a value that was
built for another world; the hooks of the column's type then destroy what they have not made.
-/
namespace EntityWorld

open Goods

/-- The values that a recipe makes without a hook and without filling in zeros. -/
def Recipe.supplies (r : Recipe) (result : Except RecipeError ComponentValue) : Goods :=
  match r with
  | .default _ => 0
  | _ => ofOwned (ComponentValue.received result)

namespace World

variable {v w : World}

def destroyed (w : World) : Goods := gone w.events

/-- The values that hooks have made or that were filled in with zeros. -/
def produced (w : World) : Goods := made w.events

/-- A shutdown, after which the host gives up the values that it owns. -/
def close (w : World) (owned : List ComponentValue) : World :=
  w.shutdown.note (owned.flatMap ComponentValue.dropEvents)

theorem destroyed_append {told : List HookEvent} (h : v.events = told.reverse ++ w.events) :
    v.destroyed = w.destroyed + gone told := by
  simp [destroyed, h, gone, add_comm]

theorem produced_append {told : List HookEvent} (h : v.events = told.reverse ++ w.events) :
    v.produced = w.produced + made told := by
  simp [produced, h, made, add_comm]

theorem copyOut_note (w : World) (k : TypeHandle) (t : HostType) (x : Option Value) :
    ∃ told, (w.copyOut k t x).2 = w.note told := by
  unfold copyOut
  split
  · exact ⟨[], rfl⟩
  · split
    · exact ⟨[], rfl⟩
    · split
      · exact ⟨_, rfl⟩
      · exact ⟨[], rfl⟩

theorem valueOut_note (w : World) (id : Id) (x : Option Value) :
    ∃ told, (w.valueOut id x).2 = w.note told := by
  unfold valueOut
  split
  · exact ⟨[], rfl⟩
  · split
    · exact ⟨_, rfl⟩
    · exact ⟨[], rfl⟩

theorem build_note (w : World) (r : Recipe) : ∃ told, (w.build r).2 = w.note told := by
  cases r with
  | default k =>
    simp only [build]
    split
    · exact ⟨_, rfl⟩
    · exact ⟨[], rfl⟩
  | _ => exact ⟨[], build_snd w (by simp)⟩

theorem build_books (w : World) (r : Recipe) : w.Books (w.build r).2
    (r.supplies (w.build r).1) (ofOwned (ComponentValue.received (w.build r).1)) := by
  cases r with
  | default k => exact w.build_default_books k
  | _ =>
    rw [build_snd w (by simp)]
    exact .pass w _

end World

/-! ### What a host deals in -/

/-- What a host does with a world and its values. It may also have received values that were built
for another world. -/
inductive Dealing where
  | perform (op : Operation)
  | rowTryGet (r : Row) (k : TypeHandle) (t : HostType)
  | rowValue (r : Row) (id : Id)
  | build (r : Recipe)
  | receive (v : ComponentValue)
  | clone (v : ComponentValue)
  | drop (v : ComponentValue)

namespace Dealing

def next (w : World) : Dealing → World
  | perform op => w.perform op
  | rowTryGet r k t => (w.rowTryGet r k t).2
  | rowValue r id => (w.rowValue r id).2
  | build r => (w.build r).2
  | receive _ => w
  | clone v => w.note v.copyEvents
  | drop v => w.note v.dropEvents

def takes : Dealing → Multiset ComponentValue
  | perform op => op.takes
  | clone v | drop v => {v}
  | _ => 0

def yields (w : World) : Dealing → Multiset ComponentValue
  | perform op => w.yields op
  | rowTryGet r k t => w.handedOut k (w.rowTryGet r k t).1
  | rowValue r id => (w.rowValue r id).1.elim 0 fun v => {v}
  | build r => ComponentValue.received (w.build r).1
  | receive v => {v}
  | clone v => {v} + {v}
  | drop _ => 0

/-- The values that come about by no hook of the world. -/
def supplies (w : World) : Dealing → Goods
  | perform op => w.supplies op
  | build r => r.supplies (w.build r).1
  | receive v => v.goods
  | _ => 0

def arrivals (w : World) : Dealing → Goods
  | perform op => w.arrivals op
  | x => ofOwned x.takes

def Allowed (w : World) : Dealing → Prop
  | perform op => w.Allows op ∧ (w.perform op).Fits
  | _ => True

/-- Owned values are stored in columns of their types only. -/
def Honest (w : World) : Dealing → Prop
  | perform op => w.Honest op
  | _ => True

/-- Types stay, and no value comes from another world. -/
def Domestic : Dealing → Prop
  | perform op => op ≠ .shutdown
  | receive _ => False
  | _ => True

variable {w : World} {x : Dealing}

theorem next_cases (w : World) (x : Dealing) :
    (∃ op, x = perform op) ∨ ∃ told, x.next w = w.note told := by
  cases x with
  | perform op => exact .inl ⟨op, rfl⟩
  | rowTryGet r k t =>
    rw [next, World.rowTryGet_eq]
    exact .inr (w.copyOut_note k t _)
  | rowValue r id =>
    rw [next, World.rowValue_eq]
    exact .inr (w.valueOut_note id _)
  | build r => exact .inr (w.build_note r)
  | receive v => exact .inr ⟨[], rfl⟩
  | clone v | drop v => exact .inr ⟨_, rfl⟩

theorem wellFormed_next (h : w.WellFormed) (hx : x.Allowed w) : (x.next w).WellFormed := by
  obtain ⟨op, rfl⟩ | ⟨told, hnext⟩ := x.next_cases w
  · exact h.perform op hx.2
  · rw [hnext]
    exact h.note told

theorem books (h : w.WellFormed) (hx : x.Allowed w) :
    w.Books (x.next w) (x.arrivals w + x.supplies w) (ofOwned (x.yields w)) := by
  cases x with
  | perform op => exact h.perform_books hx.1 hx.2
  | rowTryGet r k t =>
    rw [next, yields, World.rowTryGet_eq]
    exact w.copyOut_books k t _
  | rowValue r id =>
    rw [next, yields, World.rowValue_eq]
    exact w.valueOut_books id _
  | build r =>
    show w.Books _ (0 + r.supplies (w.build r).1) _
    rw [zero_add]
    exact w.build_books r
  | receive v =>
    show w.Books w (0 + v.goods) (ofOwned {v})
    rw [zero_add, ofOwned_singleton]
    exact .pass w _
  | clone v =>
    refine .note ?_
    have hcopy := (v.copyEvents_gives w.goods).frame v.goods
    simp only [arrivals, takes, supplies, yields, ofOwned_add, ofOwned_singleton, add_zero]
    rw [← add_assoc]
    simpa [Accounts] using hcopy
  | drop v =>
    refine .note ?_
    simpa [arrivals, takes, supplies, yields] using v.dropEvents_takes w.goods

theorem arrivals_eq_iff (h : w.WellFormed) (hx : x.Allowed w) :
    x.arrivals w = ofOwned x.takes ↔ x.Honest w := by
  cases x with
  | perform op => exact h.arrivals_eq_iff op hx.2
  | _ => exact iff_of_true rfl trivial

theorem honest_of_registered (h : w.WellFormed) (hx : x.Allowed w)
    (hall : ∀ v ∈ x.takes, w.Registered v) : x.Honest w := by
  cases x with
  | perform op => exact h.honest op hx.2 hall
  | _ => trivial

theorem registered_yields (h : w.WellFormed) (hdomestic : x.Domestic)
    (htakes : ∀ v ∈ x.takes, w.Registered v) : ∀ v ∈ x.yields w, w.Registered v := by
  intro v hv
  cases x with
  | perform op => exact h.registered_yields hv
  | rowTryGet r k t => exact h.registered_handedOut hv
  | rowValue r id =>
    rw [yields, World.rowValue_eq] at hv
    exact h.registered_valueOut hv
  | build r =>
    obtain ⟨told, hnote⟩ := w.build_note r
    have hbuilt : (w.build r).2.Registered v :=
      h.registered_build (ComponentValue.mem_received.1 hv)
    rwa [hnote] at hbuilt
  | receive _ => exact hdomestic.elim
  | clone v' =>
    rw [yields, Multiset.mem_add, or_self] at hv
    exact htakes v hv
  | drop _ => exact absurd hv (Multiset.notMem_zero v)

theorem registered_next (h : w.WellFormed) (hx : x.Allowed w) (hdomestic : x.Domestic)
    {rest : Multiset ComponentValue} (hrest : ∀ v ∈ rest, w.Registered v)
    (htakes : ∀ v ∈ x.takes, w.Registered v) :
    ∀ v ∈ rest + x.yields w, (x.next w).Registered v := by
  intro v hv
  have hnow : w.Registered v :=
    (Multiset.mem_add.1 hv).elim (hrest v) (registered_yields h hdomestic htakes v)
  obtain ⟨op, rfl⟩ | ⟨told, hnext⟩ := x.next_cases w
  · exact h.registered_perform hdomestic hx.2 hnow
  · rw [hnext]
    exact hnow

end Dealing

/-! ### From dealing to dealing -/

/-- A world, the values that its host owns, and those that came about by no hook of the world. -/
structure Estate where
  world : World
  owned : Multiset ComponentValue
  built : Goods

namespace Estate

def new : Estate := ⟨.new, 0, 0⟩

/-- Every value that came about is in one place. -/
def Balanced (s : Estate) : Prop :=
  s.world.destroyed + s.world.goods + ofOwned s.owned = s.world.produced + s.built

theorem balanced_new : new.Balanced := rfl

/-- A dealing for which the host has the values; it keeps the `rest`. -/
structure Step where
  before : Estate
  dealing : Dealing
  rest : Multiset ComponentValue
  owned : before.owned = rest + dealing.takes
  allowed : dealing.Allowed before.world

namespace Step

def after (x : Step) : Estate where
  world := x.dealing.next x.before.world
  owned := x.rest + x.dealing.yields x.before.world
  built := x.before.built + x.dealing.supplies x.before.world

def Honest (x : Step) : Prop := x.dealing.Honest x.before.world

variable {x : Step}

theorem wellFormed_after (hw : x.before.world.WellFormed) : x.after.world.WellFormed :=
  Dealing.wellFormed_next hw x.allowed

theorem balanced_after_iff (hw : x.before.world.WellFormed) (hb : x.before.Balanced) :
    x.after.Balanced ↔ x.Honest := by
  obtain ⟨told, htold, haccounts⟩ : x.before.world.Books x.after.world _ _ :=
    Dealing.books hw x.allowed
  rw [Honest, ← Dealing.arrivals_eq_iff hw x.allowed]
  unfold Balanced Accounts at *
  rw [x.owned, ofOwned_add] at hb
  have hbefore : x.after.world.destroyed + x.after.world.goods + ofOwned x.after.owned =
      x.before.world.destroyed + x.before.world.goods + ofOwned x.rest + made told +
        x.dealing.supplies x.before.world + x.dealing.arrivals x.before.world := by
    rw [World.destroyed_append htold, show x.after.owned = x.rest + _ from rfl, ofOwned_add]
    calc x.before.world.destroyed + gone told + x.after.world.goods +
          (ofOwned x.rest + ofOwned (x.dealing.yields x.before.world))
        = x.before.world.destroyed + ofOwned x.rest + (gone told +
          (x.after.world.goods + ofOwned (x.dealing.yields x.before.world))) := by abel
      _ = _ := by
        rw [haccounts]
        abel
  have hafter : x.after.world.produced + x.after.built =
      x.before.world.destroyed + x.before.world.goods + ofOwned x.rest + made told +
        x.dealing.supplies x.before.world + ofOwned x.dealing.takes := by
    rw [World.produced_append htold, show x.after.built = x.before.built + _ from rfl]
    calc x.before.world.produced + made told +
          (x.before.built + x.dealing.supplies x.before.world)
        = (x.before.world.produced + x.before.built) + made told +
          x.dealing.supplies x.before.world := by abel
      _ = _ := by
        rw [← hb]
        abel
  rw [hbefore, hafter]
  exact add_right_inj _

end Step

inductive Course : Estate → List Step → Prop where
  | nil (s : Estate) : Course s []
  | cons {x : Step} {rest : List Step} : Course x.after rest → Course x.before (x :: rest)

theorem Balanced.close {s : Estate} (hs : s.Balanced) {vs : List ComponentValue}
    (hvs : (vs : Multiset ComponentValue) = s.owned) : (s.world.close vs).goods = 0 ∧
      (s.world.close vs).destroyed = (s.world.close vs).produced + s.built := by
  obtain ⟨told, htold, hshut⟩ := s.world.shutdown_books
  have hdrop := Accounts.flatMap ComponentValue.dropEvents_accounts vs
  have hevents : (s.world.close vs).events =
      (told ++ vs.flatMap ComponentValue.dropEvents).reverse ++ s.world.events := by
    rw [World.close, World.note, htold, List.reverse_append, List.append_assoc]
  have howned : ofOwned s.owned = (vs.map ComponentValue.goods).sum := by
    rw [← hvs, ofOwned, Multiset.map_coe, Multiset.sum_coe]
  refine ⟨s.world.goods_shutdown, ?_⟩
  rw [World.destroyed_append hevents, World.produced_append hevents, gone_append, made_append]
  unfold Balanced Accounts at *
  rw [World.goods_shutdown] at hshut
  simp only [add_zero] at hshut hdrop
  calc s.world.destroyed + (gone told + gone (vs.flatMap ComponentValue.dropEvents))
      = s.world.destroyed + s.world.goods + ofOwned s.owned + made told +
          made (vs.flatMap ComponentValue.dropEvents) := by
        rw [hshut, hdrop, howned]
        abel
    _ = _ := by
        rw [hs]
        abel

namespace Course

variable {s : Estate} {steps : List Step}

theorem balanced_iff (h : Course s steps) (hw : s.world.WellFormed) (hs : s.Balanced) :
    (∀ x ∈ steps, x.after.Balanced) ↔ ∀ x ∈ steps, x.Honest := by
  induction h with
  | nil s =>
    exact iff_of_true (fun x hx => absurd hx List.not_mem_nil)
      fun x hx => absurd hx List.not_mem_nil
  | @cons x rest _ ih =>
    have hx := x.balanced_after_iff hw hs
    rw [List.forall_mem_cons, List.forall_mem_cons, hx]
    refine and_congr_right fun hhonest => ?_
    exact ih (x.wellFormed_after hw) (hx.2 hhonest)

theorem honest (h : Course s steps) (hw : s.world.WellFormed)
    (howned : ∀ v ∈ s.owned, s.world.Registered v) (hall : ∀ x ∈ steps, x.dealing.Domestic) :
    ∀ x ∈ steps, x.Honest := by
  induction h with
  | nil s => exact fun x hx => absurd hx List.not_mem_nil
  | @cons x rest _ ih =>
    obtain ⟨hx, hrest⟩ := List.forall_mem_cons.1 hall
    rw [x.owned] at howned
    have hkept : ∀ v ∈ x.rest, x.before.world.Registered v := fun v hv =>
      howned v (Multiset.mem_add.2 (.inl hv))
    have hgiven : ∀ v ∈ x.dealing.takes, x.before.world.Registered v := fun v hv =>
      howned v (Multiset.mem_add.2 (.inr hv))
    refine List.forall_mem_cons.2 ⟨?_, ih (x.wellFormed_after hw) ?_ hrest⟩
    · exact Dealing.honest_of_registered hw x.allowed hgiven
    · exact Dealing.registered_next hw x.allowed hx hkept hgiven

/-- At every point a value that came about has been destroyed, is stored or is owned, if and only if
owned values are stored in columns of their types only; as they are where nothing is shut down and
no value comes from another world. Then in the end each has been destroyed, and once. -/
theorem accounted_iff (h : Course .new steps) :
    ((∀ x ∈ steps, x.after.Balanced) ↔ ∀ x ∈ steps, x.Honest) ∧
    ((∀ x ∈ steps, x.dealing.Domestic) → ∀ x ∈ steps, x.Honest) ∧
    ∀ x ∈ steps, x.after.Balanced → ∀ vs : List ComponentValue,
      (vs : Multiset ComponentValue) = x.after.owned → (x.after.world.close vs).goods = 0 ∧
        (x.after.world.close vs).destroyed = (x.after.world.close vs).produced + x.after.built :=
  ⟨h.balanced_iff .new balanced_new,
    h.honest .new fun v hv => absurd hv (Multiset.notMem_zero v), fun _ _ hs _ hvs => hs.close hvs⟩

end Course

/-! ### Swords and coins -/

def act (s : Estate) (op : Operation) (htakes : op.takes = 0) (hop : s.world.Allows op)
    (hf : (s.world.perform op).Fits) : Step :=
  ⟨s, .perform op, s.owned, by rw [Dealing.takes, htakes, add_zero], hop, hf⟩

def sword : TypeDescription where
  path := "Game.Sword"
  size := 8
  align := 8
  hooks := { default := some (.ofNat 8 7), copy := true, drop := true }

def blade : ComponentValue := ⟨Registry.freeze sword ⟨1⟩, .ofNat 8 5⟩

def enlisting : Step := new.act (.registerType sword) rfl trivial (by decide +kernel)

def forging : Step := ⟨enlisting.after, .build (.typed ⟨1⟩ .u64 (.ofNat 8 5)), 0, rfl, trivial⟩

def arrival : Step := forging.after.act .spawn rfl trivial (by decide +kernel)

def arming : Step :=
  ⟨arrival.after, .perform (.edit (.writeValue ⟨0, 0⟩ blade)), 0, rfl, trivial, by decide +kernel⟩

def inspection : Step :=
  arming.after.act (.readValue ⟨0, 0⟩ (Id.component ⟨1⟩)) rfl trivial (by decide +kernel)

def death : Step := inspection.after.act (.despawn ⟨0, 0⟩) rfl trivial (by decide +kernel)

/-- An entity gets the blade, which is read and is lost with it. -/
def duel : List Step := [enlisting, forging, arrival, arming, inspection, death]

theorem course_duel : Course .new duel :=
  .cons (.cons (.cons (.cons (.cons (.cons (.nil death.after))))))

theorem accounted_iff_duel : Course .new duel ∧ (∀ x ∈ duel, x.after.Balanced) ∧
    death.after.owned = {blade} ∧ death.after.built = {(blade.type, blade.value)} ∧
    (death.after.world.close [blade]).goods = 0 ∧
    (death.after.world.close [blade]).destroyed =
      (death.after.world.close [blade]).produced + death.after.built := by
  obtain ⟨hiff, hdomestic, hend⟩ := course_duel.accounted_iff
  have hhome : ∀ x ∈ duel, x.dealing.Domestic := by
    simp only [duel, List.forall_mem_cons]
    exact ⟨nofun, trivial, nofun, nofun, nofun, nofun, fun x hx => absurd hx List.not_mem_nil⟩
  have hbalanced := hiff.2 (hdomestic hhome)
  have hlast : death ∈ duel := by simp [duel]
  exact ⟨course_duel, hbalanced, rfl, rfl, hend death hlast (hbalanced death hlast) [blade] rfl⟩

def coin : TypeDescription := .plain .u64 "Game.Coin"

def ruin : Step := forging.after.act .shutdown rfl trivial (by decide +kernel)

def coinage : Step := ruin.after.act (.registerType coin) rfl trivial (by decide +kernel)

def stranger : Step := coinage.after.act .spawn rfl trivial (by decide +kernel)

def payment : Step :=
  ⟨stranger.after, .perform (.edit (.writeValue ⟨0, 0⟩ blade)), 0, rfl, trivial, by decide +kernel⟩

/-- The blade is kept over a shutdown, and then it is put among the coins. -/
def swindle : List Step := [enlisting, forging, ruin, coinage, stranger, payment]

theorem course_swindle : Course .new swindle :=
  .cons (.cons (.cons (.cons (.cons (.cons (.nil payment.after))))))

/-- The write succeeds, and the hook that destroys swords is never called. -/
theorem swindle_not_accounted : Course .new swindle ∧
    (stranger.after.world.writeValue ⟨0, 0⟩ blade).1 = .ok () ∧
    payment.after.owned = 0 ∧ payment.after.built = {(blade.type, blade.value)} ∧
    (payment.after.world.close []).goods = 0 ∧ (payment.after.world.close []).events = [] ∧
    ¬ ∀ x ∈ swindle, x.after.Balanced := by
  have hok : (stranger.after.world.writeValue ⟨0, 0⟩ blade).1 = .ok () := by decide +kernel
  have hsilent : (payment.after.world.close []).events.isEmpty = true := by decide +kernel
  refine ⟨course_swindle, hok, rfl, rfl, World.goods_shutdown _, List.isEmpty_iff.1 hsilent,
    fun hall => ?_⟩
  have hhonest := (course_swindle.balanced_iff .new balanced_new).1 hall payment (by simp [swindle])
  have hcoin : stranger.after.world.descriptor? blade.handle =
    some (Registry.freeze coin ⟨1⟩) := rfl
  have hsame := hhonest () hok _ hcoin (.inr rfl)
  exact absurd (congrArg TypeDescriptor.path hsame) (by decide +kernel)

end Estate
end EntityWorld
