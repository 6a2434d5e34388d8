import EntityWorld.Proofs.Ledger.Commands
set_option autoImplicit false

/-!
Accounts of operations. An operation takes owned values from the host, makes values of what the host
says, and hands values out; the hooks account for the rest.
-/
namespace EntityWorld

open Goods

def Operation.takes : Operation → Multiset ComponentValue
  | .edit (.writeValue _ v) => {v}
  | .applyCommands b => b.values
  | _ => 0

namespace World

def handedOut (w : World) (h : TypeHandle) (r : Except EcsError (Option Value)) :
    Multiset ComponentValue :=
  match w.descriptor? h, r with
  | some d, .ok (some v) => {⟨d, v⟩}
  | _, _ => 0

/-- The values that an operation hands out; a value read as one of a host type counts as owned. -/
def yields (w : World) : Operation → Multiset ComponentValue
  | .read e h t => w.handedOut h (w.read e h t).1
  | .readValue e id => (w.readValue e id).1.elim 0 fun v => {v}
  | _ => 0

def supplies (w : World) : Operation → Goods
  | .edit (.write e h t v) => ifDone (w.write e h t v).1 (w.itemOf h v)
  | .edit (.writeBytes _ h bytes) =>
    ofOwned (ComponentValue.received (ComponentValue.ofBytes w.registry h bytes))
  | .rowSet r h t v => ifDone (w.rowSet r h t v).1 (w.itemOf h v)
  | _ => 0

/-- A row is written that exists, and nothing is changed in place behind the hooks. -/
def Allows (w : World) : Operation → Prop
  | .rowSet r _ _ _ => ∃ a, w.storage.get? r.archetype = some a ∧ r.row < a.size
  | .overwrite .. | .note _ | .takeEvents => False
  | _ => True

variable {u v w : World} {owned : Multiset ComponentValue} {built : Goods}

/-! ### Reading -/

theorem copyOut_books (w : World) (k : TypeHandle) (t : HostType) (x : Option Value) :
    w.Books (w.copyOut k t x).2 0 (ofOwned (w.handedOut k (w.copyOut k t x).1)) := by
  unfold copyOut handedOut descriptor
  cases w.descriptor? k with
  | none => exact .refl w
  | some d =>
    simp only
    cases d.checkTyped t with
    | error err => exact .refl w
    | ok _ =>
      cases x with
      | none => exact .refl w
      | some x =>
        refine .note ?_
        rw [ofOwned_singleton]
        exact d.copyEvents_gives x w.goods

theorem valueOut_books (w : World) (id : Id) (x : Option Value) :
    w.Books (w.valueOut id x).2 0 (ofOwned ((w.valueOut id x).1.elim 0 fun v => {v})) := by
  unfold valueOut
  cases w.descriptor? id.typeHandle with
  | none => exact .refl w
  | some d =>
    cases x with
    | none => exact .refl w
    | some x =>
      refine .note ?_
      rw [Option.elim_some, ofOwned_singleton]
      exact d.copyEvents_gives x w.goods

/-! ### Writing a row and building -/

theorem WellFormed.rowSet_books (h : w.WellFormed) (r : Row) (k : TypeHandle) (t : HostType)
    (x : Value) (hr : ∃ a, w.storage.get? r.archetype = some a ∧ r.row < a.size) :
    w.Books (w.rowSet r k t x).2 (ifDone (w.rowSet r k t x).1 (w.itemOf k x)) 0 := by
  obtain ⟨a, ha, hrow⟩ := hr
  unfold rowSet itemOf descriptor
  cases hd : w.descriptor? k with
  | none => exact .refl w
  | some d =>
    simp only
    cases d.checkTyped t with
    | error err => exact .refl w
    | ok _ =>
      by_cases htag : d.isTag = true
      · simp only [htag, if_true]
        exact .refl w
      · cases hcol : a.column? (Id.component k) with
        | none =>
          simp only [htag, if_false, ha, hcol, Bool.false_eq_true]
          exact .refl w
        | some c =>
          have hshaped := h.storage.shaped _ a ha
          have hdc := hshaped.descriptor?_of_column? hcol
          rw [Id.typeHandle_component] at hdc
          have htype : c.type = d := Option.some.inj (hdc.symm.trans hd)
          have hsize : c.rows.size = a.size :=
            hshaped.filled_iff.1 (h.storage.filled _ a ha) (Id.component k) c.rows
              (by rw [Archetype.cells, hcol]; rfl)
          have hlt : r.row < c.size := by
            rw [Column.size, hsize]
            exact hrow
          have hassign := Transfer.move.assign_accounts c x hlt
          rw [htype] at hassign
          simp only [htag, if_false, ha, hcol, Bool.false_eq_true]
          refine .writeTable ha ?_ (Archetype.updateColumn_accounts hcol hassign)
          rw [Archetype.updateColumn_fst]
          exact h.storage.numbered _ a ha

/-! ### Every dealing -/

def Honest (w : World) : Operation → Prop
  | .edit (.writeValue e v) => ∀ a, (w.writeValue e v).1 = .ok a → w.Suits v
  | .applyCommands b => HonestAll b.id w .empty b.commands
  | _ => True

/-- What the world takes of the values that an operation uses up. -/
def arrivals (w : World) : Operation → Goods
  | .edit (.writeValue e v) => w.lodged v (w.writeValue e v).1
  | .applyCommands b => takingAll b.id w .empty b.commands
  | _ => 0

theorem WellFormed.arrivals_eq_iff (h : w.WellFormed) (op : Operation) (hf : (w.perform op).Fits) :
    w.arrivals op = ofOwned op.takes ↔ w.Honest op := by
  cases op with
  | edit x =>
    cases x with
    | writeValue e v =>
      rw [Operation.takes, ofOwned_singleton]
      exact lodged_eq_goods_iff fun _ => exists_descriptor?_of_writeValue
    | _ => exact iff_of_true rfl trivial
  | applyCommands b => exact (h.takingAll_eq_iff b.id b.commands .empty hf).2
  | _ => exact iff_of_true rfl trivial

/-- Whatever an operation does is accounted for by what it takes from the host, by what it makes of
the host's words and by what it hands out. -/
theorem WellFormed.perform_books (h : w.WellFormed) {op : Operation} (hop : w.Allows op)
    (hf : (w.perform op).Fits) :
    w.Books (w.perform op) (w.arrivals op + w.supplies op) (ofOwned (w.yields op)) := by
  by_cases hshut : op = .shutdown
  · subst hshut
    exact w.shutdown_books
  have hfw := (throughout_leads.perform w hshut).grows.fits hf
  cases op with
  | registerType d => exact w.registerType_books d
  | spawn => exact h.spawn_books
  | despawn e => exact (along_neutral.despawn w e).books h hf
  | edit x =>
    cases x with
    | add e id => exact h.add_books hfw e id
    | remove e id => exact h.remove_books hfw e id
    | write e k t v =>
      have hput := h.putTyped_books hfw e k t v .move fun d hd => itemOf_eq v hd
      show w.Books _ (0 + ifDone (w.write e k t v).1 (w.itemOf k v)) 0
      rw [zero_add]
      exact hput
    | writeRef e k t v =>
      have hput := h.putTyped_books hfw e k t v .copy fun d hd => itemOf_eq v hd
      rw [Transfer.taking, ifDone_zero] at hput
      exact hput
    | writeValue e v =>
      show w.Books _ (w.lodged v _ + 0) 0
      rw [add_zero]
      exact h.writeValue_books hfw e v
    | writeValueRef e v =>
      have hput := h.put_books hfw e (Id.component v.handle) v.value .copy fun d hd =>
        itemOf_eq v.value hd
      rw [Transfer.taking, ifDone_zero] at hput
      exact hput
    | writeBytes e k bytes =>
      show w.Books _ (0 + ofOwned (ComponentValue.received _)) 0
      rw [zero_add]
      exact h.writeBytes_books hfw e k bytes
    | ensureDefault e id => exact (along_neutral.ensureDefault w e id).books h hf
  | ensureDefaultTyped e k t => exact (along_neutral.ensureDefaultTyped w e k t).books h hf
  | read e k t => exact w.copyOut_books k t _
  | readValue e id => exact w.valueOut_books id _
  | overwrite e id v => exact hop.elim
  | rowSet r k t v =>
    show w.Books _ (0 + ifDone (w.rowSet r k t v).1 (w.itemOf k v)) 0
    rw [zero_add]
    exact h.rowSet_books r k t v hop
  | addPair e relation target => exact (along_neutral.addPair w e relation target).books h hf
  | removePair e relation target => exact h.remove_books hfw e _
  | setParent child parent => exact (along_neutral.setParent w child parent).books h hf
  | setName e name => exact (along_neutral.setName w e name).books h hf
  | applyCommands b =>
    show w.Books _ (takingAll b.id w .empty b.commands + 0) 0
    rw [add_zero]
    exact h.applyAll_books b.id b.commands .empty hf
  | listen s => exact (along_neutral.listen w s).books h hf
  | takeHeard s => exact (along_neutral.takeHeard w s).books h hf
  | note _ | takeEvents => exact hop.elim
  | shutdown => exact absurd rfl hshut

/-! ### Whose values suit -/

structure Retains (w v : World) : Prop where
  leads : w.Leads v
  types : w.WellFormed → v.Fits → ∀ k d, w.descriptor? k = some d → v.descriptor? k = some d

theorem Retains.of_registry (hl : w.Leads v)
    (hr : w.WellFormed → v.Fits → v.registry = w.registry) : w.Retains v where
  leads := hl
  types hw hf k d hd := by rwa [descriptor?, hr hw hf]

theorem Neutral.retains (h : w.Neutral v) : w.Retains v := .of_registry h.leads h.registry

theorem throughout_retains : Throughout Retains where
  refl w := (along_neutral.refl w).retains
  trans h₁ h₂ := by
    refine ⟨h₁.leads.trans h₂.leads, fun hw hf k d hd => ?_⟩
    have hv := h₂.leads.grows.fits hf
    exact h₂.types (h₁.leads.keeps hw hv) hf k d (h₁.types hw hv k d hd)
  setName w e name := (along_neutral.setName w e name).retains
  listeners w heard := (along_neutral.listeners w heard).retains
  spawn w := (along_neutral.spawn w).retains
  add w e id := (along_neutral.add w e id).retains
  remove w e id := (along_neutral.remove w e id).retains
  despawnOne he := (along_neutral.despawnOne he).retains
  events w told := .of_registry (throughout_leads.events w told) fun _ _ => rfl
  registerType w desc := by
    refine ⟨throughout_leads.registerType w desc, fun _ _ k d hd => ?_⟩
    unfold World.registerType
    split
    · next hr => exact Registry.descriptor?_register hr hd
    · exact hd
  put w e id x how := .of_registry (put_leads w e id x how) fun hw hf =>
    (hw.put ((put_grows w e id x how).fits hf) e id x how).becomes.registry
  writeTable id ha htype hrows :=
    .of_registry (throughout_leads.writeTable id ha htype hrows) fun _ _ => rfl

theorem WellFormed.registered_perform (h : w.WellFormed) {op : Operation} (hop : op ≠ .shutdown)
    (hf : (w.perform op).Fits) {x : ComponentValue} (hx : w.Registered x) :
    (w.perform op).Registered x :=
  (throughout_retains.perform w hop).types h hf _ _ hx

theorem WellFormed.registered_build (h : w.WellFormed) {r : Recipe} {x : ComponentValue}
    (hx : (w.build r).1 = .ok x) : (w.build r).2.Registered x := by
  cases r with
  | typed k t y =>
    simp only [World.build] at hx
    cases hv : ComponentValue.ofTyped w.registry k t y with
    | error err => simp [hv, RecipeError.ofEcs] at hx
    | ok v =>
      rw [hv] at hx
      cases hx
      exact h.registered (ComponentValue.type_ofTyped hv)
  | bytes k bs =>
    simp only [World.build] at hx
    cases hv : ComponentValue.ofBytes w.registry k bs with
    | error err => simp [hv, RecipeError.ofEcs] at hx
    | ok v =>
      rw [hv] at hx
      cases hx
      exact h.registered (ComponentValue.type_ofBytes hv)
  | default k =>
    simp only [World.build] at hx ⊢
    cases hv : ComponentValue.default w.registry k with
    | error err => simp [hv] at hx
    | ok p =>
      simp only [hv] at hx
      cases hx
      exact (h.note p.2).registered (ComponentValue.default_eq_ok hv).1
  | filled k bs =>
    simp only [World.build] at hx ⊢
    cases hv : ComponentValue.fill w.registry k _ with
    | error err => simp [hv] at hx
    | ok result =>
      simp only [hv] at hx
      subst hx
      exact h.registered (ComponentValue.type_fill hv)

theorem WellFormed.registered_handedOut (h : w.WellFormed) {k : TypeHandle}
    {r : Except EcsError (Option Value)} {x : ComponentValue} (hx : x ∈ w.handedOut k r) :
    w.Registered x := by
  unfold handedOut at hx
  cases hd : w.descriptor? k with
  | none => simp [hd] at hx
  | some d =>
    rw [hd] at hx
    split at hx
    · next heq =>
      cases heq
      rw [Multiset.mem_singleton] at hx
      subst hx
      exact h.registered hd
    · exact absurd hx (Multiset.notMem_zero x)

theorem WellFormed.registered_valueOut (h : w.WellFormed) {id : Id} {y : Option Value}
    {x : ComponentValue} (hx : x ∈ (w.valueOut id y).1.elim (0 : Multiset ComponentValue) ({·})) :
    w.Registered x := by
  unfold valueOut at hx
  cases hd : w.descriptor? id.typeHandle with
  | none => simp [hd] at hx
  | some d =>
    cases y with
    | none => simp [hd] at hx
    | some y =>
      simp only [hd, Option.elim_some, Multiset.mem_singleton] at hx
      subst hx
      exact h.registered hd

theorem WellFormed.registered_yields (h : w.WellFormed) {op : Operation} {x : ComponentValue}
    (hx : x ∈ w.yields op) : w.Registered x := by
  cases op with
  | read e k t => exact h.registered_handedOut hx
  | readValue e id =>
    rw [yields, readValue_eq] at hx
    exact h.registered_valueOut hx
  | _ => exact absurd hx (Multiset.notMem_zero x)

theorem WellFormed.honest (h : w.WellFormed) (op : Operation) (hf : (w.perform op).Fits)
    (hall : ∀ v ∈ op.takes, w.Registered v) : w.Honest op := by
  cases op with
  | edit x =>
    cases x with
    | writeValue e v => exact fun _ _ => (hall v (Multiset.mem_singleton_self v)).suits
    | _ => trivial
  | applyCommands b => exact h.honestAll b.id b.commands .empty hf hall
  | _ => trivial

end World
end EntityWorld
