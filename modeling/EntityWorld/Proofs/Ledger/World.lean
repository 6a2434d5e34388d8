import EntityWorld.Proofs.Ledger.Tables
import EntityWorld.Recipe
set_option autoImplicit false

/-!
Accounts of a world. `Books w v taken given` says that what the hooks did on the way from `w` to `v`
accounts for the stored values, when `taken` came in from the host and `given` went out to it.
-/
namespace EntityWorld

open Goods

namespace TypeDescriptor

theorem dropEvents_takes (d : TypeDescriptor) (v : Value) (g : Goods) :
    Accounts (d.dropEvents v) g (d.item v) g := by
  simpa [Accounts, add_comm] using (d.dropEvents_accounts v).frame g

theorem copyEvents_gives (d : TypeDescriptor) (v : Value) (g : Goods) :
    Accounts (d.copyEvents v) g 0 (g + d.item v) := by
  simpa using (d.copyEvents_accounts v).frame_left g

end TypeDescriptor

namespace ComponentValue

def goods (v : ComponentValue) : Goods := v.type.item v.value

theorem copyEvents_gives (v : ComponentValue) (g : Goods) :
    Accounts v.copyEvents g 0 (g + v.goods) :=
  v.type.copyEvents_gives v.value g

theorem dropEvents_takes (v : ComponentValue) (g : Goods) : Accounts v.dropEvents g v.goods g :=
  v.type.dropEvents_takes v.value g

theorem dropEvents_accounts (v : ComponentValue) : Accounts v.dropEvents v.goods 0 0 :=
  v.type.dropEvents_accounts v.value

def received {ε : Type} (r : Except ε ComponentValue) : Multiset ComponentValue :=
  match r with
  | .ok v => {v}
  | .error _ => 0

theorem received_ok {ε : Type} (v : ComponentValue) : received (.ok v : Except ε _) = {v} := rfl

theorem mem_received {ε : Type} {r : Except ε ComponentValue} {v : ComponentValue} :
    v ∈ received r ↔ r = .ok v := by
  cases r with
  | ok w => simp [received, eq_comm]
  | error err => simp [received]

variable {r : Registry} {k : TypeHandle} {v : ComponentValue}

theorem find_eq_ok {d : TypeDescriptor} : find r k = .ok d ↔ r.descriptor? k = some d := by
  unfold find
  cases r.descriptor? k <;> simp

theorem type_ofTyped {t : HostType} {x : Value} (h : ofTyped r k t x = .ok v) :
    r.descriptor? k = some v.type := by
  unfold ofTyped at h
  cases hd : find r k with
  | error err => simp [hd, bind, Except.bind] at h
  | ok d =>
    simp only [hd, bind, Except.bind] at h
    split at h
    · cases h
    · cases h
      exact find_eq_ok.1 hd

theorem type_ofBytes {bytes : Bytes} (h : ofBytes r k bytes = .ok v) :
    r.descriptor? k = some v.type := by
  unfold ofBytes at h
  cases hd : find r k with
  | error err => simp [hd, bind, Except.bind] at h
  | ok d =>
    simp only [hd, bind, Except.bind] at h
    split at h
    · cases h
      exact find_eq_ok.1 hd
    · cases h

theorem type_fill {ε : Type} {init : TypeDescriptor → Except ε Value}
    (h : fill r k init = .ok (.ok v)) : r.descriptor? k = some v.type := by
  unfold fill at h
  cases hd : find r k with
  | error err => simp [hd, bind, Except.bind] at h
  | ok d =>
    simp only [hd, bind, Except.bind, pure, Except.pure, Except.ok.injEq] at h
    cases hv : init d with
    | error err => simp [hv, Except.map] at h
    | ok x =>
      rw [hv] at h
      cases h
      exact find_eq_ok.1 hd

theorem default_eq_ok {events : List HookEvent} (h : default r k = .ok (v, events)) :
    r.descriptor? k = some v.type ∧ v.type.default? = some (v.value, events) := by
  unfold default at h
  cases hd : find r k with
  | error err => simp [hd, bind, Except.bind] at h
  | ok d =>
    simp only [hd, bind, Except.bind] at h
    split at h
    · next hdefault =>
      cases h
      exact ⟨find_eq_ok.1 hd, hdefault⟩
    · cases h

theorem default_accounts {events : List HookEvent} (h : default r k = .ok (v, events)) :
    Accounts events 0 0 v.goods :=
  TypeDescriptor.default?_accounts (default_eq_ok h).2

end ComponentValue

namespace Goods

def ofOwned (vs : Multiset ComponentValue) : Goods := (vs.map ComponentValue.goods).sum

@[simp] theorem ofOwned_zero : ofOwned 0 = 0 := rfl

@[simp] theorem ofOwned_add (vs ws : Multiset ComponentValue) :
    ofOwned (vs + ws) = ofOwned vs + ofOwned ws := by
  simp [ofOwned]

@[simp] theorem ofOwned_singleton (v : ComponentValue) : ofOwned {v} = v.goods := by
  simp [ofOwned]

/-- What is used up if and only if an operation succeeds. -/
def ifDone {α : Type} (r : Except EcsError α) (g : Goods) : Goods :=
  match r with
  | .ok _ => g
  | .error _ => 0

@[simp] theorem ifDone_zero {α : Type} (r : Except EcsError α) : ifDone r 0 = 0 := by
  cases r <;> rfl

end Goods

namespace World

variable {u v w : World} {e : Entity} {id : Id} {l : Location} {a b t : Archetype}
variable {i j : ArchetypeId} {events : List HookEvent} {taken taken' given given' : Goods}

def goods (w : World) : Goods := w.storage.goods

def Books (w v : World) (taken given : Goods) : Prop :=
  ∃ events, v.events = events.reverse ++ w.events ∧ Accounts events w.goods taken (v.goods + given)

namespace Books

theorem of_same (hs : v.storage = w.storage) (he : v.events = w.events) : w.Books v 0 0 := by
  refine ⟨[], by rw [he]; rfl, ?_⟩
  rw [goods, goods, hs, add_zero]
  exact .nil _

theorem refl (w : World) : w.Books w 0 0 := of_same rfl rfl

theorem pass (w : World) (g : Goods) : w.Books w g g := by
  refine ⟨[], rfl, ?_⟩
  simp [Accounts]

theorem trans (h₁ : w.Books u taken given) (h₂ : u.Books v taken' given') :
    w.Books v (taken + taken') (given + given') := by
  obtain ⟨first, hfirst, hs₁⟩ := h₁
  obtain ⟨more, hmore, hs₂⟩ := h₂
  refine ⟨first ++ more, by rw [hmore, hfirst]; simp, ?_⟩
  refine (hs₁.append (hs₂.frame given)).of_eq rfl ?_
  abel

theorem after (h₁ : w.Books u 0 0) (h₂ : u.Books v taken given) : w.Books v taken given := by
  simpa using h₁.trans h₂

theorem note (h : Accounts events w.goods taken (w.goods + given)) :
    w.Books (w.note events) taken given := ⟨events, rfl, h⟩

theorem writeTable (ha : w.storage.get? i = some a) (ht : t.id = i)
    (h : Accounts events a.goods taken t.goods) :
    w.Books ({ w with storage := w.storage.set t }.note events) taken 0 := by
  refine ⟨events, rfl, ?_⟩
  rw [add_zero]
  exact Storage.set_accounts ha ht h

theorem prepare {s : Storage} (h : w.WellFormed) (hs : w.storage.Prepared s) :
    w.Books { w with storage := s } 0 0 := by
  refine ⟨[], rfl, ?_⟩
  rw [goods, goods, Storage.Numbered.goods_prepared h.storage.numbered hs, add_zero]
  exact .nil _

end Books

/-! ### Moving a row -/

theorem WellFormed.moveTo_books (h : w.WellFormed) (hs : w.Stands e l a)
    (hb : w.storage.get? j = some b) (hne : j ≠ l.archetype) :
    w.Books (w.moveTo e l j) 0 0 := by
  unfold moveTo
  split
  · next m hm =>
    refine ⟨m.events, ?_, ?_⟩
    · rw [relocate_eq]
      rfl
    · rw [relocate_eq, add_zero]
      exact h.storage.moveRow_accounts hs.table hb hne hm
  · exact .refl w

theorem WellFormed.moveTo_table (h : w.WellFormed) (hs : w.Stands e l a)
    (hb : w.storage.get? j = some b) (hne : j ≠ l.archetype) :
    ∃ t, (w.moveTo e l j).storage.get? j = some t ∧ t.id = j ∧ t.ids = b.ids ∧
      t.Shaped w.registry := by
  obtain ⟨t, events, hmove, hframe, htypes, -⟩ := h.moveTo_eq hs hb
  have htid : t.id = j := by rw [hframe, ← h.storage.numbered j b hb]
  subst htid
  rw [hmove]
  exact ⟨t, get?_moved h hs hb hne b.size, rfl, by rw [hframe],
    (h.storage.shaped _ b hb).congr (by rw [hframe]) htypes⟩

theorem WellFormed.remove_books (h : w.WellFormed) (hf : w.Fits) (e : Entity) (id : Id) :
    w.Books (w.remove e id).2 0 0 := by
  cases halive : w.isAlive e with
  | false =>
    simp only [World.remove, place_of_not_isAlive halive]
    exact .refl w
  | true =>
    obtain ⟨l, a, hs⟩ := h.stands halive
    have htables := hf.tables
    obtain ⟨j, s, hwithout, hwf, hext, b, hb, -⟩ :=
      h.storage.withoutId hs.table id fun _ => by omega
    obtain ⟨a', hs', -, -⟩ := hs.extend hext
    have hprepare := Books.prepare h (Storage.withoutId_prepared hwithout)
    simp only [World.remove, hs.place, hwithout]
    split
    · exact hprepare
    · next hne =>
      exact hprepare.after ((h.extend_becomes hwf hext).wellFormed.moveTo_books hs' hb hne)

theorem WellFormed.insertWith_books (h : w.WellFormed) (hf : w.Fits) (hs : w.Stands e l a)
    (hw : id.isWildcard = false) (hid : id ∉ a.ids) {d : TypeDescriptor}
    (hd : w.registry.descriptor? id.typeHandle = some d) {fill : Column → Column × List HookEvent}
    (hfill : ∀ c, c.type = d → Accounts (fill c).2 c.goods taken (fill c).1.goods) :
    w.Books (w.insertWith e l id fill).2 taken 0 := by
  have htables := hf.tables
  obtain ⟨j, s, hwith, hwf, hext, b, hb, hbids⟩ :=
    h.storage.withId hs.table (fun _ => by omega) hw hid ⟨d, hd⟩
  obtain ⟨a', hs', hids, -⟩ := hs.extend hext
  have hv := (h.extend_becomes hwf hext).wellFormed
  have hmem : id ∈ b.ids := by
    rw [hbids, Storage.mem_insertId (h.shaped hs).sorted hid]
    exact .inl rfl
  have hne : j ≠ l.archetype := by
    intro hj
    subst hj
    have hab : b = a' := Option.some.inj (hb.symm.trans hs'.table)
    rw [hab, hids] at hmem
    exact hid hmem
  obtain ⟨t, ht, htid, htids, hshaped⟩ := hv.moveTo_table hs' hb hne
  have hcol := hshaped.isSome_cells.2 (htids ▸ hmem)
  rw [Archetype.cells, Option.isSome_map, Option.isSome_iff_exists] at hcol
  obtain ⟨c, hc⟩ := hcol
  have htype : c.type = d := Option.some.inj ((hshaped.descriptor?_of_column? hc).symm.trans hd)
  have hmove := (Books.prepare h (Storage.withId_prepared hwith)).after
    (hv.moveTo_books hs' hb hne)
  simp only [World.insertWith, hwith, ht]
  refine hmove.after (.writeTable ht ?_ (Archetype.updateColumn_accounts hc (hfill c htype)))
  rw [Archetype.updateColumn_fst]
  exact htid

theorem WellFormed.add_books (h : w.WellFormed) (hf : w.Fits) (e : Entity) (id : Id) :
    w.Books (w.add e id).2 0 0 := by
  cases halive : w.isAlive e with
  | false =>
    simp only [World.add, place_of_not_isAlive halive]
    exact .refl w
  | true =>
    obtain ⟨l, a, hs⟩ := h.stands halive
    cases hcheck : w.checkId id with
    | error err =>
      simp only [World.add, hs.place, hcheck]
      exact .refl w
    | ok d =>
      obtain ⟨hd, hw, -⟩ := checkId_eq_ok hcheck
      simp only [World.add, hs.place, hcheck]
      split
      · exact .refl w
      · next hhas =>
        rw [hs.has, Archetype.contains_iff hw] at hhas
        split
        · exact .refl w
        · exact h.insertWith_books hf hs hw hhas hd fun c _ => c.pushDefault_accounts

theorem WellFormed.put_books (h : w.WellFormed) (hf : w.Fits) (e : Entity) (id : Id) (x : Value)
    (how : Transfer) {g : Goods} (hg : ∀ d, w.descriptor? id.typeHandle = some d → d.item x = g) :
    w.Books (w.put e id x how).2 (ifDone (w.put e id x how).1 (how.taking g)) 0 := by
  cases halive : w.isAlive e with
  | false =>
    simp only [World.put, place_of_not_isAlive halive]
    exact .refl w
  | true =>
    obtain ⟨l, a, hs⟩ := h.stands halive
    cases hcheck : w.checkId id with
    | error err =>
      simp only [World.put, hs.place, hcheck]
      exact .refl w
    | ok d =>
      obtain ⟨hd, hw, -⟩ := checkId_eq_ok hcheck
      have hitem := hg d hd
      have hshaped := h.shaped hs
      cases hcol : a.column? id with
      | some c =>
        have htype : c.type = d :=
          Option.some.inj ((hshaped.descriptor?_of_column? hcol).symm.trans hd)
        have hsize : c.rows.size = a.size :=
          hshaped.filled_iff.1 (h.storage.filled _ a hs.table) id c.rows
            (by rw [Archetype.cells, hcol]; rfl)
        have hrow : l.row < c.size := by
          rw [Column.size, hsize]
          exact hs.row_lt
        have hassign := how.assign_accounts c x hrow
        rw [htype, hitem] at hassign
        simp only [World.put, hs.place, hcheck, hs.table, hcol]
        refine .writeTable hs.table ?_ (Archetype.updateColumn_accounts hcol hassign)
        rw [Archetype.updateColumn_fst]
        exact h.storage.numbered _ a hs.table
      | none =>
        have hid : id ∉ a.ids := by
          rw [← hshaped.isSome_cells, Archetype.cells, hcol]
          exact Bool.false_ne_true
        have hdone := (h.insertWith hf hs hw hid hd (v := x) (fun c => how.type_push c x)
          fun c _ => how.rows_push c x).answer
        simp only [World.put, hs.place, hcheck, hs.table, hcol, hdone]
        refine h.insertWith_books hf hs hw hid hd fun c hc => ?_
        rw [← hitem, ← hc]
        exact how.push_accounts c x

/-! ### Entities -/

theorem WellFormed.spawn_books (h : w.WellFormed) : w.Books w.spawn.2 0 0 := by
  obtain ⟨a, ha, -, hspawn⟩ := spawn_eq h
  rw [hspawn]
  refine ⟨[], rfl, ?_⟩
  have hgoods : (w.storage.set (a.pushEntity w.entities.allocate.1)).goods = w.storage.goods :=
    Storage.goods_set ha (h.storage.numbered _ a ha) rfl
  rw [add_zero]
  exact (Accounts.nil _).of_eq rfl hgoods

theorem WellFormed.despawnOne_books (h : w.WellFormed) (he : w.isAlive e = true) :
    w.Books (w.despawnOne e) 0 0 := by
  obtain ⟨l, a, hs⟩ := h.stands he
  obtain ⟨places, n, k, -, heq⟩ := hs.despawnOne_eq
  have hdrop := Archetype.dropRow_accounts l.row a.columns
  rw [Archetype.dropRow_fst] at hdrop
  rw [heq]
  refine ⟨(Archetype.dropRow l.row a.columns).2, rfl, ?_⟩
  rw [add_zero]
  exact Storage.set_accounts (t := a.vacate l.row) hs.table (h.storage.numbered _ a hs.table) hdrop

theorem goods_shutdown (w : World) : w.shutdown.goods = 0 := by
  obtain ⟨heard, heq⟩ := shutdown_eq w
  rw [heq]
  rfl

theorem shutdown_books (w : World) : w.Books w.shutdown 0 0 := by
  refine ⟨w.storage.dropAll, ?_, ?_⟩
  · obtain ⟨heard, heq⟩ := shutdown_eq w
    rw [heq]
  · rw [goods_shutdown, add_zero]
    exact w.storage.dropAll_accounts

/-! ### Operations without values of the host -/

/-- Nothing goes in or out on the way from `w` to `v`, and the types stay as they are. -/
structure Neutral (w v : World) : Prop where
  leads : w.Leads v
  registry : w.WellFormed → v.Fits → v.registry = w.registry
  books : w.WellFormed → v.Fits → w.Books v 0 0

namespace Neutral

theorem trans (h₁ : u.Neutral v) (h₂ : v.Neutral w) : u.Neutral w where
  leads := h₁.leads.trans h₂.leads
  registry hu hf :=
    have hv := h₂.leads.grows.fits hf
    (h₂.registry (h₁.leads.keeps hu hv) hf).trans (h₁.registry hu hv)
  books hu hf :=
    have hv := h₂.leads.grows.fits hf
    (h₁.books hu hv).after (h₂.books (h₁.leads.keeps hu hv) hf)

theorem of_same (hr : v.registry = w.registry) (hn : v.entities = w.entities)
    (hs : v.storage = w.storage) (hl : v.slot? = w.slot?) (he : v.events = w.events) :
    w.Neutral v :=
  ⟨.of_same hr hn hs hl, fun _ _ => hr, fun _ _ => .of_same hs he⟩

end Neutral

theorem registry_spawn (w : World) : w.spawn.2.registry = w.registry := by
  unfold spawn
  simp only
  split <;> rfl

theorem along_neutral : Along Neutral where
  refl _ := .of_same rfl rfl rfl rfl rfl
  trans := .trans
  setName w e name := by
    obtain ⟨n, k, heq⟩ := setName_eq w e name
    rw [heq]
    exact .of_same rfl rfl rfl rfl rfl
  listeners _ _ := .of_same rfl rfl rfl rfl rfl
  spawn w := ⟨spawn_leads w, fun _ _ => registry_spawn w, fun h _ => h.spawn_books⟩
  add w e id :=
    ⟨add_leads w e id, fun h hf => (h.add ((add_grows w e id).fits hf) e id).becomes.registry,
      fun h hf => h.add_books ((add_grows w e id).fits hf) e id⟩
  remove w e id :=
    ⟨remove_leads w e id,
      fun h hf => (h.remove ((remove_grows w e id).fits hf) e id).becomes.registry,
      fun h hf => h.remove_books ((remove_grows w e id).fits hf) e id⟩
  despawnOne he :=
    ⟨throughout_leads.despawnOne he, fun h _ => (h.despawnOne he).registry,
      fun h _ => h.despawnOne_books he⟩

theorem registerType_books (w : World) (d : TypeDescription) :
    w.Books (w.registerType d).2 0 0 := by
  unfold registerType
  split <;> exact .of_same rfl rfl

/-! ### Values of the host -/

theorem WellFormed.putTyped_books (h : w.WellFormed) (hf : w.Fits) (e : Entity) (k : TypeHandle)
    (t : HostType) (x : Value) (how : Transfer) {g : Goods}
    (hg : ∀ d, w.descriptor? k = some d → d.item x = g) :
    w.Books (w.putTyped e k t x how).2 (ifDone (w.putTyped e k t x how).1 (how.taking g)) 0 := by
  have hput := h.put_books hf e (Id.component k) x how (g := g)
    (by rw [Id.typeHandle_component]; exact hg)
  unfold World.putTyped
  split
  · exact .refl w
  · split
    · exact .refl w
    · exact hput

/-- If the handle of `v` means a type, then it is the type of `v`, or no account is kept of
either. -/
def Suits (w : World) (v : ComponentValue) : Prop :=
  ∀ d, w.descriptor? v.handle = some d → d.managed = true ∨ v.type.managed = true → d = v.type

def itemOf (w : World) (h : TypeHandle) (v : Value) : Goods :=
  match w.descriptor? h with
  | some d => d.item v
  | none => 0

theorem itemOf_eq {k : TypeHandle} {d : TypeDescriptor} (x : Value)
    (hd : w.descriptor? k = some d) : d.item x = w.itemOf k x := by
  rw [itemOf, hd]

/-- What a value counts as that the world takes: if it is stored, as one of the type that its handle
means, and if not, as what it is when it is destroyed. -/
def lodged {α : Type} (w : World) (v : ComponentValue) (r : Except EcsError α) : Goods :=
  match r with
  | .ok _ => w.itemOf v.handle v.value
  | .error _ => v.goods

theorem lodged_map {α β : Type} (w : World) (v : ComponentValue) (r : Except EcsError α)
    (f : α → β) : w.lodged v (r.map f) = w.lodged v r := by
  cases r <;> rfl

theorem lodged_eq_goods_iff {α : Type} {v : ComponentValue} {r : Except EcsError α}
    (htype : ∀ a, r = .ok a → ∃ d, w.descriptor? v.handle = some d) :
    w.lodged v r = v.goods ↔ ∀ a, r = .ok a → w.Suits v := by
  cases r with
  | error err => exact iff_of_true rfl nofun
  | ok a =>
    obtain ⟨d, hd⟩ := htype a rfl
    rw [lodged, ← itemOf_eq v.value hd, ComponentValue.goods, TypeDescriptor.item_eq_item_iff]
    constructor
    · intro hsame _ _ d' hd'
      obtain rfl := Option.some.inj (hd.symm.trans hd')
      exact hsame
    · intro hsuits
      exact hsuits a rfl d hd

theorem exists_descriptor?_of_put {x : Value} {how : Transfer}
    (hok : (w.put e id x how).1 = .ok ()) : ∃ d, w.descriptor? id.typeHandle = some d := by
  unfold put at hok
  split at hok
  · cases hok
  · split at hok
    · cases hok
    · next d hcheck => exact ⟨d, (checkId_eq_ok hcheck).1⟩

theorem exists_descriptor?_of_writeValue {v : ComponentValue} {a : Unit}
    (hok : (w.writeValue e v).1 = .ok a) : ∃ d, w.descriptor? v.handle = some d := by
  unfold writeValue at hok
  split at hok
  · next u hput =>
    have hstored : (w.put e (Id.component v.handle) v.value .move).1 = .ok () := by rw [hput]
    simpa using exists_descriptor?_of_put hstored
  · cases hok

theorem WellFormed.writeValue_books (h : w.WellFormed) (hf : w.Fits) (e : Entity)
    (v : ComponentValue) :
    w.Books (w.writeValue e v).2 (w.lodged v (w.writeValue e v).1) 0 := by
  have hput := h.put_books hf e (Id.component v.handle) v.value .move
    (g := w.itemOf v.handle v.value) fun d hd => by
      rw [Id.typeHandle_component] at hd
      exact itemOf_eq v.value hd
  unfold World.writeValue
  split
  · next hr =>
    rw [hr] at hput
    exact hput
  · next u hr =>
    rw [hr] at hput
    refine Books.after hput (.note ?_)
    rw [add_zero]
    exact v.dropEvents_takes u.goods

/-- The type that `v` was built for is a type of the world. -/
def Registered (w : World) (v : ComponentValue) : Prop := w.descriptor? v.handle = some v.type

theorem Registered.suits {x : ComponentValue} (h : w.Registered x) : w.Suits x := fun _ hd _ =>
  Option.some.inj (hd.symm.trans h)

theorem WellFormed.registered (h : w.WellFormed) {k : TypeHandle} {x : ComponentValue}
    (hk : w.descriptor? k = some x.type) : w.Registered x := by
  rw [Registered, ComponentValue.handle, h.registry.numbered k x.type hk, hk]

theorem WellFormed.writeBytes_books (h : w.WellFormed) (hf : w.Fits) (e : Entity) (k : TypeHandle)
    (bytes : Bytes) : w.Books (w.writeBytes e k bytes).2
      (ofOwned (ComponentValue.received (ComponentValue.ofBytes w.registry k bytes))) 0 := by
  unfold World.writeBytes
  cases hv : ComponentValue.ofBytes w.registry k bytes with
  | error err => exact .refl w
  | ok v =>
    have hsuits := (h.registered (ComponentValue.type_ofBytes hv)).suits
    have hlodged := (lodged_eq_goods_iff fun _ => exists_descriptor?_of_writeValue (e := e)).2
      fun _ _ => hsuits
    rw [ComponentValue.received_ok, ofOwned_singleton, ← hlodged]
    exact h.writeValue_books hf e v

theorem build_default_books (w : World) (k : TypeHandle) : w.Books (w.build (.default k)).2 0
    (ofOwned (ComponentValue.received (w.build (.default k)).1)) := by
  simp only [build]
  cases hv : ComponentValue.default w.registry k with
  | error err => exact .refl w
  | ok p =>
    refine .note ?_
    simpa [ComponentValue.received] using (ComponentValue.default_accounts hv).frame_left w.goods

theorem build_snd (w : World) {r : Recipe} (hr : ∀ k, r ≠ .default k) : (w.build r).2 = w := by
  cases r with
  | default k => exact absurd rfl (hr k)
  | filled k bs =>
    unfold build
    simp only
    split <;> rfl
  | _ => rfl

end World
end EntityWorld
