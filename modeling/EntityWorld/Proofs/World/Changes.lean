import EntityWorld.Proofs.World.WellFormed
import EntityWorld.World.Value
set_option autoImplicit false

/-!
Operations on one entity as changes of the contents. An operation `Becomes` a map if it leaves a
well-formed world that stands for this map and differs in the rows alone.
-/
namespace EntityWorld

namespace Contents

def create (c : Contents) (e : Entity) : Contents := Function.update c e (some fun _ => none)

def set (c : Contents) (e : Entity) (id : Id) (v : Value) : Contents :=
  Function.update c e ((c e).map fun m => Function.update m id (some v))

def unset (c : Contents) (e : Entity) (id : Id) : Contents :=
  Function.update c e ((c e).map fun m => Function.update m id none)

variable {c : Contents} {e : Entity} {id : Id} {m : Id → Option Value}

theorem unset_eq_self (he : c e = some m) (hid : m id = none) : c.unset e id = c := by
  unfold unset
  rw [he, Option.map_some, ← hid, Function.update_eq_self, ← he, Function.update_eq_self]

/-- Add `id` with the default value of its type, of which `check` tells whether it may be stored. -/
def add (c : Contents) (check : Id → Except EcsError TypeDescriptor) (e : Entity) (id : Id) :
    Except EcsError Bool × Contents :=
  match c e, check id with
  | none, _ => (.error (.staleHandle e), c)
  | some _, .error err => (.error err, c)
  | some m, .ok d =>
    match m id, d.default? with
    | some _, _ => (.ok false, c)
    | none, some (v, _) => (.ok true, c.set e id v)
    | none, none => (.error (.schema (.noDefault d.path)), c)

def remove (c : Contents) (e : Entity) (id : Id) : Except EcsError Bool × Contents :=
  match c e with
  | none => (.error (.staleHandle e), c)
  | some m => (.ok (m id).isSome, c.unset e id)

theorem remove_snd (c : Contents) (e : Entity) (id : Id) : (c.remove e id).2 = c.unset e id := by
  unfold remove
  split
  · next he => rw [unset, he, Option.map_none, ← he, Function.update_eq_self]
  · rfl

theorem value?_unset (c : Contents) (e x : Entity) (id i : Id) :
    (c.unset e id).value? x i = if x = e ∧ i = id then none else c.value? x i := by
  unfold unset value?
  by_cases hx : x = e
  · subst hx
    rw [Function.update_self]
    cases c x with
    | none => simp
    | some m =>
      by_cases hi : i = id
      · simp [hi]
      · simp [hi]
  · simp [hx]

def put (c : Contents) (check : Id → Except EcsError TypeDescriptor) (e : Entity) (id : Id)
    (v : Value) : Except EcsError Unit × Contents :=
  match c e, check id with
  | none, _ => (.error (.staleHandle e), c)
  | some _, .error err => (.error err, c)
  | some _, .ok _ => (.ok (), c.set e id v)

end Contents

namespace World

variable {w v : World} {e x : Entity} {id : Id} {l : Location} {m : Id → Option Value}
variable {a b t : Archetype} {i j : ArchetypeId}

structure Becomes (w : World) (c : Contents) (v : World) : Prop where
  frame : v = { w with locations := v.locations, storage := v.storage, events := v.events }
  tables_le : w.storage.size ≤ v.storage.size
  wellFormed : v.WellFormed
  contents : v.contents = c

namespace Becomes

variable {c d : Contents}

theorem refl (h : w.WellFormed) : w.Becomes w.contents w := ⟨rfl, Nat.le_refl _, h, rfl⟩

theorem trans {u : World} (h₁ : w.Becomes c v) (h₂ : v.Becomes d u) : w.Becomes d u := by
  refine ⟨?_, Nat.le_trans h₁.tables_le h₂.tables_le, h₂.wellFormed, h₂.contents⟩
  rw [h₂.frame, h₁.frame]

theorem note (h : w.Becomes c v) (events : List HookEvent) : w.Becomes c (v.note events) :=
  ⟨by rw [h.frame]; rfl, h.tables_le, h.wellFormed.note events,
    (h.wellFormed.contents_congr (h.wellFormed.note events) rfl).trans h.contents⟩

theorem registry (h : w.Becomes c v) : v.registry = w.registry := by rw [h.frame]

theorem entities (h : w.Becomes c v) : v.entities = w.entities := by rw [h.frame]

theorem listeners (h : w.Becomes c v) : v.listeners = w.listeners := by rw [h.frame]

theorem isAlive (h : w.Becomes c v) (x : Entity) : v.isAlive x = w.isAlive x := by
  simp only [World.isAlive, h.entities]

end Becomes

/-- A result of an operation on `w` that is the result `s` on the contents. -/
structure Does {α : Type} (w : World) (r : α × World) (s : α × Contents) : Prop where
  answer : r.1 = s.1
  becomes : w.Becomes s.2 r.2

namespace Does

variable {α β : Type} {r : α × World} {s : α × Contents}

theorem refl (h : w.WellFormed) (x : α) : w.Does (x, w) (x, w.contents) := ⟨rfl, .refl h⟩

theorem map (h : w.Does r s) (f : α → β) : w.Does (f r.1, r.2) (f s.1, s.2) :=
  ⟨by rw [h.answer], h.becomes⟩

theorem note (h : w.Does r s) (events : List HookEvent) : w.Does (r.1, r.2.note events) s :=
  ⟨h.answer, h.becomes.note events⟩

end Does

/-! ### Moving a row -/

theorem WellFormed.extend_becomes {s : Storage} (h : w.WellFormed) (hs : s.WellFormed w.registry)
    (hext : w.storage.Extends s) : w.Becomes w.contents { w with storage := s } :=
  ⟨rfl, hext.size_le, h.extend hs hext,
    h.contents_congr (h.extend hs hext) (funext hext.rows)⟩

theorem Stands.extend {s : Storage} (hs : w.Stands e l a) (hext : w.storage.Extends s) :
    ∃ a', { w with storage := s }.Stands e l a' ∧ a'.ids = a.ids ∧
      a'.value? l.row = a.value? l.row := by
  obtain ⟨a', ha', hids, hcols, hents⟩ := hext.tables _ a hs.table
  refine ⟨a', ⟨hs.alive, hs.location, ha', ?_⟩, hids, ?_⟩
  · rw [hents]
    exact hs.entity
  · funext id
    simp only [Archetype.value?, Archetype.column?, Archetype.columnIndex?, hcols, hids]

/-- The world in which the row of `e` has left its table and stands in the table `t`. -/
def moved (w : World) (e : Entity) (l : Location) (a : Archetype) (j : ArchetypeId) (n : Nat)
    (t : Archetype) : World :=
  { (w.relocate (Storage.movedBy a l.row) l.row).setLocation e.index (some ⟨j, n⟩) with
    storage := (w.storage.set (a.vacate l.row)).set t }

theorem relocate_eq (w : World) (moved : Option Entity) (row : Nat) :
    w.relocate moved row = { w with locations := (w.relocate moved row).locations } := by
  unfold relocate
  cases moved with
  | none => rfl
  | some x => cases h : (w.locations[x.index.toNat]?).join <;> simp only [h]

theorem relocate_storage (w : World) (s : Storage) (moved : Option Entity) (row : Nat) :
    { w with storage := s }.relocate moved row = { w.relocate moved row with storage := s } := by
  unfold relocate
  cases moved with
  | none => rfl
  | some x => cases h : (w.locations[x.index.toNat]?).join <;> simp only [h]

theorem moved_eq (w : World) (e : Entity) (l : Location) (a : Archetype) (j : ArchetypeId) (n : Nat)
    (t : Archetype) : w.moved e l a j n t =
      { w with locations := (w.moved e l a j n t).locations,
               storage := (w.storage.set (a.vacate l.row)).set t } := by
  rw [moved, relocate_eq]
  rfl

theorem slot?_moved {last : Entity} (n : Nat) (hslot : ∀ i, i ≠ e.index →
      (w.relocate (Storage.movedBy a l.row) l.row).slot? i =
        if i = last.index then some l else w.slot? i) :
    (w.moved e l a j n t).slot? = Function.update (fun i => if i = e.index then none
      else if i = last.index then some l else w.slot? i) e.index (some ⟨j, n⟩) := by
  have hm : (w.moved e l a j n t).slot? = ((w.relocate (Storage.movedBy a l.row) l.row).setLocation
      e.index (some ⟨j, n⟩)).slot? := rfl
  rw [hm, slot?_setLocation]
  funext i
  by_cases hi : i = e.index
  · rw [hi, Function.update_self, Function.update_self]
  · rw [Function.update_of_ne hi, Function.update_of_ne hi, if_neg hi]
    exact hslot i hi

theorem WellFormed.get?_set_vacate (h : w.WellFormed) (hs : w.Stands e l a)
    (hb : w.storage.get? j = some b) (hne : j ≠ l.archetype) :
    (w.storage.set (a.vacate l.row)).get? j = some b := by
  have hnum := h.storage.numbered _ a hs.table
  rw [Storage.get?_set (a := a) (by exact hnum ▸ hs.table), if_neg (by exact hnum ▸ hne), hb]

theorem WellFormed.moved (h : w.WellFormed) (hs : w.Stands e l a)
    (hb : w.storage.get? j = some b) (hne : j ≠ l.archetype)
    (hframe : t = { b with columns := t.columns, entities := t.entities })
    (htypes : t.columns.map Column.type = b.columns.map Column.type) (hg : b.Gains t e m) :
    w.Becomes (Function.update w.contents e (some m)) (w.moved e l a j b.size t) := by
  obtain ⟨last, k, hlast, hslot⟩ := h.slot?_vacate hs
  have h₁ := h.storage.set_vacate hs.table hs.row_lt
  have hrows₁ := h.storage.row?_set_vacate hs.table hs.row_lt
  have hb₁ := h.get?_set_vacate hs hb hne
  obtain ⟨h₂, hrows₂⟩ := h₁.set_gains hb₁ hframe htypes hg
  have hfree := Storage.row?_size hb₁
  rw [hrows₁] at hrows₂ hfree
  have hplaced := (h.placed.vacate hs.row hlast).occupy hfree (if_pos rfl) m
  have hslotv := slot?_moved (j := j) (t := t) b.size (hslot w fun _ _ => rfl)
  have heq := moved_eq w e l a j b.size t
  obtain ⟨v, hv⟩ : ∃ v, w.moved e l a j b.size t = v := ⟨_, rfl⟩
  rw [hv] at hslotv heq ⊢
  have halive : ∀ x, v.isAlive x = true ↔ (w.isAlive x = true ∧ x ≠ e) ∨ x = e := by
    intro x
    rw [heq]
    by_cases hx : x = e
    · simp [hx, isAlive, show w.entities.isAlive e = true from hs.alive]
    · simp [hx, isAlive]
  have hstorage : v.storage = (w.storage.set (a.vacate l.row)).set t := by rw [heq]
  have hregistry : v.registry = w.registry := by rw [heq]
  obtain ⟨hwf, hc⟩ : v.WellFormed ∧ v.contents = Function.update w.contents e (some m) := by
    refine WellFormed.of_placed (by rw [hregistry]; exact h.registry)
      (by rw [heq]; exact h.entities) (by rw [hstorage, hregistry]; exact h₂)
      (by rw [hstorage, hrows₂]) hslotv halive hplaced ?_
    intro x k'
    rw [RowMap.Placed.holds_occupy hfree, h.placed.holds_vacate hs.row hlast]
    by_cases hx : x = e
    · simp [hx, eq_comm]
    · simp [hx, h.contents_eq_some_iff]
  refine ⟨by rw [heq], Nat.le_of_eq ?_, hwf, hc⟩
  rw [hstorage, Storage.size_set, Storage.size_set]

theorem get?_moved (h : w.WellFormed) (hs : w.Stands e l a) (hb : w.storage.get? t.id = some b)
    (hne : t.id ≠ l.archetype) (n : Nat) :
    (w.moved e l a t.id n t).storage.get? t.id = some t := by
  have hb' := h.get?_set_vacate hs hb hne
  have hstorage : (w.moved e l a t.id n t).storage = (w.storage.set (a.vacate l.row)).set t := rfl
  rw [hstorage, Storage.get?_set hb', if_pos rfl]

theorem set_moved (w : World) (e : Entity) (l : Location) (a : Archetype) (j : ArchetypeId)
    (n : Nat) (hid : b.id = t.id) :
    { w.moved e l a j n t with storage := (w.moved e l a j n t).storage.set b } =
      w.moved e l a j n b := by
  have hstorage : (w.moved e l a j n t).storage.set b = (w.storage.set (a.vacate l.row)).set b :=
    Storage.set_set _ hid
  rw [hstorage]
  rfl

theorem WellFormed.moveTo_eq (h : w.WellFormed) (hs : w.Stands e l a)
    (hb : w.storage.get? j = some b) :
    ∃ t events, w.moveTo e l j = (w.moved e l a j b.size t).note events ∧
      t = { b with columns := t.columns, entities := b.entities.push e } ∧
      t.columns.map Column.type = b.columns.map Column.type ∧
      ∀ id, t.cells id = (b.cells id).map fun vs =>
        match a.value? l.row id with
        | some v => vs.push v
        | none => vs := by
  obtain ⟨t, events, hm, ht⟩ := h.storage.moveRow_eq hs.table hb e l.row
  refine ⟨t, events, ?_, ht⟩
  simp only [moveTo, hm, relocate_storage]
  rfl

/-! ### Removing an id -/

theorem Stands.place (hs : w.Stands e l a) : w.place e = .ok l := by
  simp only [World.place, hs.location]

theorem place_of_not_isAlive (he : w.isAlive e = false) : w.place e = .error (.staleHandle e) := by
  simp [place, location?_eq, he]

theorem WellFormed.moveTo_without (h : w.WellFormed) (hs : w.Stands e l a)
    (hb : w.storage.get? j = some b) (hids : b.ids = a.ids.filter fun own => own ≠ id)
    (hne : j ≠ l.archetype) : w.Becomes (w.contents.unset e id) (w.moveTo e l j) := by
  obtain ⟨t, events, hmove, hframe, htypes, hcells⟩ := h.moveTo_eq hs hb
  have hmem : ∀ x, x ∈ b.ids ↔ x ∈ a.ids ∧ x ≠ id := by simp [hids]
  have hg : b.Gains t e (Function.update (a.value? l.row) id none) := by
    refine Storage.gains_of_takeRow (h.storage.shaped j b hb) hframe hcells (fun x hx => ?_)
      (fun x hx => ?_)
    · obtain ⟨hxa, hxid⟩ := (hmem x).1 hx
      rw [Function.update_of_ne hxid]
      exact ⟨rfl, (h.isSome_value?_iff hs).2 hxa⟩
    · by_cases hxid : x = id
      · rw [hxid, Function.update_self]
      · rw [Function.update_of_ne hxid, h.value?_eq_none_iff hs]
        exact fun hxa => hx ((hmem x).2 ⟨hxa, hxid⟩)
  rw [Contents.unset, hs.contents, Option.map_some, hmove]
  exact (h.moved hs hb hne (by rw [hframe]) htypes hg).note events

theorem WellFormed.remove (h : w.WellFormed) (hf : w.Fits) (e : Entity) (id : Id) :
    w.Does (w.remove e id) (w.contents.remove e id) := by
  cases halive : w.isAlive e with
  | false =>
    simp only [World.remove, place_of_not_isAlive halive, Contents.remove,
      contents_eq_none_iff.2 halive]
    exact .refl h _
  | true =>
  obtain ⟨l, a, hs⟩ := h.stands halive
  have he := hs.contents
  have htables := hf.tables
  obtain ⟨j, s, hwithout, hwf, hext, b, hb, hbids⟩ :=
    h.storage.withoutId hs.table id fun _ => by omega
  obtain ⟨a', hs', hids, -⟩ := hs.extend hext
  have hw := h.extend_becomes hwf hext
  rw [← hids] at hbids
  have hmem : (a.value? l.row id).isSome = true ↔ id ∈ a'.ids := by
    rw [hids, h.isSome_value?_iff hs]
  simp only [World.remove, hs.place, hwithout, Contents.remove, he]
  by_cases hj : j = l.archetype
  · -- the ids with and without `id` have the same table
    have hid : id ∉ a'.ids := by
      have hb' := hs'.table
      rw [← hj] at hb'
      have hbb : b.ids = a'.ids := congrArg Archetype.ids (Option.some.inj (hb.symm.trans hb'))
      rw [← hbb, hbids]
      simp
    have hnone : a.value? l.row id = none := by
      rw [← Option.isNone_iff_eq_none, ← Option.isSome_eq_false_iff, ← Bool.not_eq_true, hmem]
      exact hid
    rw [if_pos hj, hnone, Contents.unset_eq_self he hnone]
    exact ⟨rfl, hw⟩
  · have hid : id ∈ a'.ids := by
      by_contra hid
      have hbids' : b.ids = a'.ids := by
        rw [hbids, List.filter_eq_self]
        intro x hx
        simpa using fun hh : x = id => hid (hh ▸ hx)
      exact hj (hwf.eq_of_ids hb hs'.table hbids')
    have hmoved := hw.wellFormed.moveTo_without hs' hb hbids hj
    rw [hw.contents] at hmoved
    rw [if_neg hj, hmem.2 hid]
    exact ⟨rfl, hw.trans hmoved⟩

/-! ### Giving an id -/

theorem set_eq (he : w.contents e = some m) (id : Id) (v : Value) :
    w.contents.set e id v =
      Function.update w.contents e (some (Function.update m id (some v))) := by
  rw [Contents.set, he, Option.map_some]

theorem WellFormed.moveTo_with (h : w.WellFormed) (hs : w.Stands e l a)
    (hb : w.storage.get? j = some b) (hmem : ∀ x, x ∈ b.ids ↔ x = id ∨ x ∈ a.ids) (hid : id ∉ a.ids)
    {d : TypeDescriptor} (hd : w.registry.descriptor? id.typeHandle = some d)
    {fill : Column → Column × List HookEvent} {v : Value}
    (htype : ∀ c, (fill c).1.type = c.type)
    (hrows : ∀ c, c.type = d → (fill c).1.rows = c.rows.push v) :
    ∃ t, (w.moveTo e l j).storage.get? j = some t ∧
      w.Becomes (w.contents.set e id v) { w.moveTo e l j with
        storage := (w.moveTo e l j).storage.set (t.updateColumn id fill).1 } := by
  have hne : j ≠ l.archetype := by
    intro hj
    have hb' := hs.table
    rw [← hj, hb] at hb'
    cases hb'
    exact hid ((hmem id).2 (.inl rfl))
  obtain ⟨t, events, hmove, hframe, htypes, hcells⟩ := h.moveTo_eq hs hb
  have hbs := h.storage.shaped j b hb
  have hts : t.Shaped w.registry := hbs.congr (by rw [hframe]) htypes
  have htid : t.id = j := by rw [hframe, ← h.storage.numbered j b hb]
  subst htid
  have hg : b.Gains (t.updateColumn id fill).1 e
      (Function.update (a.value? l.row) id (some v)) := by
    refine Storage.gains_of_fill hbs hframe hcells ((hmem id).2 (.inl rfl))
      ((h.value?_eq_none_iff hs).2 hid) (fun x hx hxid => ?_) (fun x hx => ?_) (fun c hc => ?_)
    · rw [h.isSome_value?_iff hs]
      exact ((hmem x).1 hx).resolve_left hxid
    · rw [h.value?_eq_none_iff hs]
      exact fun hxa => hx ((hmem x).2 (.inr hxa))
    · refine hrows c ?_
      have hc' := hts.descriptor?_of_column? hc
      rw [hd] at hc'
      exact (Option.some.inj hc').symm
  have hutypes : (t.updateColumn id fill).1.columns.map Column.type = t.columns.map Column.type :=
    Archetype.types_updateColumn fill htype
  have huid : (t.updateColumn id fill).1.id = t.id := by rw [Archetype.updateColumn_fst]
  have hmoved := (h.moved hs hb hne (by rw [Archetype.updateColumn_fst, hframe])
    (hutypes.trans htypes) hg).note events
  rw [← set_eq hs.contents, ← set_moved w e l a t.id b.size huid] at hmoved
  rw [hmove]
  exact ⟨t, get?_moved h hs hb hne b.size, hmoved⟩

theorem WellFormed.insertWith (h : w.WellFormed) (hf : w.Fits) (hs : w.Stands e l a)
    (hw : id.isWildcard = false) (hid : id ∉ a.ids) {d : TypeDescriptor}
    (hd : w.registry.descriptor? id.typeHandle = some d)
    {fill : Column → Column × List HookEvent} {v : Value}
    (htype : ∀ c, (fill c).1.type = c.type)
    (hrows : ∀ c, c.type = d → (fill c).1.rows = c.rows.push v) :
    w.Does (w.insertWith e l id fill) (.ok (), w.contents.set e id v) := by
  have htables := hf.tables
  obtain ⟨j, s, hwith, hwf, hext, b, hb, hbids⟩ :=
    h.storage.withId hs.table (fun _ => by omega) hw hid ⟨d, hd⟩
  obtain ⟨a', hs', hids, -⟩ := hs.extend hext
  have hv := h.extend_becomes hwf hext
  have hmem : ∀ x, x ∈ b.ids ↔ x = id ∨ x ∈ a'.ids := fun x => by
    rw [hbids, hids, Storage.mem_insertId (h.shaped hs).sorted hid]
  obtain ⟨t, ht, hbecomes⟩ := hv.wellFormed.moveTo_with hs' hb hmem (hids ▸ hid) hd htype hrows
  rw [hv.contents] at hbecomes
  simp only [World.insertWith, hwith, ht]
  exact ⟨rfl, (hv.trans hbecomes).note _⟩

theorem checkId_eq_ok {d : TypeDescriptor} (hd : w.checkId id = .ok d) :
    w.registry.descriptor? id.typeHandle = some d ∧ id.isWildcard = false ∧
      (id.isPair = true → d.classification = .relationship) := by
  unfold checkId World.descriptor World.descriptor? at hd
  cases hr : w.registry.descriptor? id.typeHandle with
  | none => simp [hr] at hd
  | some d' =>
    simp only [hr] at hd
    split at hd
    · cases hd
    · next hw =>
      split at hd
      · cases hd
      · next hp =>
        cases hd
        refine ⟨rfl, by simpa using hw, fun hpair => ?_⟩
        by_contra hne
        exact hp (by simp [hpair, hne])

theorem canDefault_iff {d : TypeDescriptor} : d.canDefault = true ↔ d.default?.isSome = true := by
  unfold TypeDescriptor.default?
  cases hd : d.hooks.default with
  | some v => simp [TypeDescriptor.canDefault, hd]
  | none => cases hc : d.canDefault <;> simp

theorem Stands.has_eq_isSome (h : w.WellFormed) (hs : w.Stands e l a) (hw : id.isWildcard = false) :
    w.has e id = (a.value? l.row id).isSome := by
  rw [Bool.eq_iff_iff, hs.has, Archetype.contains_iff hw, h.isSome_value?_iff hs]

theorem WellFormed.add (h : w.WellFormed) (hf : w.Fits) (e : Entity) (id : Id) :
    w.Does (w.add e id) (w.contents.add w.checkId e id) := by
  cases halive : w.isAlive e with
  | false =>
    simp only [World.add, place_of_not_isAlive halive, Contents.add,
      contents_eq_none_iff.2 halive]
    exact .refl h _
  | true =>
    obtain ⟨l, a, hs⟩ := h.stands halive
    cases hcheck : w.checkId id with
    | error err =>
      simp only [World.add, hs.place, hcheck, Contents.add, hs.contents]
      exact .refl h _
    | ok d =>
      obtain ⟨hd, hw, -⟩ := checkId_eq_ok hcheck
      simp only [World.add, hs.place, hcheck, Contents.add, hs.contents, hs.has_eq_isSome h hw]
      cases hvalue : a.value? l.row id with
      | some v => exact .refl h _
      | none =>
        have hid := (h.value?_eq_none_iff hs).1 hvalue
        cases hdefault : d.default? with
        | none =>
          have hcan : d.canDefault = false := by
            rw [← Bool.not_eq_true, canDefault_iff, hdefault]
            exact Bool.false_ne_true
          simp only [Option.isSome_none, hcan, Bool.not_false, Bool.false_eq_true, if_true,
            if_false]
          exact .refl h _
        | some p =>
          obtain ⟨v, events⟩ := p
          have hcan : d.canDefault = true := canDefault_iff.2 (by rw [hdefault]; rfl)
          have hinsert : w.Does (w.insertWith e l id fun c => c.pushDefault.2)
              (.ok (), w.contents.set e id v) :=
            h.insertWith hf hs hw hid hd (fun c => c.type_pushDefault)
              (fun c hc => c.rows_pushDefault v (by rw [hc, hdefault]))
          simp only [Option.isSome_none, hcan, Bool.not_true, Bool.false_eq_true, if_false]
          exact hinsert.map fun result => result.map fun _ => true

/-! ### Writing a value -/

theorem WellFormed.write_table (h : w.WellFormed) (ha : w.storage.get? i = some a) (id : Id)
    {row : Nat} {f : Column → Column × List HookEvent} {u : Value}
    (htype : ∀ c, (f c).1.type = c.type)
    (hrows : ∀ c, (f c).1.rows = c.rows.setIfInBounds row u) :
    { w with storage := w.storage.set (a.updateColumn id f).1 }.WellFormed := by
  obtain ⟨hs, hset⟩ := h.storage.set_write ha id htype hrows
  refine ⟨h.registry, h.entities, hs, ?_⟩
  rw [hset]
  cases hrow : w.storage.row? ⟨i, row⟩ with
  | none =>
    rw [Option.map_none, ← hrow, Function.update_eq_self]
    exact h.placed
  | some x => exact h.placed.write hrow _

theorem WellFormed.write_row (h : w.WellFormed) (hs : w.Stands e l a) (hid : id ∈ a.ids)
    {f : Column → Column × List HookEvent} {u : Value} (htype : ∀ c, (f c).1.type = c.type)
    (hrows : ∀ c, (f c).1.rows = c.rows.setIfInBounds l.row u) :
    w.Becomes (w.contents.set e id u)
      { w with storage := w.storage.set (a.updateColumn id f).1 } := by
  have hwf := h.write_table hs.table id htype hrows
  obtain ⟨-, hset⟩ := h.storage.set_write hs.table id htype hrows
  obtain ⟨u', hu'⟩ := Option.isSome_iff_exists.1 ((h.isSome_value?_iff hs).2 hid)
  refine ⟨rfl, Nat.le_of_eq (Storage.size_set _ _).symm, hwf, ?_⟩
  funext x
  refine Option.ext fun k => ?_
  rw [hwf.contents_eq_some_iff, hset, hs.row, Option.map_some, h.placed.holds_write hs.row,
    set_eq hs.contents]
  simp only [hu', Option.map_some]
  by_cases hx : x = e
  · simp [hx, eq_comm]
  · simp [hx, h.contents_eq_some_iff]

theorem WellFormed.put (h : w.WellFormed) (hf : w.Fits) (e : Entity) (id : Id) (u : Value)
    (how : Transfer) : w.Does (w.put e id u how) (w.contents.put w.checkId e id u) := by
  cases halive : w.isAlive e with
  | false =>
    simp only [World.put, place_of_not_isAlive halive, Contents.put,
      contents_eq_none_iff.2 halive]
    exact .refl h _
  | true =>
    obtain ⟨l, a, hs⟩ := h.stands halive
    cases hcheck : w.checkId id with
    | error err =>
      simp only [World.put, hs.place, hcheck, Contents.put, hs.contents]
      exact .refl h _
    | ok d =>
      obtain ⟨hd, hw, -⟩ := checkId_eq_ok hcheck
      simp only [World.put, hs.place, hcheck, Contents.put, hs.contents, hs.table]
      have hcell : (a.cells id).isSome = true ↔ id ∈ a.ids := (h.shaped hs).isSome_cells
      rw [Archetype.cells, Option.isSome_map] at hcell
      cases hcol : a.column? id with
      | some c =>
        have hid := hcell.1 (by rw [hcol]; rfl)
        exact ⟨rfl, (h.write_row hs hid (fun c => how.type_assign c u l.row)
          (fun c => how.rows_assign c u l.row)).note _⟩
      | none =>
        have hid : id ∉ a.ids := by
          rw [← hcell, hcol]
          exact Bool.false_ne_true
        exact h.insertWith hf hs hw hid hd (fun c => how.type_push c u)
          (fun c _ => how.rows_push c u)

end World
end EntityWorld
