import EntityWorld.Proofs.StorageRows
import EntityWorld.Proofs.World.Mask
import EntityWorld.Query
set_option autoImplicit false

/-!
Worlds that agree on the values of some types. They have the same types, entities, tables and rows,
and may differ in all other values, in their names and listeners and in what their tables remember.
What is done with the values of these types ends the same in both.
-/
namespace EntityWorld

variable {p : TypeHandle → Bool}

/-- A table without the values in it. -/
structure Archetype.Outline where
  id : ArchetypeId
  ids : List Id
  types : List TypeDescriptor
  entities : Array Entity

namespace Archetype

variable {a b : Archetype} {id : Id}

def outline (a : Archetype) : Outline := ⟨a.id, a.ids, a.columns.map Column.type, a.entities⟩

theorem contains_congr (h : a.outline = b.outline) (id : Id) : a.contains id = b.contains id := by
  have hids : a.ids = b.ids := congrArg Outline.ids h
  rw [contains, contains, columnIndex?, columnIndex?, hids]

theorem isSome_column?_congr (h : a.outline = b.outline) (id : Id) :
    (a.column? id).isSome = (b.column? id).isSome := by
  have hids : a.ids = b.ids := congrArg Outline.ids h
  have htypes : a.columns.map Column.type = b.columns.map Column.type := congrArg Outline.types h
  rw [column?, column?, columnIndex?, columnIndex?, hids]
  cases lastIndexOf? id b.ids with
  | none => rfl
  | some i =>
    have hcolumn := congrArg (fun types => types[i]?.isSome) htypes
    simpa only [List.getElem?_map, Option.isSome_map] using hcolumn

theorem outline_updateColumn {f : Column → Column × List HookEvent}
    (hf : ∀ c, (f c).1.type = c.type) : (a.updateColumn id f).1.outline = a.outline := by
  have htypes : (a.updateColumn id f).1.columns.map Column.type = a.columns.map Column.type :=
    types_updateColumn f hf
  rw [updateColumn_fst] at htypes ⊢
  rw [outline, outline, Outline.mk.injEq]
  exact ⟨rfl, rfl, htypes, rfl⟩

theorem outline_mask (a : Archetype) : (a.mask p).outline = a.outline := by
  have htypes : (a.mask p).columns.map Column.type = a.columns.map Column.type := by
    refine List.ext_getElem? fun i => ?_
    rw [List.getElem?_map, List.getElem?_map, getElem?_mask, Option.map_map]
    refine congrArg (Option.map · _) (funext fun c => ?_)
    rw [Function.comp_apply]
    split <;> rfl
  rw [outline, outline, Outline.mk.injEq]
  exact ⟨rfl, rfl, htypes, rfl⟩

end Archetype

namespace Storage

def outlines (s : Storage) : Array Archetype.Outline := s.archetypes.map Archetype.outline

variable {s s' : Storage}

theorem getElem?_outlines (i : ArchetypeId) :
    s.outlines[i.raw.toNat]? = (s.get? i).map Archetype.outline := Array.getElem?_map

theorem outlines_set (s : Storage) (a : Archetype) :
    (s.set a).outlines = s.outlines.setIfInBounds a.id.raw.toNat a.outline :=
  Array.map_setIfInBounds

theorem outlines_mask (s : Storage) : (s.mask p).outlines = s.outlines := by
  rw [outlines, mask, Array.map_map]
  exact congrArg (Array.map · s.archetypes) (funext Archetype.outline_mask)

theorem get?_set_cases (h : s.outlines = s'.outlines) {a b : Archetype} (hab : a.id = b.id)
    (i : ArchetypeId) : (s.set a).get? i = s.get? i ∧ (s'.set b).get? i = s'.get? i ∨
      (s.set a).get? i = some a ∧ (s'.set b).get? i = some b := by
  have hsize : s.archetypes.size = s'.archetypes.size := by
    simpa [outlines] using congrArg Array.size h
  simp only [get?, set, Array.getElem?_setIfInBounds, hab, hsize]
  split
  · next hi =>
    split
    · exact .inr ⟨rfl, rfl⟩
    · next hout =>
      rw [hi] at hout
      have hlt := Nat.not_lt.1 hout
      exact .inl ⟨(Array.getElem?_eq_none (hsize ▸ hlt)).symm, (Array.getElem?_eq_none hlt).symm⟩
  · exact .inl ⟨rfl, rfl⟩

end Storage

namespace World

variable {w v u : World}

/-- Worlds with the same types, entities, tables and rows. -/
structure SameRows (w v : World) : Prop where
  registry : w.registry = v.registry
  isAlive : w.isAlive = v.isAlive
  location : w.location? = v.location?
  tables : w.storage.outlines = v.storage.outlines

namespace SameRows

theorem refl (w : World) : SameRows w w := ⟨rfl, rfl, rfl, rfl⟩

theorem symm (h : SameRows w v) : SameRows v w :=
  ⟨h.registry.symm, h.isAlive.symm, h.location.symm, h.tables.symm⟩

theorem trans (h : SameRows w v) (h' : SameRows v u) : SameRows w u :=
  ⟨h.registry.trans h'.registry, h.isAlive.trans h'.isAlive, h.location.trans h'.location,
    h.tables.trans h'.tables⟩

theorem of_mask (h : w.mask p = v.mask p) : SameRows w v := by
  have hregistry := congrArg (fun x : World => x.registry) h
  have halive := congrArg (fun x : World => x.isAlive) h
  have hlocation := congrArg (fun x : World => x.location?) h
  have htables := congrArg (fun x : World => x.storage.outlines) h
  exact ⟨hregistry, halive, hlocation,
    (Storage.outlines_mask _).symm.trans (htables.trans (Storage.outlines_mask _))⟩

theorem descriptor? (h : SameRows w v) (t : TypeHandle) : w.descriptor? t = v.descriptor? t :=
  congrArg (Registry.descriptor? · t) h.registry

theorem descriptor (h : SameRows w v) (t : TypeHandle) : w.descriptor t = v.descriptor t := by
  rw [World.descriptor, World.descriptor, h.descriptor?]

theorem resolve (h : SameRows w v) : w.resolve = v.resolve := by
  refine funext fun i => Option.ext fun e => ?_
  have halive : w.entities.isAlive e = v.entities.isAlive e := congrFun h.isAlive e
  exact Allocator.resolve_eq_some_iff.trans
    (halive ▸ (Allocator.resolve_eq_some_iff (a := v.entities)).symm)

theorem get? (h : SameRows w v) (i : ArchetypeId) :
    (w.storage.get? i).map Archetype.outline = (v.storage.get? i).map Archetype.outline := by
  rw [← Storage.getElem?_outlines, ← Storage.getElem?_outlines, h.tables]

theorem get?_cases (h : SameRows w v) (i : ArchetypeId) :
    w.storage.get? i = none ∧ v.storage.get? i = none ∨ ∃ a b, w.storage.get? i = some a ∧
      v.storage.get? i = some b ∧ a.outline = b.outline := by
  have hget := h.get? i
  cases ha : w.storage.get? i with
  | none =>
    rw [ha, Option.map_none, eq_comm, Option.map_eq_none_iff] at hget
    exact .inl ⟨rfl, hget⟩
  | some a =>
    rw [ha, Option.map_some, eq_comm, Option.map_eq_some_iff] at hget
    obtain ⟨b, hb, hba⟩ := hget
    exact .inr ⟨a, b, rfl, hb, hba.symm⟩

theorem numbered (h : SameRows w v) (hn : w.storage.Numbered) : v.storage.Numbered := by
  intro i b hb
  obtain ⟨-, hnone⟩ | ⟨a, b', ha, hb', hab⟩ := h.get?_cases i
  · cases hb.symm.trans hnone
  · cases hb.symm.trans hb'
    exact (congrArg Archetype.Outline.id hab).symm.trans (hn i a ha)

theorem rowHas (h : SameRows w v) (r : Row) (id : Id) : w.rowHas r id = v.rowHas r id := by
  obtain ⟨ha, hb⟩ | ⟨a, b, ha, hb, hab⟩ := h.get?_cases r.archetype
  · rw [World.rowHas, World.rowHas, ha, hb]
  · rw [World.rowHas, World.rowHas, ha, hb]
    exact Archetype.contains_congr hab id

theorem rowTarget (h : SameRows w v) (r : Row) (relation : TypeHandle) :
    w.rowTarget r relation = v.rowTarget r relation := by
  obtain ⟨ha, hb⟩ | ⟨a, b, ha, hb, hab⟩ := h.get?_cases r.archetype
  · rw [World.rowTarget, World.rowTarget, ha, hb]
  · have hids : a.ids = b.ids := congrArg Archetype.Outline.ids hab
    simp only [World.rowTarget, ha, hb, hids, h.resolve]

end SameRows

end World

/-! ### Queries -/

namespace Query

variable {w v : World}

def admitsOutline (q : Query) (o : Archetype.Outline) : Bool :=
  q.admits ⟨o.id, o.ids, o.types.map Column.new, o.entities, .empty, .empty⟩

theorem refresh_congr (h : World.SameRows w v) (q : Query) : q.refresh w = q.refresh v := by
  have hsize : w.storage.size = v.storage.size := by
    simpa [Storage.outlines, Storage.size] using congrArg Array.size h.tables
  have hsince (n : Nat) (q : Query) : ((w.storage.since n).filter q.admits).map (·.id) =
      ((v.storage.since n).filter q.admits).map (·.id) := by
    have hmap (s : Storage) : ((s.since n).filter q.admits).map (·.id) =
        ((s.outlines.toList.drop n).filter q.admitsOutline).map Archetype.Outline.id := by
      rw [Storage.outlines, Array.toList_map, ← List.map_drop, List.filter_map, List.map_map]
      rfl
    rw [hmap, hmap, h.tables]
  simp only [refresh, hsize, hsince]

theorem candidates_congr (h : World.SameRows w v) (q : Query) :
    q.candidates w = q.candidates v := by
  have hlost : q.targetLost w = q.targetLost v := by
    simp only [targetLost, h.isAlive]
  rw [candidates, candidates, hlost, refresh_congr h]

theorem rows_congr (h : World.SameRows w v) (q : Query) : q.rows w = q.rows v := by
  have htables (tables : List ArchetypeId) :
      (tables.filterMap w.storage.get?).flatMap tableRows =
        (tables.filterMap v.storage.get?).flatMap tableRows := by
    induction tables with
    | nil => rfl
    | cons i rest ih =>
      obtain ⟨ha, hb⟩ | ⟨a, b, ha, hb, hab⟩ := h.get?_cases i
      · rw [List.filterMap_cons_none ha, List.filterMap_cons_none hb, ih]
      · have hid : a.id = b.id := congrArg Archetype.Outline.id hab
        have hentities : a.entities = b.entities := congrArg Archetype.Outline.entities hab
        rw [List.filterMap_cons_some ha, List.filterMap_cons_some hb, List.flatMap_cons,
          List.flatMap_cons, ih, tableRows, tableRows, hid, hentities]
  simp only [rows, candidates_congr h, htables]

theorem rows_rows (q : Query) (w : World) : (q.rows w).1.rows w = q.rows w := by
  have hrefresh : (q.refresh w).refresh w = q.refresh w := by
    by_cases hseen : q.seen = w.storage.size
    · have hfirst : q.refresh w = q := if_pos hseen
      rw [hfirst, hfirst]
    · have hcount : (q.refresh w).seen = w.storage.size := by
        rw [refresh, if_neg hseen]
      exact if_pos hcount
  have hterms : (q.refresh w).terms = q.terms := by
    simp only [refresh]
    split
    · rfl
    · split <;> rfl
  have hcandidates : (q.candidates w).1.candidates w = q.candidates w := by
    by_cases hlost : q.targetLost w = true
    · have hfirst : q.candidates w = (q, []) := if_pos hlost
      rw [hfirst, hfirst]
    · have hlost' : ¬ (q.refresh w).targetLost w = true := by rwa [targetLost, hterms]
      have hfirst : q.candidates w = (q.refresh w, (q.refresh w).matched) := if_neg hlost
      rw [hfirst, candidates, if_neg hlost', hrefresh]
  simp only [rows, hcandidates]

end Query

/-! ### Agreement on values -/

namespace World

/-- The values of the types in `p` are the same as well. -/
structure Agree (p : TypeHandle → Bool) (w v : World) : Prop extends SameRows w v where
  values : ∀ (r : Row) (id : Id), p id.typeHandle = true → w.rowPeek r id = v.rowPeek r id

variable {w v u : World} {h : TypeHandle}

namespace Agree

theorem symm (hwv : Agree p w v) : Agree p v w :=
  ⟨hwv.toSameRows.symm, fun r id hid => (hwv.values r id hid).symm⟩

theorem of_mask (hmask : w.mask p = v.mask p) : Agree p w v :=
  ⟨.of_mask hmask, fun r id hid => by rw [← rowPeek_mask hid, hmask, rowPeek_mask hid]⟩

theorem note (hwv : Agree p w v) (events events' : List HookEvent) :
    Agree p (w.note events) (v.note events') :=
  ⟨⟨hwv.registry, hwv.isAlive, hwv.location, hwv.tables⟩, hwv.values⟩

theorem peek (hwv : Agree p w v) (e : Entity) {id : Id} (hid : p id.typeHandle = true) :
    w.peek e id = v.peek e id := by
  have hlocation : w.location? e = v.location? e := congrFun hwv.location e
  rw [World.peek, World.peek, hlocation]
  cases v.location? e with
  | none => rfl
  | some loc => exact hwv.values ⟨e, loc.archetype, loc.row⟩ id hid

theorem set (hwv : Agree p w v) {a b : Archetype} (hab : a.outline = b.outline)
    (hvalues : ∀ n id, p id.typeHandle = true → a.value? n id = b.value? n id) :
    Agree p { w with storage := w.storage.set a } { v with storage := v.storage.set b } := by
  have hid : a.id = b.id := congrArg Archetype.Outline.id hab
  refine ⟨⟨hwv.registry, hwv.isAlive, hwv.location, ?_⟩, fun r id hp => ?_⟩
  · simp only [Storage.outlines_set, hwv.tables, hid, hab]
  · have hold := hwv.values r id hp
    obtain ⟨ha, hb⟩ | ⟨ha, hb⟩ := Storage.get?_set_cases hwv.tables hid r.archetype
    · simp only [rowPeek, ha, hb]
      exact hold
    · simp only [rowPeek, ha, hb]
      exact hvalues r.row id hp

end Agree

/-- In worlds that agree it answers the same, and they agree again. -/
def Respects (p : TypeHandle → Bool) {α : Type} (f : World → α × World) : Prop :=
  ∀ w v, Agree p w v → (f w).1 = (f v).1 ∧ Agree p (f w).2 (f v).2

namespace Respects

variable {α β : Type} {f : World → α × World} {g : α → World → β × World}

theorem bind (hf : Respects p f) (hg : ∀ a, Respects p (g a)) :
    Respects p fun w => g (f w).1 (f w).2 := by
  intro w v hwv
  obtain ⟨hanswer, hworld⟩ := hf w v hwv
  simp only [hanswer]
  exact hg _ _ _ hworld

theorem map (hf : Respects p f) (g : α → β) : Respects p fun w => (g (f w).1, (f w).2) :=
  fun w v hwv => ⟨congrArg g (hf w v hwv).1, (hf w v hwv).2⟩

theorem of_pure (a : World → α) (ha : ∀ w v, Agree p w v → a w = a v) :
    Respects p fun w => (a w, w) :=
  fun w v hwv => ⟨ha w v hwv, hwv⟩

end Respects

theorem copyOut_respects (h : TypeHandle) (t : HostType) {x : World → Option Value}
    (hx : ∀ w v, Agree p w v → x w = x v) : Respects p fun w => w.copyOut h t (x w) := by
  intro w v hwv
  simp only [copyOut, hwv.descriptor h, hx w v hwv]
  split
  · exact ⟨rfl, hwv⟩
  · split
    · exact ⟨rfl, hwv⟩
    · split
      · exact ⟨rfl, hwv.note _ _⟩
      · exact ⟨rfl, hwv⟩

theorem valueOut_respects (id : Id) {x : World → Option Value}
    (hx : ∀ w v, Agree p w v → x w = x v) : Respects p fun w => w.valueOut id (x w) := by
  intro w v hwv
  simp only [valueOut, hwv.descriptor? id.typeHandle, hx w v hwv]
  split
  · exact ⟨rfl, hwv⟩
  · split
    · exact ⟨rfl, hwv.note _ _⟩
    · exact ⟨rfl, hwv⟩

theorem rowTryGet_respects (hp : p h = true) (r : Row) (t : HostType) :
    Respects p fun w => w.rowTryGet r h t :=
  copyOut_respects h t fun _ _ hwv => hwv.values r _ (by rwa [Id.typeHandle_component])

theorem rowGet_respects (hp : p h = true) (r : Row) (t : HostType) :
    Respects p fun w => w.rowGet r h t := by
  have hrequired : ∀ x, Respects p fun w => (w.required r h x, w) := fun x =>
    .of_pure _ fun w v hwv => by
      cases x with
      | error err => rfl
      | ok y => cases y with
        | none => rw [required, required, hwv.registry]
        | some y => rfl
  simp only [rowGet_eq]
  exact (rowTryGet_respects hp r t).bind hrequired

theorem rowValue_respects {id : Id} (hp : p id.typeHandle = true) (r : Row) :
    Respects p fun w => w.rowValue r id :=
  valueOut_respects id fun _ _ hwv => hwv.values r id hp

theorem read_respects (hp : p h = true) (e : Entity) (t : HostType) :
    Respects p fun w => w.read e h t :=
  copyOut_respects h t fun _ _ hwv => hwv.peek e (by rwa [Id.typeHandle_component])

theorem build_respects (r : Recipe) : Respects p fun w => w.build r := by
  intro w v hwv
  cases r with
  | typed | bytes =>
    simp only [build, hwv.registry]
    exact ⟨trivial, hwv⟩
  | default h =>
    simp only [build, hwv.registry]
    split
    · exact ⟨rfl, hwv.note _ _⟩
    · exact ⟨rfl, hwv⟩
  | filled h bs =>
    simp only [build, hwv.registry]
    split <;> exact ⟨rfl, hwv⟩

/-! ### Values that are set -/

theorem value?_assign (a : Archetype) (id x : Id) (row n : Nat) (y : Value) :
    (a.updateColumn id fun c => c.assignMove row y).1.value? n x =
      if n = row ∧ x = id then (a.value? n x).map fun _ => y else a.value? n x :=
  Storage.value?_write (fun c => c.rows_assign row y _) n x

def withValue (w : World) (a : Archetype) (r : Row) (h : TypeHandle) (y : Value) : World :=
  let (a, events) := a.updateColumn (Id.component h) fun c => c.assignMove r.row y
  { w with storage := w.storage.set a }.note events

theorem rowSet_cases (hwv : SameRows w v) (r : Row) (h : TypeHandle) (t : HostType) (y : Value) :
    (∃ err, w.rowSet r h t y = (.error err, w) ∧ v.rowSet r h t y = (.error err, v)) ∨
      ∃ a b, w.storage.get? r.archetype = some a ∧ v.storage.get? r.archetype = some b ∧
        a.outline = b.outline ∧ w.rowSet r h t y = (.ok (), w.withValue a r h y) ∧
        v.rowSet r h t y = (.ok (), v.withValue b r h y) := by
  simp only [rowSet, hwv.descriptor h]
  split
  · next err _ => exact .inl ⟨err, rfl, rfl⟩
  · next d _ =>
    split
    · next err _ => exact .inl ⟨err, rfl, rfl⟩
    · split
      · exact .inl ⟨_, rfl, rfl⟩
      · obtain ⟨ha, hb⟩ | ⟨a, b, ha, hb, hab⟩ := hwv.get?_cases r.archetype
        · simp only [ha, hb]
          exact .inl ⟨_, rfl, rfl⟩
        · have hcolumn := Archetype.isSome_column?_congr hab (Id.component h)
          simp only [ha, hb]
          cases hca : a.column? (Id.component h) with
          | none =>
            rw [hca, Option.isSome_none, eq_comm, Option.isSome_eq_false_iff,
              Option.isNone_iff_eq_none] at hcolumn
            simp only [hcolumn]
            exact .inl ⟨_, rfl, rfl⟩
          | some c =>
            rw [hca, Option.isSome_some, eq_comm, Option.isSome_iff_exists] at hcolumn
            obtain ⟨c', hcb⟩ := hcolumn
            simp only [hcb]
            exact .inr ⟨a, b, rfl, rfl, hab, rfl, rfl⟩

theorem Agree.withValue (hwv : Agree p w v) {a b : Archetype} (hab : a.outline = b.outline)
    (hvalues : ∀ n id, p id.typeHandle = true → a.value? n id = b.value? n id) (r : Row)
    (h : TypeHandle) (y : Value) : Agree p (w.withValue a r h y) (v.withValue b r h y) := by
  have houtline (c : Archetype) : (c.updateColumn (Id.component h)
      fun c => c.assignMove r.row y).1.outline = c.outline :=
    Archetype.outline_updateColumn fun c => c.type_assign r.row y _
  refine (hwv.set ((houtline a).trans (hab.trans (houtline b).symm)) fun n id hid => ?_).note _ _
  exact (value?_assign a _ id r.row n y).trans
    ((congrArg (fun x => if n = r.row ∧ id = Id.component h then x.map fun _ => y else x)
      (hvalues n id hid)).trans (value?_assign b _ id r.row n y).symm)

theorem rowSet_respects (r : Row) (h : TypeHandle) (t : HostType) (y : Value) :
    Respects p fun w => w.rowSet r h t y := by
  intro w v hwv
  obtain ⟨err, hw, hv⟩ | ⟨a, b, ha, hb, hab, hw, hv⟩ := rowSet_cases hwv.toSameRows r h t y
  · simp only [hw, hv]
    exact ⟨trivial, hwv⟩
  · have hold (n : Nat) (id : Id) (hid : p id.typeHandle = true) :
        a.value? n id = b.value? n id := by
      simpa only [rowPeek, ha, hb] using hwv.values ⟨r.entity, r.archetype, n⟩ id hid
    simp only [hw, hv]
    exact ⟨trivial, hwv.withValue hab hold r h y⟩

theorem rowPeek_rowSet (hn : w.storage.Numbered) {r x : Row} (h : TypeHandle) (t : HostType)
    (y : Value) (hx : ¬ (x.archetype = r.archetype ∧ x.row = r.row)) (id : Id) :
    (w.rowSet r h t y).2.rowPeek x id = w.rowPeek x id := by
  obtain ⟨err, hw, -⟩ | ⟨a, -, ha, -, -, hw, -⟩ := rowSet_cases (SameRows.refl w) r h t y
  · rw [hw]
  · have hid : (a.updateColumn (Id.component h) fun c => c.assignMove r.row y).1.id =
        r.archetype := by
      rw [Archetype.updateColumn_fst]
      exact hn _ a ha
    have hget := Storage.get?_set (s := w.storage) (a := a) (by rwa [hid]) x.archetype
    rw [hw]
    simp only [withValue, rowPeek, note, hget, hid]
    by_cases htable : x.archetype = r.archetype
    · have hrow : ¬ (x.row = r.row ∧ id = Id.component h) := fun hboth => hx ⟨htable, hboth.1⟩
      rw [if_pos htable, htable, ha]
      exact (value?_assign a _ id r.row x.row y).trans (if_neg hrow)
    · rw [if_neg htable]

end World
end EntityWorld
