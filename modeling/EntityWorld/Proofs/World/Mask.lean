import EntityWorld.Proofs.World.Tables
import EntityWorld.Recipe
import EntityWorld.World.Row
set_option autoImplicit false

/-!
Worlds with some of their values hidden. What is done with the values of one type neither depends on
the values of another one nor changes them; hiding makes this an equation.
-/
namespace EntityWorld

variable {p q : TypeHandle → Bool}

def Column.blank (c : Column) : Column := { c with rows := #[] }

theorem Column.blank_assign (c : Column) (row : Nat) (v : Value) (arrival : List HookEvent) :
    (c.assign row v arrival).1.blank = c.blank := by
  unfold assign
  split <;> rfl

namespace Archetype

variable {a : Archetype} {id : Id} {i row : Nat} {f : Column → Column × List HookEvent}

def shows (a : Archetype) (p : TypeHandle → Bool) (i : Nat) : Bool :=
  (a.ids[i]?).all fun id => p id.typeHandle

/-- The table with the values of the types outside `p` hidden. -/
def mask (p : TypeHandle → Bool) (a : Archetype) : Archetype :=
  { a with columns := a.columns.mapIdx fun i c => if a.shows p i then c else c.blank }

theorem shows_of_columnIndex? (h : a.columnIndex? id = some i) : a.shows p i = p id.typeHandle := by
  rw [shows, getElem?_of_lastIndexOf? h]
  rfl

theorem getElem?_mask : (a.mask p).columns[i]? =
    (a.columns[i]?).map fun c => if a.shows p i then c else c.blank := List.getElem?_mapIdx

theorem mask_congr {columns : List Column} (hcols : ∀ i, (columns[i]?).map
      (fun c => if a.shows p i then c else c.blank) = (a.mask p).columns[i]?) :
    ({ a with columns } : Archetype).mask p = a.mask p := by
  have heq : (({ a with columns } : Archetype).mask p).columns = (a.mask p).columns :=
    List.ext_getElem? fun i => getElem?_mask.trans (hcols i)
  rw [mask, mask, Archetype.mk.injEq]
  exact ⟨rfl, rfl, heq, rfl, rfl, rfl⟩

theorem column?_mask (hp : p id.typeHandle = true) : (a.mask p).column? id = a.column? id := by
  have hindex : (a.mask p).columnIndex? id = a.columnIndex? id := rfl
  unfold column?
  rw [hindex]
  cases hi : a.columnIndex? id with
  | none => rfl
  | some i =>
    simp only [getElem?_mask, shows_of_columnIndex? hi, hp, if_true]
    exact Option.map_id'

theorem value?_mask (hp : p id.typeHandle = true) :
    (a.mask p).value? row id = a.value? row id := by
  rw [value?, column?_mask hp]
  rfl

theorem mask_set (hshow : a.shows p i = true) (c : Column) :
    ({ a with columns := a.columns.set i c } : Archetype).mask p =
      { a.mask p with columns := (a.mask p).columns.set i c } := by
  have hcols : (({ a with columns := a.columns.set i c } : Archetype).mask p).columns =
      (a.mask p).columns.set i c := by
    refine List.ext_getElem? fun j => ?_
    rw [getElem?_mask, List.getElem?_set, List.getElem?_set, getElem?_mask]
    by_cases hij : i = j
    · subst hij
      have hshow' : ({ a with columns := a.columns.set i c } : Archetype).shows p i = true := hshow
      simp [hshow', mask]
    · simp only [if_neg hij]
      rfl
  rw [Archetype.mk.injEq]
  exact ⟨rfl, rfl, hcols, rfl, rfl, rfl⟩

theorem updateColumn_mask (hp : p id.typeHandle = true) : (a.mask p).updateColumn id f =
    ((a.updateColumn id f).1.mask p, (a.updateColumn id f).2) := by
  have hindex : (a.mask p).columnIndex? id = a.columnIndex? id := rfl
  unfold updateColumn
  rw [hindex]
  cases hi : a.columnIndex? id with
  | none => rfl
  | some i =>
    have hshow : a.shows p i = true := (shows_of_columnIndex? hi).trans hp
    simp only [getElem?_mask, hshow, if_true, Option.map_id']
    cases hc : a.columns[i]? with
    | none => rfl
    | some c => simp only [mask_set hshow]

theorem mask_updateColumn (hp : p id.typeHandle = false) (hf : ∀ c, (f c).1.blank = c.blank) :
    (a.updateColumn id f).1.mask p = a.mask p := by
  unfold updateColumn
  cases hi : a.columnIndex? id with
  | none => rfl
  | some i =>
    cases hc : a.columns[i]? with
    | none => simp only [hc]
    | some c =>
      simp only [hc]
      refine mask_congr fun j => ?_
      rw [getElem?_mask, List.getElem?_set]
      by_cases hij : i = j
      · subst hij
        obtain ⟨hlt, rfl⟩ := List.getElem?_eq_some_iff.1 hc
        have hshow : a.shows p i = false := (shows_of_columnIndex? hi).trans hp
        simp [hshow, hf, hlt]
      · simp [hij]

theorem shows_mono (hle : ∀ t, q t = true → p t = true) (h : a.shows q i = true) :
    a.shows p i = true := by
  unfold shows at h ⊢
  cases hi : a.ids[i]? with
  | none => rfl
  | some id =>
    rw [hi] at h
    exact hle id.typeHandle h

theorem mask_mask (hle : ∀ t, q t = true → p t = true) (a : Archetype) :
    (a.mask p).mask q = a.mask q := by
  refine mask_congr fun i => ?_
  rw [List.getElem?_mapIdx, getElem?_mask, Option.map_map]
  refine congrArg (Option.map · _) (funext fun c => ?_)
  by_cases hq : a.shows q i = true
  · simp [hq, shows_mono hle hq]
  · simp only [Function.comp_apply, hq, Bool.false_eq_true, if_false]
    split <;> rfl

theorem eq_of_mask {b : Archetype} (h : ∀ t, a.mask (· == t) = b.mask (· == t)) : a = b := by
  have hsame := h ⟨0⟩
  simp only [mask, Archetype.mk.injEq] at hsame
  obtain ⟨hid, hids, -, hrest⟩ := hsame
  have hcols : a.columns = b.columns := by
    refine List.ext_getElem? fun i => ?_
    obtain ⟨t, ht⟩ : ∃ t, a.shows (· == t) i = true := by
      cases hi : a.ids[i]? with
      | none => exact ⟨⟨0⟩, by rw [shows, hi]; rfl⟩
      | some id => exact ⟨id.typeHandle, by rw [shows, hi]; exact beq_self_eq_true id.typeHandle⟩
    have ht' : b.shows (· == t) i = true := by rwa [shows, ← hids]
    have hget := congrArg (fun x : Archetype => x.columns[i]?) (h t)
    simpa [getElem?_mask, ht, ht'] using hget
  rw [Archetype.mk.injEq]
  exact ⟨hid, hids, hcols, hrest⟩

end Archetype

namespace Storage

variable {s : Storage} {a b : Archetype} {i : ArchetypeId}

def mask (p : TypeHandle → Bool) (s : Storage) : Storage :=
  { s with archetypes := s.archetypes.map (Archetype.mask p) }

theorem get?_mask : (s.mask p).get? i = (s.get? i).map (Archetype.mask p) := Array.getElem?_map

theorem size_mask : (s.mask p).size = s.size := Array.size_map

theorem since_mask (n : Nat) : (s.mask p).since n = (s.since n).map (Archetype.mask p) := by
  rw [since, since, mask, Array.toList_map, List.map_drop]

theorem set_mask (s : Storage) (a : Archetype) : (s.mask p).set (a.mask p) = (s.set a).mask p := by
  rw [set, set, mask, mask, Array.map_setIfInBounds]
  rfl

theorem set_self (hn : s.Numbered) (ha : s.get? i = some a) : s.set a = s := by
  have hget : s.archetypes[a.id.raw.toNat]? = some a := by
    rw [hn i a ha]
    exact ha
  have harr : s.archetypes.setIfInBounds a.id.raw.toNat a = s.archetypes := by
    refine Array.ext_getElem? fun n => ?_
    rw [Array.getElem?_setIfInBounds]
    by_cases hi : a.id.raw.toNat = n
    · subst hi
      rw [if_pos rfl, hget]
      exact if_pos (Array.getElem?_eq_some_iff.1 hget).1
    · rw [if_neg hi]
  rw [set, harr]

theorem mask_set (hn : s.Numbered) (ha : s.get? i = some a) (hmask : b.mask p = a.mask p) :
    (s.set b).mask p = s.mask p := by
  rw [← set_mask, hmask, set_mask, set_self hn ha]

theorem mask_mask (hle : ∀ t, q t = true → p t = true) (s : Storage) :
    (s.mask p).mask q = s.mask q := by
  rw [mask, mask, mask, Array.map_map]
  congr 2
  exact funext (Archetype.mask_mask hle)

theorem keys_mask : (s.mask p).keys = s.keys := by
  rw [keys, keys, mask, Array.toList_map, List.map_map]
  rfl

theorem eq_of_mask {s' : Storage} (h : ∀ t, s.mask (· == t) = s'.mask (· == t)) : s = s' := by
  have hbyIds : s.byIds = s'.byIds := (Storage.mk.inj (h ⟨0⟩)).2
  have harr : s.archetypes = s'.archetypes := by
    refine Array.ext_getElem? fun n => ?_
    have hget (t : TypeHandle) : (s.archetypes[n]?).map (Archetype.mask (· == t)) =
        (s'.archetypes[n]?).map (Archetype.mask (· == t)) := by
      rw [← Array.getElem?_map, ← Array.getElem?_map, (Storage.mk.inj (h t)).1]
    cases ha : s.archetypes[n]? with
    | none =>
      have hnone := hget ⟨0⟩
      rw [ha, Option.map_none, eq_comm, Option.map_eq_none_iff] at hnone
      exact hnone.symm
    | some a =>
      cases hb : s'.archetypes[n]? with
      | none =>
        have hnone := hget ⟨0⟩
        rw [ha, hb] at hnone
        cases hnone
      | some b =>
        refine congrArg some (Archetype.eq_of_mask fun t => ?_)
        simpa [ha, hb] using hget t
  rw [Storage.mk.injEq]
  exact ⟨harr, hbyIds⟩

end Storage

namespace World

variable {w v : World} {h : TypeHandle} {t : HostType} {r : Row} {id : Id}

/-- The world with the values of the types outside `p` hidden, and without what hooks did. -/
def mask (p : TypeHandle → Bool) (w : World) : World :=
  { w with storage := w.storage.mask p, events := [] }

theorem mask_mask (hle : ∀ t, q t = true → p t = true) (w : World) :
    (w.mask p).mask q = w.mask q := by
  rw [mask, mask, mask, Storage.mask_mask hle]

theorem mask_mask_self (w : World) : (w.mask p).mask p = w.mask p := w.mask_mask fun _ h => h

theorem mask_congr (hle : ∀ t, q t = true → p t = true) (h : w.mask p = v.mask p) :
    w.mask q = v.mask q := by
  rw [← w.mask_mask hle, h, v.mask_mask hle]

theorem numbered_of_mask (h : w.mask p = v.mask p) (hn : w.storage.Numbered) :
    v.storage.Numbered := by
  have hkeys := congrArg (fun x : World => x.storage.keys) h
  exact hn.congr (Storage.keys_mask.symm.trans (hkeys.symm.trans Storage.keys_mask))

theorem eq_of_mask (h : ∀ t, w.mask (· == t) = v.mask (· == t)) :
    { w with events := v.events } = v := by
  have hstorage : w.storage = v.storage := Storage.eq_of_mask fun t =>
    congrArg (fun x : World => x.storage) (h t)
  have hsame := h ⟨0⟩
  simp only [mask, World.mk.injEq] at hsame
  obtain ⟨hregistry, hentities, hlocations, -, hnames, hentityNames, hlisteners, hchild, -⟩ := hsame
  rw [World.mk.injEq]
  exact ⟨hregistry, hentities, hlocations, hstorage, hnames, hentityNames, hlisteners, hchild, rfl⟩

/-! ### What is read -/

theorem rowPeek_mask (hp : p id.typeHandle = true) :
    (w.mask p).rowPeek r id = w.rowPeek r id := by
  have hget : (w.mask p).storage.get? r.archetype = _ := Storage.get?_mask
  rw [rowPeek, rowPeek, hget]
  cases w.storage.get? r.archetype with
  | none => rfl
  | some a => exact Archetype.value?_mask hp

theorem peek_mask {e : Entity} (hp : p id.typeHandle = true) :
    (w.mask p).peek e id = w.peek e id := by
  have hlocation : (w.mask p).location? e = w.location? e := rfl
  rw [peek, peek, hlocation]
  cases w.location? e with
  | none => rfl
  | some loc =>
    have hget : (w.mask p).storage.get? loc.archetype = _ := Storage.get?_mask
    simp only [hget]
    cases w.storage.get? loc.archetype with
    | none => rfl
    | some a => exact Archetype.value?_mask hp

theorem rowHas_mask : (w.mask p).rowHas r id = w.rowHas r id := by
  have hget : (w.mask p).storage.get? r.archetype = _ := Storage.get?_mask
  rw [rowHas, rowHas, hget]
  cases w.storage.get? r.archetype <;> rfl

theorem rowTarget_mask {relation : TypeHandle} :
    (w.mask p).rowTarget r relation = w.rowTarget r relation := by
  have hget : (w.mask p).storage.get? r.archetype = _ := Storage.get?_mask
  rw [rowTarget, rowTarget, hget]
  cases w.storage.get? r.archetype <;> rfl

/-- What `f` answers and does to the rest does not depend on hidden values. -/
structure Blind (p : TypeHandle → Bool) {α : Type} (f : World → α × World) : Prop where
  answer : ∀ w, (f (w.mask p)).1 = (f w).1
  world : ∀ w, (f (w.mask p)).2.mask p = (f w).2.mask p

namespace Blind

variable {α β : Type} {f : World → α × World} {g : α → World → β × World}

theorem agree (hf : Blind p f) (h : w.mask p = v.mask p) :
    (f w).1 = (f v).1 ∧ (f w).2.mask p = (f v).2.mask p := by
  rw [← hf.answer w, ← hf.world w, h]
  exact ⟨hf.answer v, hf.world v⟩

theorem bind (hf : Blind p f) (hg : ∀ a, Blind p (g a)) :
    Blind p fun w => g (f w).1 (f w).2 := by
  constructor
  · intro w
    simp only [hf.answer w]
    exact ((hg _).agree (hf.world w)).1
  · intro w
    simp only [hf.answer w]
    exact ((hg _).agree (hf.world w)).2

theorem map (hf : Blind p f) (g : α → β) : Blind p fun w => (g (f w).1, (f w).2) :=
  ⟨fun w => congrArg g (hf.answer w), hf.world⟩

theorem of_unseen (ha : ∀ w, (f (w.mask p)).1 = (f w).1)
    (hw : ∀ w, (f w).2.mask p = w.mask p) : Blind p f := by
  refine ⟨ha, fun w => ?_⟩
  rw [hw, hw, mask_mask_self]

theorem of_pure (a : World → α) (ha : ∀ w, a (w.mask p) = a w) : Blind p fun w => (a w, w) :=
  of_unseen ha fun _ => rfl

end Blind

theorem mask_copyOut (w : World) (h : TypeHandle) (t : HostType) (x : Option Value) :
    (w.copyOut h t x).2.mask p = w.mask p := by
  unfold copyOut
  split
  · rfl
  · split
    · rfl
    · split <;> rfl

theorem copyOut_blind (h : TypeHandle) (t : HostType) {x : World → Option Value}
    (hx : ∀ w, x (w.mask p) = x w) : Blind p fun w => w.copyOut h t (x w) := by
  have hdescriptor (w : World) : (w.mask p).descriptor h = w.descriptor h := rfl
  refine .of_unseen (fun w => ?_) fun w => w.mask_copyOut h t (x w)
  simp only [copyOut, hdescriptor, hx]
  split
  · rfl
  · split
    · rfl
    · split <;> rfl

theorem mask_valueOut (w : World) (id : Id) (x : Option Value) :
    (w.valueOut id x).2.mask p = w.mask p := by
  unfold valueOut
  split
  · rfl
  · split <;> rfl

theorem valueOut_blind (id : Id) {x : World → Option Value} (hx : ∀ w, x (w.mask p) = x w) :
    Blind p fun w => w.valueOut id (x w) := by
  have hdescriptor (w : World) : (w.mask p).descriptor? id.typeHandle =
    w.descriptor? id.typeHandle := rfl
  refine .of_unseen (fun w => ?_) fun w => w.mask_valueOut id (x w)
  simp only [valueOut, hdescriptor, hx]
  split
  · rfl
  · split <;> rfl

theorem rowTryGet_blind (hp : p h = true) (r : Row) (t : HostType) :
    Blind p fun w => w.rowTryGet r h t :=
  copyOut_blind h t fun w => rowPeek_mask (by rwa [Id.typeHandle_component])

def required (w : World) (r : Row) (h : TypeHandle) :
    Except EcsError (Option Value) → Except EcsError Value
  | .error err => .error err
  | .ok (some v) => .ok v
  | .ok none => .error (.missingComponent r.entity (w.registry.pathOf h))

theorem rowGet_eq (w : World) (r : Row) (h : TypeHandle) (t : HostType) :
    w.rowGet r h t =
      ((w.rowTryGet r h t).2.required r h (w.rowTryGet r h t).1, (w.rowTryGet r h t).2) := by
  unfold rowGet
  split <;> simp only [*, required]

theorem mask_rowGet (w : World) (r : Row) (h : TypeHandle) (t : HostType) :
    (w.rowGet r h t).2.mask p = w.mask p := by
  rw [rowGet_eq]
  exact w.mask_copyOut h t _

theorem rowGet_blind (hp : p h = true) (r : Row) (t : HostType) :
    Blind p fun w => w.rowGet r h t := by
  have hrequired : ∀ x, Blind p fun w => (w.required r h x, w) := fun x =>
    .of_pure _ fun w => by cases x with
      | error err => rfl
      | ok v => cases v <;> rfl
  simp only [rowGet_eq]
  exact (rowTryGet_blind hp r t).bind hrequired

theorem rowValue_blind (hp : p id.typeHandle = true) (r : Row) :
    Blind p fun w => w.rowValue r id :=
  valueOut_blind id fun _ => rowPeek_mask hp

theorem read_blind (hp : p h = true) (e : Entity) (t : HostType) :
    Blind p fun w => w.read e h t :=
  copyOut_blind h t fun w => peek_mask (by rwa [Id.typeHandle_component])

theorem mask_build (w : World) (r : Recipe) : (w.build r).2.mask p = w.mask p := by
  unfold build
  split
  · rfl
  · rfl
  · split <;> rfl
  · simp only
    split <;> rfl

theorem build_blind (r : Recipe) : Blind p fun w => w.build r := by
  have hregistry (w : World) : (w.mask p).registry = w.registry := rfl
  refine .of_unseen (fun w => ?_) fun w => w.mask_build r
  cases r with
  | typed | bytes => rfl
  | default h =>
    simp only [build, hregistry]
    split <;> rfl
  | filled h bs =>
    simp only [build, hregistry]
    split <;> rfl

/-! ### What is written -/

theorem rowSet_blind (hp : p h = true) (r : Row) (t : HostType) (v : Value) :
    Blind p fun w => w.rowSet r h t v := by
  have hdescriptor (w : World) : (w.mask p).descriptor h = w.descriptor h := rfl
  have hget (w : World) : (w.mask p).storage.get? r.archetype = _ := Storage.get?_mask
  have hp' : p (Id.component h).typeHandle = true := by rwa [Id.typeHandle_component]
  have hset (w : World) (b : Archetype) : ((w.storage.mask p).set (b.mask p)).mask p =
      (w.storage.set b).mask p := by
    rw [Storage.set_mask, Storage.mask_mask fun _ h => h]
  have hboth (w : World) : ((w.mask p).rowSet r h t v).1 = (w.rowSet r h t v).1 ∧
      ((w.mask p).rowSet r h t v).2.mask p = (w.rowSet r h t v).2.mask p := by
    simp only [rowSet, hdescriptor, hget]
    split
    · exact ⟨rfl, w.mask_mask_self⟩
    · split
      · exact ⟨rfl, w.mask_mask_self⟩
      · split
        · exact ⟨rfl, w.mask_mask_self⟩
        · cases w.storage.get? r.archetype with
          | none => exact ⟨rfl, w.mask_mask_self⟩
          | some a =>
            simp only [Option.map_some, Archetype.column?_mask hp', Archetype.updateColumn_mask hp']
            split
            · exact ⟨rfl, w.mask_mask_self⟩
            · exact ⟨rfl, congrArg (fun s => ({ w with storage := s, events := [] } : World))
                (hset w _)⟩
  exact ⟨fun w => (hboth w).1, fun w => (hboth w).2⟩

theorem mask_rowSet (hn : w.storage.Numbered) (hp : p h = false) (r : Row) (t : HostType)
    (v : Value) : (w.rowSet r h t v).2.mask p = w.mask p := by
  have hp' : p (Id.component h).typeHandle = false := by rwa [Id.typeHandle_component]
  unfold rowSet
  split
  · rfl
  · split
    · rfl
    · split
      · rfl
      · split
        · rfl
        · next a ha =>
          split
          · rfl
          · have hset := Storage.mask_set hn ha
              (Archetype.mask_updateColumn hp' fun c =>
                c.blank_assign r.row v (c.type.moveEvents v))
            exact congrArg (fun s => ({ w with storage := s, events := [] } : World)) hset

end World

end EntityWorld
