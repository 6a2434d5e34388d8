import EntityWorld.Proofs.Query.Matching
import EntityWorld.Proofs.World.Types
set_option autoImplicit false

/-!
Changing the parent of an entity. The old parents are given up before the new one is looked at, so
the change is made as a whole unless the new parent is dead: then it fails, and the entity is left
without the parents it had.
-/
namespace EntityWorld

namespace Contents

variable {e x : Entity} {id : Id} {relation : TypeHandle}

def detach (c : Contents) (e : Entity) (relation : TypeHandle) (gone : List Entity) : Contents :=
  gone.foldl (fun c t => c.unset e (Id.pair relation t)) c

theorem detach_of_ne (hx : x ≠ e) (relation : TypeHandle) (gone : List Entity) (c : Contents) :
    c.detach e relation gone x = c x := by
  induction gone generalizing c with
  | nil => rfl
  | cons t rest ih => exact (ih _).trans (Function.update_of_ne hx _ _)

theorem value?_detach (gone : List Entity) (c : Contents) :
    (c.detach e relation gone).value? x id =
      if x = e ∧ ∃ t ∈ gone, id = Id.pair relation t then none else c.value? x id := by
  induction gone generalizing c with
  | nil => simp [detach]
  | cons t rest ih =>
    refine (ih _).trans ?_
    rw [value?_unset]
    by_cases hx : x = e
    · by_cases hid : id = Id.pair relation t
      · simp [hx, hid]
      · simp [hx, hid]
    · simp [hx]

structure Fills (c : Contents) (e : Entity) (id : Id) (r : Except EcsError Bool × Contents) :
    Prop where
  answer : ∃ b, r.1 = .ok b
  filled : (r.2.value? e id).isSome = true
  kept : (c.value? e id).isSome = true → r.2 = c
  ids : ∀ i, i ≠ id → r.2.value? e i = c.value? e i
  others : ∀ x, x ≠ e → r.2 x = c x

theorem fills_add {c : Contents} {check : Id → Except EcsError TypeDescriptor} {d : TypeDescriptor}
    {m : Id → Option Value} {p : Value × List HookEvent} (he : c e = some m) (hc : check id = .ok d)
    (hd : d.default? = some p) : c.Fills e id (c.add check e id) := by
  have hvalue : c.value? e id = m id := by rw [value?, he, Option.bind_some]
  cases hm : m id with
  | some v =>
    have hadd : c.add check e id = (.ok false, c) := by simp only [add, he, hc, hm]
    rw [hadd]
    exact ⟨⟨false, rfl⟩, by rw [hvalue, hm]; rfl, fun _ => rfl, fun _ _ => rfl, fun _ _ => rfl⟩
  | none =>
    have hadd : c.add check e id = (.ok true, c.set e id p.1) := by simp only [add, he, hc, hm, hd]
    rw [hadd]
    refine ⟨⟨true, rfl⟩, ?_, fun hold => ?_, fun i hi => ?_, fun x hx => ?_⟩
    · simp [set, value?, he]
    · rw [hvalue, hm] at hold
      cases hold
    · simp [set, value?, he, hi]
    · exact Function.update_of_ne hx _ _

end Contents

namespace World

variable {u v w : World} {e t x child kept parent : Entity} {id : Id} {relation : TypeHandle}
  {i : UInt32}

/-! ### The targets of a relation -/

theorem mem_pairedSlots (h : relation.raw.toNat < 0x80000000) {ids : List Id} :
    i ∈ pairedSlots relation ids ↔ Id.pairAt relation i ∈ ids := by
  simp only [pairedSlots, List.mem_filterMap, List.mem_filter, Id.satisfies_wildcard_iff h]
  constructor
  · intro hex
    obtain ⟨id, ⟨hid, j, rfl⟩, hi⟩ := hex
    simp only [Id.target?, Id.isPair_pairAt, if_true, Id.lowIndex_pairAt, Option.some.injEq] at hi
    exact hi ▸ hid
  · intro hi
    exact ⟨_, ⟨hi, i, rfl⟩, by simp [Id.target?]⟩

theorem nodup_pairedSlots (h : relation.raw.toNat < 0x80000000) {ids : List Id} (hn : ids.Nodup) :
    (pairedSlots relation ids).Nodup := by
  have hpair {id : Id} {j : UInt32} (hj : (if id.satisfies (Id.wildcard relation) = true then
      id.target? else none) = some j) : id = Id.pairAt relation j := by
    split at hj
    · next hsat =>
      obtain ⟨i, rfl⟩ := (Id.satisfies_wildcard_iff h).1 hsat
      have hij : i = j := by simpa [Id.target?] using hj
      rw [hij]
    · cases hj
  rw [pairedSlots, List.filterMap_filter]
  exact hn.filterMap fun a b j ha hb => (hpair ha).trans (hpair hb).symm

theorem targets_of_dead (he : w.isAlive e = false) (relation : TypeHandle) :
    w.targets e relation = [] := by
  simp [targets, archetypeOf?, location?_eq, he]

theorem Stands.targets {l : Location} {a : Archetype} (hs : w.Stands e l a)
    (relation : TypeHandle) :
    w.targets e relation = (pairedSlots relation a.ids).filterMap w.resolve := by
  simp only [World.targets, archetypeOf?, hs.location, hs.table]

theorem WellFormed.mem_targets (h : w.WellFormed) (hr : relation.raw.toNat < 0x80000000) :
    t ∈ w.targets e relation ↔ w.isAlive t = true ∧ w.Carries e (Id.pair relation t) := by
  cases he : w.isAlive e with
  | false =>
    rw [targets_of_dead he]
    refine iff_of_false List.not_mem_nil fun ht => ?_
    have halive := ht.2.isAlive
    rw [he] at halive
    cases halive
  | true =>
    obtain ⟨l, a, hs⟩ := h.stands he
    have hresolve (j : UInt32) : w.resolve j = some t ↔ t.index = j ∧ w.isAlive t = true :=
      Allocator.resolve_eq_some_iff
    rw [hs.targets, List.mem_filterMap, Carries, hs.peek, h.isSome_value?_iff hs]
    simp only [hresolve, mem_pairedSlots hr]
    constructor
    · intro hex
      obtain ⟨j, hj, rfl, ht⟩ := hex
      exact ⟨ht, hj⟩
    · intro ht
      exact ⟨t.index, ht.2, rfl, ht.1⟩

theorem WellFormed.nodup_targets (h : w.WellFormed) (hr : relation.raw.toNat < 0x80000000)
    (e : Entity) : (w.targets e relation).Nodup := by
  cases he : w.isAlive e with
  | false =>
    rw [targets_of_dead he]
    exact List.nodup_nil
  | true =>
    obtain ⟨l, a, hs⟩ := h.stands he
    rw [hs.targets]
    refine (nodup_pairedSlots hr (h.shaped hs).sorted.nodup).filterMap fun j k x hj hk => ?_
    exact (Allocator.resolve_eq_some_iff.1 hj).1.symm.trans (Allocator.resolve_eq_some_iff.1 hk).1

/-! ### Pairs of the hierarchy -/

theorem Typed.typeHandle_child (h : w.Typed) (parent : Entity) :
    (Id.pair w.childOf parent).typeHandle = w.childOf := by
  refine Id.typeHandle_pairAt _ _ ?_
  rw [h.childOf]
  decide

theorem Typed.checkId_child (h : w.Typed) (hf : w.Fits) (hp : w.isAlive parent = true) :
    ∃ d x, w.checkId (Id.pair w.childOf parent) = .ok d ∧ d.default? = some x := by
  obtain ⟨d, hd⟩ : ∃ d, Registry.freeze childOfDescription ⟨0⟩ = d := ⟨_, rfl⟩
  have hclass : d.classification = .relationship := by rw [← hd]; rfl
  obtain ⟨x, hx⟩ : ∃ x, d.default? = some x := by
    rw [← hd]
    exact ⟨_, rfl⟩
  refine ⟨d, x, ?_, hx⟩
  simp only [checkId, descriptor, h.typeHandle_child, h.descriptor?_childOf, hd,
    hf.isWildcard_pair hp, hclass]
  simp

theorem pair_inj (ht : w.isAlive t = true) (hx : w.isAlive x = true)
    (h : Id.pair relation t = Id.pair relation x) : t = x := by
  have hi : t.index = x.index := by
    have hlow := congrArg Id.lowIndex h
    rwa [Id.pair, Id.pair, Id.lowIndex_pairAt, Id.lowIndex_pairAt] at hlow
  have hres : w.resolve x.index = some t := Allocator.resolve_eq_some_iff.2 ⟨hi, ht⟩
  exact Option.some.inj (hres.symm.trans (Allocator.resolve_eq_some_iff.2 ⟨rfl, hx⟩))

/-! ### Giving up the old parents -/

/-- The contents when `e` has given up its live targets, except for `kept`. -/
def parted (w : World) (e : Entity) (relation : TypeHandle) (kept : Entity) : Contents :=
  w.contents.detach e relation ((w.targets e relation).filter fun t => t ≠ kept)

theorem WellFormed.removePairsExcept_detaches (old : List Entity) (h : w.WellFormed)
    (he : w.isAlive e = true) (hf : (w.removePairsExcept e relation kept old).2.Fits) :
    w.Does (w.removePairsExcept e relation kept old)
      (.ok (), w.contents.detach e relation (old.filter fun t => t ≠ kept)) := by
  induction old generalizing w with
  | nil => exact .refl h _
  | cons t rest ih =>
    have hfit := (throughout_leads.removePairsExcept e relation kept (t :: rest) w).grows.fits hf
    unfold World.removePairsExcept at hf ⊢
    by_cases ht : t = kept
    · rw [if_pos ht] at hf ⊢
      simpa [ht] using ih h he hf
    · have hremove := h.remove hfit e (Id.pair relation t)
      simp only [Contents.remove, World.contents, he, if_true] at hremove
      obtain ⟨hanswer, hbecomes⟩ := hremove
      rw [if_neg ht, removePair] at hf ⊢
      cases hr : w.remove e (Id.pair relation t) with
      | mk answer v =>
        rw [hr] at hanswer hbecomes hf
        subst hanswer
        have hrest := ih hbecomes.wellFormed ((hbecomes.isAlive e).trans he) hf
        rw [hbecomes.contents] at hrest
        have hgone : (t :: rest).filter (fun t => t ≠ kept) = t :: rest.filter fun t => t ≠ kept :=
          List.filter_cons_of_pos (by simpa using ht)
        rw [hgone]
        exact ⟨hrest.answer, hbecomes.trans hrest.becomes⟩

theorem WellFormed.value?_parted (h : w.WellFormed) (hr : relation.raw.toNat < 0x80000000)
    (ht : w.isAlive t = true) (kept : Entity) :
    (w.parted e relation kept).value? e (Id.pair relation t) =
      if t = kept then w.contents.value? e (Id.pair relation t) else none := by
  rw [parted, Contents.value?_detach]
  by_cases htk : t = kept
  · have hstays : ¬ ∃ x ∈ (w.targets e relation).filter fun t => t ≠ kept,
        Id.pair relation t = Id.pair relation x := by
      rintro ⟨x, hx, heq⟩
      rw [List.mem_filter, h.mem_targets hr] at hx
      rw [← pair_inj ht hx.1.1 heq, htk] at hx
      simp at hx
    rw [if_pos htk, if_neg fun hgone => hstays hgone.2]
  · rw [if_neg htk, ite_eq_left_iff]
    intro hstays
    by_contra hvalue
    have hcarries : w.Carries e (Id.pair relation t) :=
      carries_iff_value?.2 (Option.isSome_iff_ne_none.2 hvalue)
    refine hstays ⟨rfl, t, ?_, rfl⟩
    rw [List.mem_filter, h.mem_targets hr]
    exact ⟨⟨ht, hcarries⟩, decide_eq_true htk⟩

theorem value?_parted_of_ne (hid : ∀ t, id ≠ Id.pair relation t) :
    (w.parted e relation kept).value? e id = w.contents.value? e id := by
  rw [parted, Contents.value?_detach, if_neg fun hgone => ?_]
  obtain ⟨-, t, -, heq⟩ := hgone
  exact hid t heq

theorem parted_of_ne (hx : x ≠ e) : w.parted e relation kept x = w.contents x :=
  Contents.detach_of_ne hx _ _ _

/-! ### The new parent -/

/-- `v` is `w` but for the parents of `child`: the only one is `parent?` now, if any, and if it was
one before, its pair has the value it had. -/
structure Rehomed (w : World) (child : Entity) (parent? : Option Entity) (v : World) : Prop where
  frame : v = { w with locations := v.locations, storage := v.storage, events := v.events }
  parents : v.targets child v.childOf = parent?.toList
  kept : ∀ t, parent? = some t → t ∈ w.targets child w.childOf →
    v.peek child (Id.pair w.childOf t) = w.peek child (Id.pair w.childOf t)
  ids : ∀ id, (∀ t, id ≠ Id.pair w.childOf t) → v.peek child id = w.peek child id
  others : ∀ x, x ≠ child → v.contents x = w.contents x

/-- A change of the parent is made as a whole, or it fails and nothing has changed. -/
structure AllOrNothing (w : World) (child parent : Entity) : Prop where
  done : (w.setParent child parent).1 = .ok () →
    w.Rehomed child (some parent) (w.setParent child parent).2
  refused : ∀ err, (w.setParent child parent).1 = .error err → (w.setParent child parent).2 = w

structure SetsParent (w : World) (child parent : Entity) : Prop where
  adopted : w.isAlive child = true → w.isAlive parent = true →
    (w.setParent child parent).1 = .ok () ∧
      w.Rehomed child (some parent) (w.setParent child parent).2
  orphaned : w.isAlive child = true → w.isAlive parent = false →
    (w.setParent child parent).1 = .error (.staleHandle parent) ∧
      w.Rehomed child none (w.setParent child parent).2
  refused : w.isAlive child = false → w.setParent child parent =
    (.error (.staleHandle (if w.isAlive parent then child else parent)), w)
  whole_iff : w.AllOrNothing child parent ↔
    w.isAlive parent = true ∨ w.targets child w.childOf = []

theorem Rehomed.of_becomes {c : Contents} {parent? : Option Entity} (hb : w.Becomes c v)
    (hr : w.childOf.raw.toNat < 0x80000000) (hlive : ∀ t, parent? = some t → w.isAlive t = true)
    (hpairs : ∀ t, w.isAlive t = true →
      ((c.value? child (Id.pair w.childOf t)).isSome = true ↔ parent? = some t))
    (hkept : ∀ t, parent? = some t → t ∈ w.targets child w.childOf →
      c.value? child (Id.pair w.childOf t) = w.contents.value? child (Id.pair w.childOf t))
    (hids : ∀ id, (∀ t, id ≠ Id.pair w.childOf t) →
      c.value? child id = w.contents.value? child id)
    (hothers : ∀ x, x ≠ child → c x = w.contents x) : w.Rehomed child parent? v := by
  have hchildOf : v.childOf = w.childOf := by rw [hb.frame]
  have hpeek (id : Id) : v.peek child id = c.value? child id := by
    rw [← value?_contents, hb.contents]
  refine ⟨hb.frame, ?_, fun t ht hold => ?_, fun id hid => ?_, fun x hx => ?_⟩
  · rw [hchildOf]
    have hperm : (v.targets child w.childOf).Perm parent?.toList := by
      have hn : parent?.toList.Nodup := by cases parent? <;> simp
      refine (List.perm_ext_iff_of_nodup (hb.wellFormed.nodup_targets hr child) hn).2 fun t => ?_
      rw [hb.wellFormed.mem_targets hr, hb.isAlive, Option.mem_toList, Carries, hpeek]
      exact ⟨fun ht => (hpairs t ht.1).1 ht.2, fun ht => ⟨hlive t ht, (hpairs t (hlive t ht)).2 ht⟩⟩
    cases parent? with
    | none => exact hperm.eq_nil
    | some p => exact List.perm_singleton.1 hperm
  · rw [hpeek, hkept t ht hold, value?_contents]
  · rw [hpeek, hids id hid, value?_contents]
  · rw [hb.contents, hothers x hx]

theorem Typed.childOf_lt (h : w.Typed) : w.childOf.raw.toNat < 0x80000000 := by
  rw [h.childOf]
  decide

theorem WellFormed.rehomed_none (h : w.WellFormed) (ht : w.Typed) (hp : w.isAlive parent = false)
    (hb : w.Becomes (w.parted child w.childOf parent) v) : w.Rehomed child none v := by
  refine .of_becomes hb ht.childOf_lt nofun (fun t hlive => ?_) nofun
    (fun id hid => value?_parted_of_ne hid) fun x hx => parted_of_ne hx
  have hne : t ≠ parent := by
    rintro rfl
    rw [hp] at hlive
    cases hlive
  rw [h.value?_parted ht.childOf_lt hlive, if_neg hne]
  simp

theorem WellFormed.rehomed_some (h : w.WellFormed) (ht : w.Typed) (hp : w.isAlive parent = true)
    {r : Except EcsError Bool × Contents}
    (hr : (w.parted child w.childOf parent).Fills child (Id.pair w.childOf parent) r)
    (hb : w.Becomes r.2 v) : w.Rehomed child (some parent) v := by
  have hparted {t : Entity} (hlive : w.isAlive t = true) :=
    h.value?_parted (e := child) ht.childOf_lt hlive parent
  refine .of_becomes hb ht.childOf_lt ?_ ?_ ?_ (fun id hid => ?_) fun x hx => ?_
  · intro t heq
    cases heq
    exact hp
  · intro t hlive
    by_cases htp : t = parent
    · rw [htp]
      exact iff_of_true hr.filled rfl
    · rw [hr.ids _ fun heq => htp (pair_inj hlive hp heq), hparted hlive, if_neg htp]
      exact iff_of_false nofun fun heq => htp (Option.some.inj heq.symm)
  · intro t heq hold
    cases heq
    have hcarries := ((h.mem_targets ht.childOf_lt).1 hold).2
    have hsame := (hparted hp).trans (if_pos rfl)
    rw [hr.kept (by rwa [hsame, ← carries_iff_value?]), hsame]
  · rw [hr.ids id (hid parent), value?_parted_of_ne hid]
  · rw [hr.others x hx, parted_of_ne hx]

theorem setParent_of_dead (hc : w.isAlive child = false) (parent : Entity) :
    w.setParent child parent =
      (.error (.staleHandle (if w.isAlive parent then child else parent)), w) := by
  have hnone : w.removePairsExcept child w.childOf parent [] = (.ok (), w) := rfl
  simp only [setParent, targets_of_dead hc, hnone, addPair]
  cases hp : w.isAlive parent with
  | false => simp [Except.map]
  | true => simp [add, place_of_not_isAlive hc, Except.map]

/-- The old parents are given up first, whatever becomes of the new one. -/
theorem WellFormed.setParent_eq (h : w.WellFormed) (hc : w.isAlive child = true)
    (hf : (w.setParent child parent).2.Fits) : ∃ u,
    w.Becomes (w.parted child w.childOf parent) u ∧ u.Fits ∧
      w.setParent child parent = ((u.addPair child w.childOf parent).1.map fun _ => (),
        (u.addPair child w.childOf parent).2) := by
  obtain ⟨answer, u, hu⟩ : ∃ answer u, w.removePairsExcept child w.childOf parent
    (w.targets child w.childOf) = (answer, u) := ⟨_, _, rfl⟩
  have hgrows : u.Grows (w.setParent child parent).2 := by
    unfold setParent
    rw [hu]
    cases answer with
    | error err => exact .refl u
    | ok done => exact (throughout_leads.addPair u child u.childOf parent).grows
  have hremoved := h.removePairsExcept_detaches (w.targets child w.childOf) hc
    (by rw [hu]; exact hgrows.fits hf)
  rw [hu] at hremoved
  have hbecomes : w.Becomes _ u := hremoved.becomes
  have hchildOf : u.childOf = w.childOf := by rw [hbecomes.frame]
  have hanswer : answer = .ok () := hremoved.answer
  refine ⟨u, hbecomes, hgrows.fits hf, ?_⟩
  simp only [setParent, hu, hanswer, hchildOf]

theorem Reachable.adopted (h : w.Reachable) (hf : (w.setParent child parent).2.Fits)
    (hc : w.isAlive child = true) (hp : w.isAlive parent = true) :
    (w.setParent child parent).1 = .ok () ∧
      w.Rehomed child (some parent) (w.setParent child parent).2 := by
  obtain ⟨u, hb, hu, heq⟩ := h.wellFormed.setParent_eq hc hf
  have hchild : u.contents child = some (u.peek child) := if_pos ((hb.isAlive child).trans hc)
  have hparent : u.isAlive parent = true := (hb.isAlive parent).trans hp
  have hchildOf : u.childOf = w.childOf := by rw [hb.frame]
  obtain ⟨d, p, hcheck, hdefault⟩ := (h.typed.becomes hb).checkId_child hu hparent
  rw [hchildOf] at hcheck
  have hfills := Contents.fills_add hchild hcheck hdefault
  obtain ⟨hanswer, hbecomes⟩ := hb.wellFormed.add hu child (Id.pair w.childOf parent)
  rw [heq, addPair, if_pos hparent, hanswer]
  obtain ⟨b, hok⟩ := hfills.answer
  refine ⟨by rw [hok]; rfl, ?_⟩
  rw [hb.contents] at hfills hbecomes
  exact h.wellFormed.rehomed_some h.typed hp hfills (hb.trans hbecomes)

theorem Reachable.orphaned (h : w.Reachable) (hf : (w.setParent child parent).2.Fits)
    (hc : w.isAlive child = true) (hp : w.isAlive parent = false) :
    (w.setParent child parent).1 = .error (.staleHandle parent) ∧
      w.Rehomed child none (w.setParent child parent).2 := by
  obtain ⟨u, hb, hu, heq⟩ := h.wellFormed.setParent_eq hc hf
  have hparent : u.isAlive parent = false := (hb.isAlive parent).trans hp
  rw [heq, addPair, if_neg (by simp [hparent])]
  exact ⟨rfl, h.wellFormed.rehomed_none h.typed hp hb⟩

theorem setParent_of_no_targets (hn : w.targets child w.childOf = [])
    (hp : w.isAlive parent = false) :
    w.setParent child parent = (.error (.staleHandle parent), w) := by
  have hnone : w.removePairsExcept child w.childOf parent [] = (.ok (), w) := rfl
  simp [setParent, hn, hnone, addPair, hp, Except.map]

/-- The old parents are given up first. So a change of the parent fails half done if the new parent
is dead and the entity has had parents; else it is made as a whole or refused as a whole. -/
theorem Reachable.setsParent (h : w.Reachable) (hf : (w.setParent child parent).2.Fits) :
    w.SetsParent child parent := by
  have hdone (hok : (w.setParent child parent).1 = .ok ()) :
      w.Rehomed child (some parent) (w.setParent child parent).2 := by
    cases hc : w.isAlive child with
    | false =>
      rw [setParent_of_dead hc] at hok
      cases hok
    | true =>
      cases hp : w.isAlive parent with
      | false =>
        rw [(h.orphaned hf hc hp).1] at hok
        cases hok
      | true => exact (h.adopted hf hc hp).2
  refine ⟨h.adopted hf, h.orphaned hf, fun hc => setParent_of_dead hc parent, fun hwhole => ?_,
    fun hcases => ⟨hdone, fun err herr => ?_⟩⟩
  · by_contra hneither
    obtain ⟨hp, hsome⟩ := not_or.1 hneither
    rw [Bool.not_eq_true] at hp
    cases hc : w.isAlive child with
    | false => exact hsome (targets_of_dead hc _)
    | true =>
      -- the failure has left no parents, where there were some
      obtain ⟨herr, horphan⟩ := h.orphaned hf hc hp
      have hnone := horphan.parents
      rw [hwhole.refused _ herr] at hnone
      exact hsome hnone
  · cases hc : w.isAlive child with
    | false => rw [setParent_of_dead hc]
    | true =>
      cases hp : w.isAlive parent with
      | false =>
        have hnone := hcases.resolve_left (by rw [hp]; exact Bool.false_ne_true)
        rw [setParent_of_no_targets hnone hp]
      | true =>
        rw [(h.adopted hf hc hp).1] at herr
        cases herr

theorem setsParent_family : family.Reachable ∧ (family.setParent ⟨2, 0⟩ ⟨3, 0⟩).2.Fits ∧
    family.SetsParent ⟨2, 0⟩ ⟨3, 0⟩ := by
  have hf : (family.setParent ⟨2, 0⟩ ⟨3, 0⟩).2.Fits := by decide +kernel
  exact ⟨reachable_family, hf, reachable_family.setsParent hf⟩

def bereaved : World :=
  World.new.run [.spawn, .spawn, .spawn, .setParent ⟨0, 0⟩ ⟨1, 0⟩, .despawn ⟨2, 0⟩]

/-- The dead entity does not become the parent, and the old parent is gone. -/
theorem setParent_bereaved : bereaved.Reachable ∧ bereaved.targets ⟨0, 0⟩ ⟨0⟩ = [⟨1, 0⟩] ∧
    (bereaved.setParent ⟨0, 0⟩ ⟨2, 0⟩).1 = .error (.staleHandle ⟨2, 0⟩) ∧
    (bereaved.setParent ⟨0, 0⟩ ⟨2, 0⟩).2.targets ⟨0, 0⟩ ⟨0⟩ = [] ∧
    ¬ bereaved.AllOrNothing ⟨0, 0⟩ ⟨2, 0⟩ := by
  have hold : bereaved.targets ⟨0, 0⟩ ⟨0⟩ = [⟨1, 0⟩] := by decide +kernel
  have herr : (bereaved.setParent ⟨0, 0⟩ ⟨2, 0⟩).1 = .error (.staleHandle ⟨2, 0⟩) := by
    decide +kernel
  have hnew : (bereaved.setParent ⟨0, 0⟩ ⟨2, 0⟩).2.targets ⟨0, 0⟩ ⟨0⟩ = [] := by decide +kernel
  refine ⟨Reachable.new.run (by decide +kernel), hold, herr, hnew, fun hwhole => ?_⟩
  rw [hwhole.refused _ herr, hold] at hnew
  cases hnew

end World
end EntityWorld
