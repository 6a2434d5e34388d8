import EntityWorld.Proofs.World.Reachable
set_option autoImplicit false

/-!
The names of a world. The two tables are each other's inverse and speak of live entities alone, so
they say no more than which live entity has which name.
-/
namespace EntityWorld.World

variable {v w : World} {e x : Entity} {i : UInt32} {n name : String}

theorem nameOf_eq_some :
    w.nameOf e = some n ↔ w.isAlive e = true ∧ w.entityNames.get? e.index = some n := by
  unfold nameOf
  split
  · next he => exact (and_iff_right he).symm
  · next he => simp [he]

structure Named (w : World) : Prop where
  owner : ∀ n e, w.names.get? n = some e ↔ w.nameOf e = some n
  slot : ∀ i n, w.entityNames.get? i = some n → ∃ e, e.index = i ∧ w.nameOf e = some n

theorem Named.tables_eq (hw : w.Named) (hv : v.Named) (h : ∀ e, v.nameOf e = w.nameOf e) :
    (∀ n, v.names.get? n = w.names.get? n) ∧ ∀ i, v.entityNames.get? i = w.entityNames.get? i := by
  have hslot {u : World} (hu : u.Named) (i : UInt32) (n : String) :
      u.entityNames.get? i = some n ↔ ∃ e, e.index = i ∧ u.nameOf e = some n := by
    refine ⟨hu.slot i n, fun hex => ?_⟩
    obtain ⟨e, rfl, he⟩ := hex
    exact (nameOf_eq_some.1 he).2
  refine ⟨fun n => Option.ext fun e => ?_, fun i => Option.ext fun n => ?_⟩
  · rw [hv.owner, hw.owner, h]
  · rw [hslot hv, hslot hw]
    simp only [h]

/-! ### Giving a name -/

theorem get?_freed (names : FinMap String Entity) (old : Option String) (n : String) :
    (match old with
      | some old => names.erase old
      | none => names).get? n = if old = some n then none else names.get? n := by
  cases old with
  | none => rfl
  | some old =>
    rw [FinMap.get?_erase]
    simp only [Option.some.injEq, eq_comm]

theorem setName_cases (w : World) (e : Entity) (name : String) : (w.setName e name).2 = w ∨
    w.isAlive e = true ∧ (∀ x, w.names.get? name = some x → x = e ∨ w.isAlive x = false) ∧
      (w.setName e name).2 = { w with
        names := (match w.entityNames.get? e.index with
          | some old => w.names.erase old
          | none => w.names).insert name e
        entityNames := w.entityNames.insert e.index name } := by
  unfold setName
  split
  · exact .inl rfl
  · next hl =>
    have he : w.isAlive e = true := by
      by_contra he
      rw [location?_eq, if_neg he] at hl
      exact hl rfl
    cases hn : w.names.get? name with
    | none => exact .inr ⟨he, fun x hx => absurd hx (Option.some_ne_none x).symm, rfl⟩
    | some owner =>
      simp only
      split
      · exact .inl rfl
      · next htaken =>
        refine .inr ⟨he, fun x hx => ?_, rfl⟩
        obtain rfl := Option.some.inj hx
        by_cases hx : owner = e
        · exact .inl hx
        · exact .inr (by simpa [hx] using htaken)

theorem nameOf_setName (w : World) (he : x ≠ e) (name : String) :
    (w.setName e name).2.nameOf x = w.nameOf x := by
  obtain heq | ⟨halive, -, heq⟩ := setName_cases w e name
  · rw [heq]
  · rw [heq]
    refine Option.ext fun n => ?_
    rw [nameOf_eq_some, nameOf_eq_some]
    refine and_congr_right fun hx => ?_
    have hne : x.index ≠ e.index := fun hi => he (Allocator.eq_of_isAlive hx halive hi)
    rw [FinMap.get?_insert, if_neg hne]

theorem Named.get?_given (h : w.Named) (he : w.isAlive e = true)
    (hfree : ∀ x, w.names.get? name = some x → x = e ∨ w.isAlive x = false) (n : String)
    (x : Entity) : ((match w.entityNames.get? e.index with
        | some old => w.names.erase old
        | none => w.names).insert name e).get? n = some x ↔
      (x = e ∧ n = name) ∨ (x ≠ e ∧ w.nameOf x = some n) := by
  have hold : w.entityNames.get? e.index = some n ↔ w.nameOf e = some n := by
    rw [nameOf_eq_some, and_iff_right he]
  rw [FinMap.get?_insert, get?_freed]
  simp only [hold]
  by_cases hx : x = e
  · subst hx
    have hown : w.names.get? n = some x ↔ w.nameOf x = some n := h.owner n x
    by_cases hn : n = name
    · simp [hn]
    · simp [hn, hown]
  · by_cases hn : n = name
    · -- a live entity with the name would have kept it
      have hno : w.nameOf x ≠ some name := fun hname => by
        obtain hxe | hdead := hfree x ((h.owner name x).2 hname)
        · exact hx hxe
        · rw [(nameOf_eq_some.1 hname).1] at hdead
          cases hdead
      simp [hn, hx, Ne.symm hx, hno]
    · rw [if_neg hn]
      split
      · next hen =>
        refine iff_of_false (Option.some_ne_none x).symm fun hor => hx ?_
        have hxn := (hor.resolve_left fun hxe => hx hxe.1).2
        exact Option.some.inj (((h.owner n x).2 hxn).symm.trans ((h.owner n e).2 hen))
      · simp [hx, h.owner]

theorem Named.setName (h : w.Named) (e : Entity) (name : String) : (w.setName e name).2.Named := by
  have hother : ∀ x, x ≠ e → (w.setName e name).2.nameOf x = w.nameOf x := fun x hx =>
    nameOf_setName w hx name
  obtain heq | ⟨he, hfree, heq⟩ := setName_cases w e name
  · rw [heq]
    exact h
  · have hself : (w.setName e name).2.nameOf e = some name := by
      rw [heq, nameOf_eq_some, FinMap.get?_insert, if_pos rfl]
      exact ⟨he, rfl⟩
    constructor
    · intro n x
      rw [congrArg World.names heq, h.get?_given he hfree]
      by_cases hx : x = e
      · simp [hx, hself, eq_comm]
      · simp [hx, hother x hx]
    · intro i n hi
      rw [congrArg World.entityNames heq, FinMap.get?_insert] at hi
      split at hi
      · next hie =>
        obtain rfl := Option.some.inj hi
        exact ⟨e, hie.symm, hself⟩
      · next hie =>
        obtain ⟨x, hxi, hx⟩ := h.slot i n hi
        exact ⟨x, hxi, (hother x fun hxe => hie (by rw [← hxi, hxe])).trans hx⟩

/-! ### Losing one -/

theorem dropName_names (w : World) (i : UInt32) (n : String) : (w.dropName i).names.get? n =
    if w.entityNames.get? i = some n then none else w.names.get? n := by
  unfold dropName
  cases w.entityNames.get? i with
  | none => rfl
  | some old =>
    rw [FinMap.get?_erase]
    simp only [Option.some.injEq, eq_comm]

theorem dropName_entityNames (w : World) (i j : UInt32) : (w.dropName i).entityNames.get? j =
    if j = i then none else w.entityNames.get? j := by
  cases hi : w.entityNames.get? i with
  | none =>
    have hsame : w.dropName i = w := by simp only [dropName, hi]
    rw [hsame]
    by_cases hj : j = i
    · rw [if_pos hj, hj, hi]
    · rw [if_neg hj]
  | some old =>
    simp only [dropName, hi]
    exact FinMap.get?_erase _ _ _

theorem despawnOne_names (w : World) (e : Entity) : w.despawnOne e = w ∨
    (w.despawnOne e).entities = (w.entities.deallocate e).2 ∧
      (w.despawnOne e).names = (w.dropName e.index).names ∧
      (w.despawnOne e).entityNames = (w.dropName e.index).entityNames := by
  have hdrop : ∀ u places s told,
      u = { w with locations := places, storage := s, events := told } →
        (u.dropName e.index).entities = w.entities ∧
          (u.dropName e.index).names = (w.dropName e.index).names ∧
          (u.dropName e.index).entityNames = (w.dropName e.index).entityNames := by
    intro u places s told hu
    subst hu
    unfold dropName
    cases w.entityNames.get? e.index <;> exact ⟨rfl, rfl, rfl⟩
  have hend : w.despawnOne e = w ∨ ∃ u places s told,
      u = { w with locations := places, storage := s, events := told } ∧
        w.despawnOne e = { u.dropName e.index with
          entities := ((u.dropName e.index).entities.deallocate e).2 }.announce e := by
    unfold despawnOne
    split
    · exact .inl rfl
    · next l _ =>
      cases hr : w.storage.removeRow l.archetype l.row with
      | none =>
        simp only [hr]
        exact .inr ⟨_, _, _, _, rfl, rfl⟩
      | some m =>
        simp only [hr]
        rw [relocate_eq]
        exact .inr ⟨_, _, _, _, rfl, rfl⟩
  obtain heq | ⟨u, places, s, told, hu, heq⟩ := hend
  · exact .inl heq
  · obtain ⟨hentities, hnames, hslots⟩ := hdrop u places s told hu
    rw [heq]
    exact .inr ⟨congrArg (fun a => (a.deallocate e).2) hentities, hnames, hslots⟩

theorem nameOf_despawnOne (he : w.isAlive e = true) (hx : (w.despawnOne e).isAlive x = true) :
    w.isAlive x = true ∧ (w.despawnOne e).nameOf x = w.nameOf x := by
  obtain heq | ⟨hentities, -, hslots⟩ := despawnOne_names w e
  · rw [heq] at hx ⊢
    exact ⟨hx, rfl⟩
  · have hlive := hx
    rw [isAlive, hentities, Allocator.isAlive_deallocate he] at hlive
    have hne : x.index ≠ e.index := fun hi => hlive.2 (Allocator.eq_of_isAlive hlive.1 he hi)
    refine ⟨hlive.1, ?_⟩
    rw [nameOf, nameOf, if_pos hx, if_pos (show w.isAlive x = true from hlive.1), hslots,
      dropName_entityNames, if_neg hne]

/-- Who is alive in `v` was so in `w`, with the same name. -/
def Spares (w v : World) : Prop :=
  ∀ x, v.isAlive x = true → w.isAlive x = true ∧ v.nameOf x = w.nameOf x

theorem waning_spares : Waning Spares where
  refl _ _ hx := ⟨hx, rfl⟩
  trans huv hvw x hx := by
    obtain ⟨hv, hname⟩ := hvw x hx
    obtain ⟨hu, hname'⟩ := huv x hv
    exact ⟨hu, hname.trans hname'⟩
  remove w e id x hx := by
    obtain ⟨_, _, _, heq⟩ := remove_eq w e id
    rw [heq] at hx ⊢
    exact ⟨hx, rfl⟩
  despawnOne he _ := nameOf_despawnOne he

theorem Named.despawnOne (h : w.Named) (hw : w.WellFormed) (he : w.isAlive e = true) :
    (w.despawnOne e).Named := by
  obtain ⟨v, hv⟩ : ∃ v, w.despawnOne e = v := ⟨_, rfl⟩
  have halive : ∀ x, v.isAlive x = true ↔ w.isAlive x = true ∧ x ≠ e := by
    intro x
    rw [← hv, isAlive, (hw.despawnOne he).entities]
    exact Allocator.isAlive_deallocate he x
  have hname : ∀ x n, v.nameOf x = some n ↔ w.nameOf x = some n ∧ x ≠ e := by
    intro x n
    by_cases hx : v.isAlive x = true
    · rw [← hv] at hx ⊢
      rw [(nameOf_despawnOne he hx).2]
      exact (and_iff_left (((hv ▸ halive) x).1 hx).2).symm
    · refine iff_of_false (fun hn => hx (nameOf_eq_some.1 hn).1) fun hn => hx ?_
      exact (halive x).2 ⟨(nameOf_eq_some.1 hn.1).1, hn.2⟩
  obtain heq | ⟨-, hnames, hslots⟩ := despawnOne_names w e
  · rw [heq]
    exact h
  · rw [hv] at hnames hslots ⊢
    constructor
    · intro n x
      rw [hnames, hname, dropName_names]
      split
      · next hen =>
        refine iff_of_false (Option.some_ne_none x).symm fun hx => hx.2 ?_
        have hown := (h.owner n e).2 (nameOf_eq_some.2 ⟨he, hen⟩)
        exact Option.some.inj (((h.owner n x).2 hx.1).symm.trans hown)
      · next hen =>
        rw [h.owner]
        refine (and_iff_left_of_imp fun hx => ?_).symm
        exact fun hxe => hen (hxe ▸ (nameOf_eq_some.1 hx).2)
    · intro i n hi
      rw [hslots, dropName_entityNames] at hi
      split at hi
      · cases hi
      · next hie =>
        obtain ⟨x, hxi, hx⟩ := h.slot i n hi
        exact ⟨x, hxi, (hname x n).2 ⟨hx, fun hxe => hie (by rw [← hxi, hxe])⟩⟩

/-! ### All steps -/

theorem Named.nameOf_allocate (h : w.Named) (hw : w.WellFormed) (hf : w.Fits) (x : Entity) :
    { w with entities := w.entities.allocate.2 }.nameOf x = w.nameOf x := by
  have hroom : w.entities.HasRoom := fun _ => hf.slots
  refine Option.ext fun n => ?_
  rw [nameOf_eq_some, nameOf_eq_some, isAlive,
    Allocator.isAlive_allocate hw.entities hroom x, or_and_right]
  refine or_iff_right fun hx => ?_
  -- the slot was free, so it had no name
  obtain ⟨rfl, hn⟩ := hx
  obtain ⟨y, hy, hyn⟩ := h.slot _ n hn
  have hfree := Allocator.resolve_allocate_fst hw.entities hroom
  rw [Allocator.resolve_eq_some_iff.2 ⟨hy, (nameOf_eq_some.1 hyn).1⟩] at hfree
  cases hfree

theorem Named.allocate (h : w.Named) (hw : w.WellFormed) (hf : w.Fits) :
    { w with entities := w.entities.allocate.2 }.Named := by
  refine ⟨fun n x => ?_, fun i n hi => ?_⟩
  · rw [h.nameOf_allocate hw hf]
    exact h.owner n x
  · obtain ⟨x, hxi, hx⟩ := h.slot i n hi
    exact ⟨x, hxi, (h.nameOf_allocate hw hf x).trans hx⟩

theorem rowless_named : Rowless fun w v => w.Named → v.Named where
  refl _ := id
  trans huv hvw h := hvw (huv h)
  rows _ _ _ _ h := ⟨h.owner, h.slot⟩
  listeners _ _ h := ⟨h.owner, h.slot⟩
  setName _ e name h := h.setName e name
  registerType w d h := by
    unfold registerType
    split
    · exact ⟨h.owner, h.slot⟩
    · exact h
  allocate hw hf h := h.allocate hw hf
  despawnOne hw he h := h.despawnOne hw he

theorem Named.of_empty (hn : w.names = .empty) (hk : w.entityNames = .empty) : w.Named := by
  refine ⟨fun n e => ?_, fun i n hi => ?_⟩
  · rw [hn, nameOf_eq_some, hk]
    simp
  · rw [hk] at hi
    cases hi

theorem Named.perform (h : w.Named) (hw : w.WellFormed) (op : Operation)
    (hf : (w.perform op).Fits) : (w.perform op).Named := by
  by_cases hop : op = .shutdown
  · subst hop
    obtain ⟨heard, heq⟩ := shutdown_eq w
    exact .of_empty (congrArg World.names heq) (congrArg World.entityNames heq)
  · exact (rowless_named.throughout.perform w hop).holds hw hf h

theorem Reachable.named (h : w.Reachable) : w.Named := by
  induction h with
  | new => exact .of_empty rfl rfl
  | step op hr hf ih => exact ih.perform hr.wellFormed op hf

end EntityWorld.World
