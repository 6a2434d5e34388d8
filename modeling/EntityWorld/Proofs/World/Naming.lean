import EntityWorld.Proofs.World.Names
set_option autoImplicit false

/-!
Names and live entities. Looking up a name finds the live entity that has it and nobody else; a name
is given unless another live entity has it. Those that end leave their names to others, and whoever
takes their slots has none.
-/
namespace EntityWorld.World

variable {v w : World} {e x y : Entity} {m n : String}

namespace Named

theorem lookup_eq_some (h : w.Named) : w.lookup n = some e ↔ w.nameOf e = some n := by
  rw [← h.owner, lookup]
  cases hn : w.names.get? n with
  | none => simp
  | some x =>
    have hx : w.isAlive x = true := (nameOf_eq_some.1 ((h.owner n x).1 hn)).1
    simp [hx]

theorem eq_of_nameOf (h : w.Named) (hx : w.nameOf x = some n) (hy : w.nameOf y = some n) :
    x = y :=
  Option.some.inj (((h.owner n x).2 hx).symm.trans ((h.owner n y).2 hy))

theorem lookup_congr (hw : w.Named) (hv : v.Named)
    (h : ∀ x, v.nameOf x = some n ↔ w.nameOf x = some n) : v.lookup n = w.lookup n :=
  Option.ext fun x => by rw [hv.lookup_eq_some, hw.lookup_eq_some, h x]

end Named

/-! ### Giving a name -/

structure Given (w : World) (e : Entity) (n : String) (v : World) : Prop where
  frame : ∃ names slots, v = { w with names := names, entityNames := slots }
  lookup : v.lookup n = some e
  nameOf : v.nameOf e = some n
  former : ∀ m, w.nameOf e = some m → m ≠ n → v.lookup m = none
  kept : ∀ m, m ≠ n → w.nameOf e ≠ some m → v.lookup m = w.lookup m
  others : ∀ x, x ≠ e → v.nameOf x = w.nameOf x

/-- A name that somebody else has is refused, and nothing changes; any other is given. -/
structure Renames (w : World) (e : Entity) (n : String) : Prop where
  refused : ∀ x, x ≠ e → w.nameOf x = some n → w.setName e n = (.ok false, w)
  given : (∀ x, w.nameOf x = some n → x = e) → ∃ v, w.setName e n = (.ok true, v) ∧ w.Given e n v

theorem Named.setName_of_taken (h : w.Named) (hl : w.location? e ≠ none) (hx : x ≠ e)
    (hn : w.nameOf x = some n) : w.setName e n = (.ok false, w) := by
  have hlive : w.isAlive x = true := (nameOf_eq_some.1 hn).1
  simp [World.setName, hl, (h.owner n x).2 hn, hx, hlive]

theorem Named.setName_of_free (h : w.Named) (hl : w.location? e ≠ none)
    (hfree : ∀ x, w.nameOf x = some n → x = e) :
    (w.setName e n).1 = .ok true ∧
      (w.setName e n).2.entityNames = w.entityNames.insert e.index n := by
  cases hn : w.names.get? n with
  | none => simp [World.setName, hl, hn]
  | some x =>
    obtain rfl : x = e := hfree x ((h.owner n x).1 hn)
    simp [World.setName, hl, hn]

theorem Named.given (h : w.Named) (he : w.isAlive e = true) (hl : w.location? e ≠ none)
    (hfree : ∀ x, w.nameOf x = some n → x = e) : w.Given e n (w.setName e n).2 := by
  obtain ⟨names, slots, hframe⟩ := setName_eq w e n
  have hnew : (w.setName e n).2.nameOf e = some n := by
    rw [nameOf_eq_some, (h.setName_of_free hl hfree).2, FinMap.get?_insert, if_pos rfl, hframe]
    exact ⟨he, rfl⟩
  have hnamed : (w.setName e n).2.Named := h.setName e n
  have hothers : ∀ x, x ≠ e → (w.setName e n).2.nameOf x = w.nameOf x := fun x hx =>
    nameOf_setName w hx n
  refine ⟨⟨names, slots, hframe⟩, hnamed.lookup_eq_some.2 hnew, hnew, fun m hm hmn => ?_,
    fun m hmn hm => ?_, hothers⟩
  · refine Option.eq_none_iff_forall_ne_some.2 fun x hx => ?_
    have hxm := hnamed.lookup_eq_some.1 hx
    by_cases hxe : x = e
    · rw [hxe, hnew] at hxm
      exact hmn (Option.some.inj hxm).symm
    · rw [hothers x hxe] at hxm
      exact hxe (h.eq_of_nameOf hxm hm)
  · refine h.lookup_congr hnamed fun x => ?_
    by_cases hxe : x = e
    · rw [hxe, hnew]
      exact iff_of_false (fun hnm => hmn (Option.some.inj hnm).symm) hm
    · rw [hothers x hxe]

theorem Named.renames (h : w.Named) (hw : w.WellFormed) (he : w.isAlive e = true) (n : String) :
    w.Renames e n := by
  obtain ⟨l, a, hs⟩ := hw.stands he
  have hl : w.location? e ≠ none := by
    rw [hs.location]
    exact Option.some_ne_none l
  exact ⟨fun x hx hn => h.setName_of_taken hl hx hn, fun hfree =>
    ⟨_, Prod.ext (h.setName_of_free hl hfree).1 rfl, h.given he hl hfree⟩⟩

/-! ### Those that come and those that end -/

theorem Named.nameOf_spawn (h : w.Named) (hw : w.WellFormed) (hf : w.Fits) (x : Entity) :
    w.spawn.2.nameOf x = w.nameOf x := by
  obtain ⟨_, -, -, hspawn⟩ := spawn_eq hw
  rw [hspawn]
  exact h.nameOf_allocate hw hf x

theorem Named.lookup_spawn (h : w.Named) (hw : w.WellFormed) (hf : w.Fits) (n : String) :
    w.spawn.2.lookup n = w.lookup n :=
  h.lookup_congr (rowless_named.spawn hw hf h) fun x => by rw [h.nameOf_spawn hw hf]

theorem waning_names :
    Waning fun w v => ∀ n x, v.names.get? n = some x → w.names.get? n = some x where
  refl _ _ _ hx := hx
  trans huv hvw n x hx := huv n x (hvw n x hx)
  remove w e id n x hx := by
    obtain ⟨_, _, _, heq⟩ := remove_eq w e id
    rw [heq] at hx
    exact hx
  despawnOne {w e} _ n x hx := by
    obtain heq | ⟨-, hnames, -⟩ := despawnOne_names w e
    · rwa [heq] at hx
    · rw [hnames, dropName_names] at hx
      split at hx
      · cases hx
      · exact hx

/-- Who is left in `v` has kept its name, and the names of those that have ended are free. -/
structure Frees (w : World) (v : World) : Prop where
  kept : ∀ x, v.isAlive x = true → v.nameOf x = w.nameOf x
  freed : ∀ x n, w.nameOf x = some n → v.isAlive x = false → v.lookup n = none

theorem Named.frees_despawn (h : w.Named) (e : Entity) : w.Frees (w.despawn e).2 := by
  refine ⟨fun x hx => (waning_spares.despawn w e x hx).2, fun x n hn hdead => ?_⟩
  rw [lookup]
  split
  · next y hy =>
    -- whoever is still in the table had the name before, so it is the one that ended
    obtain rfl : y = x :=
      h.eq_of_nameOf ((h.owner n y).1 (waning_names.despawn w e n y hy)) hn
    rw [hdead, if_neg Bool.false_ne_true]
  · rfl

/-- Names and live entities determine each other, as far as there are names. -/
structure Identifies (w : World) : Prop where
  lookup : ∀ n e, w.lookup n = some e ↔ w.isAlive e = true ∧ w.nameOf e = some n
  unique : ∀ n x y, w.nameOf x = some n → w.nameOf y = some n → x = y
  renames : ∀ e n, w.isAlive e = true → w.Renames e n
  newcomer : w.spawn.2.nameOf w.spawn.1 = none
  spawn : ∀ n, w.spawn.2.lookup n = w.lookup n
  despawn : ∀ e, w.Frees (w.despawn e).2

theorem Reachable.identifies (h : w.Reachable) : w.Identifies := by
  have hnamed := h.named
  have hw := h.wellFormed
  refine ⟨fun n e => ?_, fun n x y => hnamed.eq_of_nameOf, fun e n he => hnamed.renames hw he n, ?_,
    hnamed.lookup_spawn hw h.fits, hnamed.frees_despawn⟩
  · rw [hnamed.lookup_eq_some]
    exact (and_iff_right_of_imp fun hn => (nameOf_eq_some.1 hn).1).symm
  · have hdead : w.isAlive w.spawn.1 = false := contents_eq_none_iff.1 (hw.spawn h.fits).2.1
    rw [hnamed.nameOf_spawn hw h.fits, nameOf, hdead, if_neg Bool.false_ne_true]

/-- Entity 0 was the door and has died; its slot is taken, and entity 1 is the door now. -/
def rehung : World :=
  World.new.run [.spawn, .spawn, .setName ⟨0, 0⟩ "door", .setName ⟨1, 0⟩ "gate", .despawn ⟨0, 0⟩,
    .spawn, .setName ⟨1, 0⟩ "door"]

theorem identifies_rehung : rehung.Reachable ∧ rehung.Identifies ∧
    rehung.isAlive ⟨0, 1⟩ = true ∧ rehung.nameOf ⟨1, 0⟩ = some "door" ∧
    rehung.setName ⟨0, 1⟩ "door" = (.ok false, rehung) := by
  have h : rehung.Reachable := Reachable.new.run (by decide +kernel)
  have he : rehung.isAlive ⟨0, 1⟩ = true := by decide +kernel
  have hdoor : rehung.nameOf ⟨1, 0⟩ = some "door" := by decide +kernel
  have hrenames : rehung.Renames ⟨0, 1⟩ "door" := h.identifies.renames _ _ he
  exact ⟨h, h.identifies, he, hdoor, hrenames.refused ⟨1, 0⟩ (by decide) hdoor⟩

end EntityWorld.World
