import EntityWorld.Proofs.Host.Seeds
import EntityWorld.Proofs.World.Parents
set_option autoImplicit false

/-!
The sub-entities of a record. Each gets an entity of its own below the entity of the enclosing
record, at any depth, whether or not a later one fails; nobody who was there before notices.
-/
namespace EntityWorld

namespace World

variable {u v w : World} {e x child parent : Entity} {made more : List Entity}

/-- From `u` to `v` the entities `made` come, and nobody who was alive notices. -/
structure Builds (u : World) (made : List Entity) (v : World) : Prop where
  wellFormed : v.WellFormed
  registry : v.registry = u.registry
  childOf : v.childOf = u.childOf
  listeners : v.listeners = u.listeners
  nodup : made.Nodup
  fresh : ∀ x ∈ made, u.isAlive x = false
  alive : ∀ x, v.isAlive x = true ↔ u.isAlive x = true ∨ x ∈ made
  contents : ∀ x, u.isAlive x = true → v.contents x = u.contents x
  names : ∀ x, u.isAlive x = true → v.nameOf x = u.nameOf x

namespace Builds

theorem refl (h : u.WellFormed) : Builds u [] u :=
  ⟨h, rfl, rfl, rfl, .nil, nofun, fun x => by simp, fun _ _ => rfl, fun _ _ => rfl⟩

theorem spawn (h : u.WellFormed) (hf : u.Fits) : Builds u [u.spawn.1] u.spawn.2 := by
  obtain ⟨hwellFormed, hfresh, hcontents⟩ := h.spawn hf
  have hdead := contents_eq_none_iff.1 hfresh
  have halive : ∀ x, u.spawn.2.isAlive x = true ↔ u.isAlive x = true ∨ x ∈ [u.spawn.1] := by
    intro x
    rw [List.mem_singleton, or_comm]
    obtain ⟨_, _, _, heq⟩ := spawn_eq h
    rw [heq]
    exact Allocator.isAlive_allocate h.entities (fun _ => hf.slots) x
  have hne : ∀ x, u.isAlive x = true → x ≠ u.spawn.1 := by
    intro x hx hxs
    rw [hxs, hdead] at hx
    cases hx
  refine ⟨hwellFormed, ?_, ?_, ?_, List.nodup_singleton _, fun x hx => ?_, halive, fun x hx => ?_,
    fun x hx => ?_⟩
  · obtain ⟨_, _, _, heq⟩ := spawn_eq h
    rw [heq]
    rfl
  · obtain ⟨_, _, _, heq⟩ := spawn_eq h
    rw [heq]
    rfl
  · obtain ⟨_, _, _, heq⟩ := spawn_eq h
    rw [heq]
    rfl
  · rw [List.mem_singleton.1 hx, hdead]
  · rw [hcontents, Contents.create, Function.update_of_ne (hne x hx)]
  · rw [nameOf, nameOf, if_pos hx, if_pos ((halive x).2 (.inl hx))]
    obtain ⟨_, _, _, heq⟩ := spawn_eq h
    rw [heq]
    rfl

theorem trans (huv : Builds u made v) (hvw : Builds v more w) : Builds u (made ++ more) w := by
  have hold : ∀ x, u.isAlive x = true → v.isAlive x = true := fun x hx => (huv.alive x).2 (.inl hx)
  refine ⟨hvw.wellFormed, hvw.registry.trans huv.registry, hvw.childOf.trans huv.childOf,
    hvw.listeners.trans huv.listeners, ?_, fun x hx => ?_, fun x => ?_, fun x hx => ?_,
    fun x hx => ?_⟩
  · refine List.nodup_append.2 ⟨huv.nodup, hvw.nodup, fun x hx y hy heq => ?_⟩
    have hlive := (huv.alive x).2 (.inr hx)
    rw [heq, hvw.fresh y hy] at hlive
    cases hlive
  · obtain hx | hx := List.mem_append.1 hx
    · exact huv.fresh x hx
    · rw [← Bool.not_eq_true]
      intro hlive
      have hdead := hvw.fresh x hx
      rw [hold x hlive] at hdead
      cases hdead
  · rw [hvw.alive, huv.alive, List.mem_append, or_assoc]
  · rw [hvw.contents x (hold x hx), huv.contents x hx]
  · rw [hvw.names x (hold x hx), huv.names x hx]

theorem dress (h : Builds u made v) (hd : Dresses e v w) (he : e ∈ made) : Builds u made w := by
  have hne : ∀ x, u.isAlive x = true → x ≠ e := by
    intro x hx hxe
    rw [hxe, h.fresh e he] at hx
    cases hx
  refine ⟨hd.wellFormed, hd.registry.trans h.registry, hd.childOf.trans h.childOf,
    hd.listeners.trans h.listeners, h.nodup, h.fresh, fun x => ?_, fun x hx => ?_, fun x hx => ?_⟩
  · rw [hd.isAlive, h.alive]
  · rw [hd.contents x (hne x hx), h.contents x hx]
  · rw [hd.names x (hne x hx), h.names x hx]

theorem peek (h : Builds u made v) (hx : u.isAlive x = true) (id : Id) :
    v.peek x id = u.peek x id := by
  rw [← value?_contents, ← value?_contents, Contents.value?, Contents.value?, h.contents x hx]

theorem carries (h : Builds u made v) (hx : u.isAlive x = true) (id : Id) :
    v.Carries x id ↔ u.Carries x id := by
  rw [Carries, Carries, h.peek hx]

theorem entityCount (h : Builds u made v) (hu : u.WellFormed) :
    v.entityCount = u.entityCount + made.length := by
  have hperm : v.rowEntities.Perm (u.rowEntities ++ made) := by
    refine (List.perm_ext_iff_of_nodup (.of_map _ h.wellFormed.nodup_rowEntities) ?_).2 fun x => ?_
    · refine List.nodup_append.2 ⟨.of_map _ hu.nodup_rowEntities, h.nodup, fun x hx y hy heq => ?_⟩
      have hlive := hu.mem_rowEntities.1 hx
      rw [heq, h.fresh y hy] at hlive
      cases hlive
    · rw [h.wellFormed.mem_rowEntities, h.alive, List.mem_append, hu.mem_rowEntities]
  rw [h.wellFormed.entityCount_eq, hu.entityCount_eq, hperm.length_eq, List.length_append]

theorem typed (h : Builds u made v) (hu : u.Typed) : v.Typed :=
  ⟨h.registry ▸ hu.registry, h.childOf.trans hu.childOf⟩

end Builds

/-! ### Whoever dies with somebody -/

theorem DiesWith.trans {y : Entity} (h : w.DiesWith e x) (hy : w.DiesWith x y) :
    w.DiesWith e y := by
  induction hy with
  | self => exact h
  | source _ hc hi hp ih => exact .source ih hc hi hp

theorem DiesWith.mono (h : u.DiesWith e x) (hr : v.registry = u.registry)
    (hc : ∀ y id, u.Carries y id → v.Carries y id) : v.DiesWith e x := by
  induction h with
  | self => exact .self
  | source _ hcarries hi hp ih => exact .source ih (hc _ _ hcarries) hi (policy_congr hr _ ▸ hp)

/-- What was made since `u` dies with `e`. -/
structure Reared (e : Entity) (u : World) (made : List Entity) (v : World) : Prop where
  builds : Builds u made v
  dies : ∀ x ∈ made, v.DiesWith e x

namespace Reared

theorem dress (h : Reared e u made v) (hd : Dresses x v w) (hx : x ∈ made) :
    Reared e u made w :=
  ⟨h.builds.dress hd hx, fun y hy => (h.dies y hy).mono hd.registry hd.keeps⟩

theorem trans (h : Reared e u made v) (hx : v.DiesWith e x) (h' : Reared x v more w) :
    Reared e u (made ++ more) w := by
  have hkeeps : ∀ y id, v.Carries y id → w.Carries y id := fun y id hy =>
    (h'.builds.carries hy.isAlive id).2 hy
  refine ⟨h.builds.trans h'.builds, fun y hy => ?_⟩
  obtain hy | hy := List.mem_append.1 hy
  · exact (h.dies y hy).mono h'.builds.registry hkeeps
  · exact (hx.mono h'.builds.registry hkeeps).trans (h'.dies y hy)

end Reared

/-! ### One child -/

theorem targets_of_no_ids (h : w.WellFormed) (hc : w.contents e = some fun _ => none)
    (relation : TypeHandle) : w.targets e relation = [] := by
  have he : w.isAlive e = true := by
    by_contra he
    rw [contents_eq_none_iff.2 (Bool.not_eq_true _ ▸ he)] at hc
    cases hc
  obtain ⟨l, a, hs⟩ := h.stands he
  have hids : a.ids = [] := by
    refine List.eq_nil_iff_forall_not_mem.2 fun id hid => ?_
    rw [← h.isSome_value?_iff hs, Option.some.inj (hs.contents.symm.trans hc)] at hid
    cases hid
  have htable : w.archetypeOf? e = some a := by
    rw [archetypeOf?, hs.location]
    exact hs.table
  simp only [targets, htable, hids]
  rfl

theorem Typed.policy_child (h : w.Typed) (parent : Entity) :
    w.policy (Id.pair w.childOf parent) = .delete := by
  simp only [policy, h.typeHandle_child, h.descriptor?_childOf]
  rfl

theorem setName_isOk (h : w.WellFormed) (he : w.isAlive e = true) (name : String) :
    ∃ b, (w.setName e name).1 = .ok b := by
  obtain ⟨l, a, hs⟩ := h.stands he
  unfold setName
  rw [hs.location, if_neg nofun]
  cases w.names.get? name with
  | none => exact ⟨true, rfl⟩
  | some owner =>
    simp only
    split
    · exact ⟨false, rfl⟩
    · exact ⟨true, rfl⟩

theorem WellFormed.setParent_spawn (h : w.WellFormed) (ht : w.Typed) (hp : w.isAlive parent = true)
    (hf : w.spawn.2.Fits) : ∃ v x, w.spawn.2.setParent w.spawn.1 parent = (.ok (), v) ∧
      Dresses w.spawn.1 w.spawn.2 v ∧ v.contents w.spawn.1 =
        some (Function.update (fun _ => none) (Id.pair w.childOf parent) (some x)) := by
  obtain ⟨hs, -, hcontents⟩ := h.spawn ((spawn_grows w).fits hf)
  have hbuilds := Builds.spawn h ((spawn_grows w).fits hf)
  obtain ⟨child, hchild⟩ : ∃ child, w.spawn.1 = child := ⟨_, rfl⟩
  obtain ⟨s, hspawn⟩ : ∃ s, w.spawn.2 = s := ⟨_, rfl⟩
  rw [hchild, hspawn] at hcontents hbuilds
  rw [hspawn] at hs hf
  rw [hchild, hspawn, ← hbuilds.childOf]
  have hparent : s.isAlive parent = true := (hbuilds.alive parent).2 (.inl hp)
  have hempty : s.contents child = some fun _ => none := by
    rw [hcontents, Contents.create, Function.update_self]
  obtain ⟨d, p, hcheck, hdefault⟩ := (hbuilds.typed ht).checkId_child hf hparent
  obtain ⟨hanswer, hbecomes⟩ := hs.add hf child (Id.pair s.childOf parent)
  have hadd : s.contents.add s.checkId child (Id.pair s.childOf parent) =
      (.ok true, s.contents.set child (Id.pair s.childOf parent) p.1) := by
    simp only [Contents.add, hempty, hcheck, hdefault]
  rw [hadd] at hanswer hbecomes
  refine ⟨(s.add child (Id.pair s.childOf parent)).2, p.1, ?_, .of_set hbecomes, ?_⟩
  · have hset : s.setParent child parent = ((s.add child (Id.pair s.childOf parent)).1.map
        fun _ => (), (s.add child (Id.pair s.childOf parent)).2) := by
      have hnone : s.removePairsExcept child s.childOf parent [] = (.ok (), s) := rfl
      simp only [setParent, targets_of_no_ids hs hempty, hnone, addPair, hparent, if_true]
    rw [hset, hanswer]
    rfl
  · rw [hbecomes.contents]
    exact (congrFun (set_eq hempty _ _) child).trans (Function.update_self ..)

theorem WellFormed.spawnChild_reared (h : w.WellFormed) (ht : w.Typed) (hp : w.isAlive e = true)
    (name : String) (hf : (EntityRecord.spawnChild e name w).2.Fits) :
    ∃ v x, EntityRecord.spawnChild e name w = (.ok w.spawn.1, v) ∧ Reared e w [w.spawn.1] v ∧
      v.contents w.spawn.1 =
        some (Function.update (fun _ => none) (Id.pair w.childOf e) (some x)) := by
  have hgrows := (EntityRecord.spawnChild_of_spawn throughout_leads.toWide e name w).grows
  have hfit := hgrows.fits hf
  have hbuilds := Builds.spawn h ((spawn_grows w).fits hfit)
  obtain ⟨s, x, hparent, hdresses, hcontents⟩ := h.setParent_spawn ht hp hfit
  have hlive : s.isAlive w.spawn.1 = true := by
    rw [hdresses.isAlive, hbuilds.alive]
    exact .inr (List.mem_singleton_self _)
  have hend : ∀ path, ∃ b v, s.setName w.spawn.1 path = (.ok b, v) ∧ Reared e w [w.spawn.1] v ∧
      v.contents w.spawn.1 = s.contents w.spawn.1 := by
    intro path
    obtain ⟨b, hb⟩ := setName_isOk hdresses.wellFormed hlive path
    have hkept := congrFun (setName_contents s w.spawn.1 path) w.spawn.1
    have hmade := (hbuilds.dress hdresses (List.mem_singleton_self _)).dress
      (Dresses.setName hdresses.wellFormed w.spawn.1 path) (List.mem_singleton_self _)
    refine ⟨b, (s.setName w.spawn.1 path).2, Prod.ext hb rfl, ⟨hmade, fun y hy => ?_⟩, hkept⟩
    rw [List.mem_singleton.1 hy]
    refine .source .self ?_ (Id.target?_pair w.childOf e) ?_
    · rw [carries_iff_value?, Contents.value?, hkept, hcontents, Option.bind_some,
        Function.update_self, Option.isSome_some]
    · rw [policy_congr hmade.registry]
      exact ht.policy_child e
  unfold EntityRecord.spawnChild
  simp only [hparent]
  cases s.nameOf e with
  | none =>
    obtain ⟨b, v, hname, hreared, hkept⟩ := hend name
    exact ⟨v, x, by simp only [hname], hreared, hkept.trans hcontents⟩
  | some scope =>
    obtain ⟨b, v, hname, hreared, hkept⟩ := hend (scope ++ "." ++ name)
    exact ⟨v, x, by simp only [hname], hreared, hkept.trans hcontents⟩

end World

namespace EntityRecord

def subCount : EntityRecord → Nat
  | nil => 0
  | sub _ record rest => record.subCount + 1 + rest.subCount
  | default _ rest | value _ rest | pair _ _ rest | name _ rest => rest.subCount

/-- The sub-entities of a record have the entities `made`, each before those below it: `good` holds
of each record with the entity of the enclosing record and its own entity. -/
def Offspring (good : EntityRecord → Entity → Entity → Prop) :
    EntityRecord → Entity → List Entity → Prop
  | nil, _, made => made = []
  | sub _ record rest, e, made => ∃ child below beside, made = child :: (below ++ beside) ∧
    good record e child ∧ record.Offspring good child below ∧ rest.Offspring good e beside
  | default _ rest, e, made | value _ rest, e, made | pair _ _ rest, e, made
  | name _ rest, e, made => rest.Offspring good e made

namespace Offspring

variable {good good' : EntityRecord → Entity → Entity → Prop} {e : Entity} {made : List Entity}

theorem length_eq {r : EntityRecord} (h : r.Offspring good e made) : made.length = r.subCount := by
  induction r generalizing e made with
  | nil => exact congrArg List.length h
  | default _ rest ih | value _ rest ih | pair _ _ rest ih | name _ rest ih => exact ih h
  | sub _ record rest ihrecord ih =>
    obtain ⟨child, below, beside, rfl, -, hbelow, hbeside⟩ := h
    rw [List.length_cons, List.length_append, ihrecord hbelow, ih hbeside, subCount]
    omega

theorem imp {r : EntityRecord} (h : r.Offspring good e made)
    (himp : ∀ record parent child, parent ∈ e :: made → child ∈ made → good record parent child →
      good' record parent child) : r.Offspring good' e made := by
  induction r generalizing e made with
  | nil => exact h
  | default _ rest ih | value _ rest ih | pair _ _ rest ih | name _ rest ih => exact ih h himp
  | sub _ record rest ihrecord ih =>
    obtain ⟨child, below, beside, rfl, hchild, hbelow, hbeside⟩ := h
    have hdown : child :: below ⊆ child :: (below ++ beside) :=
      List.cons_subset_cons child (List.subset_append_left below beside)
    have hacross : beside ⊆ child :: (below ++ beside) :=
      List.subset_cons_of_subset child (List.subset_append_right below beside)
    refine ⟨child, below, beside, rfl, ?_, ?_, ?_⟩
    · exact himp _ _ _ List.mem_cons_self List.mem_cons_self hchild
    · exact ihrecord hbelow fun _ _ x hp hx => himp _ _ x (List.mem_cons_of_mem _ (hdown hp))
        (hdown (List.mem_cons_of_mem _ hx))
    · exact ih hbeside fun _ _ x hp hx => himp _ _ x (List.cons_subset_cons e hacross hp)
        (hacross hx)

end Offspring
end EntityRecord

/-! ### All sub-entities -/

namespace World

variable {u v w : World} {e child : Entity} {made : List Entity} {r : EntityRecord}
variable {resolve : ObjectId → Option Entity}

def Grown (resolve : ObjectId → Option Entity) (w : World) (r : EntityRecord)
    (parent child : Entity) : Prop :=
  ∃ x k, w.contents child = some k ∧ r.Seeded w.registry resolve
    (Function.update (fun _ => none) (Id.pair w.childOf parent) (some x)) k

theorem Grown.later (h : Grown resolve v r e child) (hb : Builds v made w)
    (hchild : v.isAlive child = true) : Grown resolve w r e child := by
  obtain ⟨x, k, hk, hseeded⟩ := h
  refine ⟨x, k, (hb.contents child hchild).trans hk, ?_⟩
  rw [hb.registry, hb.childOf]
  exact hseeded

theorem Reared.applySeeds {x : Entity} {k : Id → Option Value} (h : Reared e u [x] w)
    (hk : w.contents x = some k) (hf : (r.applySeeds resolve x w).2.Fits) :
    Reared e u [x] (r.applySeeds resolve x w).2 ∧ ((r.applySeeds resolve x w).1 = .ok () → ∃ k',
      (r.applySeeds resolve x w).2.contents x = some k' ∧ r.Seeded u.registry resolve k k') := by
  have hmem : x ∈ [x] := List.mem_singleton_self x
  have hleaves := h.builds.wellFormed.applySeeds_leaves ((h.builds.alive x).2 (.inr hmem)) hf
  refine ⟨h.dress hleaves.dresses hmem, fun hok => ?_⟩
  rw [← h.builds.registry]
  exact hleaves.law hok k hk

theorem WellFormed.applySubs_reared (h : u.WellFormed) (ht : u.Typed) (he : u.isAlive e = true)
    (hf : (r.applySubs resolve e u).2.Fits) : ∃ made, Reared e u made (r.applySubs resolve e u).2 ∧
      ((r.applySubs resolve e u).1 = .ok () →
        r.Offspring (Grown resolve (r.applySubs resolve e u).2) e made) := by
  have hleads (r : EntityRecord) (e : Entity) (v : World) : v.Leads (r.applySubs resolve e v).2 :=
    EntityRecord.wide_applySubs throughout_leads.toWide resolve r e v
  induction r generalizing e u with
  | nil => exact ⟨[], ⟨.refl h, nofun⟩, fun _ => rfl⟩
  | default _ rest ih | value _ rest ih | pair _ _ rest ih | name _ rest ih => exact ih h ht he hf
  | sub name record rest ihrecord ih =>
    have hspawned := (EntityRecord.sub_of_spawnChild throughout_leads.toWide resolve (hleads record)
      (hleads rest) e name u).grows.fits hf
    obtain ⟨s, x, hspawn, hreared, hcontents⟩ := h.spawnChild_reared ht he name hspawned
    obtain ⟨child, hchild⟩ : ∃ child, u.spawn.1 = child := ⟨_, rfl⟩
    rw [hchild] at hspawn hreared hcontents
    rw [EntityRecord.applySubs_sub resolve hspawn] at hf ⊢
    obtain ⟨hdressed, hlaw⟩ := hreared.applySeeds hcontents (EntityRecord.fits_of_andThen
      (fun t => (EntityRecord.building_andThen throughout_leads.toBuilding (hleads record child t)
        (hleads rest e)).grows) hf)
    obtain ⟨err, v, hseeds, heq⟩ | ⟨v, hseeds, heq⟩ := EntityRecord.andThen_cases
      (record.applySeeds resolve child s) fun t =>
        EntityRecord.andThen (record.applySubs resolve child t) (rest.applySubs resolve e)
    · rw [heq]
      rw [hseeds] at hdressed
      exact ⟨[child], hdressed, nofun⟩
    · rw [heq] at hf ⊢
      rw [hseeds] at hdressed hlaw
      have hmem : child ∈ [child] := List.mem_singleton_self child
      have halive : v.isAlive child = true := (hdressed.builds.alive child).2 (.inr hmem)
      obtain ⟨k, hk, hseeded⟩ := hlaw rfl
      have hgrown : Grown resolve v record e child := by
        refine ⟨x, k, hk, ?_⟩
        rw [hdressed.builds.registry, hdressed.builds.childOf]
        exact hseeded
      obtain ⟨below, hbelow, hlaw⟩ := ihrecord hdressed.builds.wellFormed (hdressed.builds.typed ht)
        halive (EntityRecord.fits_of_andThen (fun t => (hleads rest e t).grows) hf)
      have hboth := hdressed.trans (hdressed.dies child hmem) hbelow
      obtain ⟨err, t, hsubs, heq⟩ | ⟨t, hsubs, heq⟩ := EntityRecord.andThen_cases
        (record.applySubs resolve child v) (rest.applySubs resolve e)
      · rw [heq]
        rw [hsubs] at hboth
        exact ⟨[child] ++ below, hboth, nofun⟩
      · rw [heq] at hf ⊢
        rw [hsubs] at hboth hbelow hlaw
        obtain ⟨beside, hbeside, hlaw'⟩ := ih hboth.builds.wellFormed (hboth.builds.typed ht)
          ((hboth.builds.alive e).2 (.inl he)) hf
        -- what the siblings do later leaves the child and those below it alone
        have hlater : ∀ y, y ∈ [child] ++ below → t.isAlive y = true := fun y hy =>
          (hboth.builds.alive y).2 (.inr hy)
        refine ⟨[child] ++ below ++ beside, hboth.trans .self hbeside, fun hok =>
          ⟨child, below, beside, by simp, ?_, ?_, hlaw' hok⟩⟩
        · exact (hgrown.later hbelow.builds halive).later hbeside.builds (hlater child (by simp))
        · exact (hlaw rfl).imp fun record parent y _ hy hgood =>
            hgood.later hbeside.builds (hlater y (by simp [hy]))

theorem WellFormed.apply_reared (h : u.WellFormed) (ht : u.Typed)
    (hf : (r.apply resolve u.spawn.1 u.spawn.2).2.Fits) : ∃ made,
      Reared u.spawn.1 u (u.spawn.1 :: made) (r.apply resolve u.spawn.1 u.spawn.2).2 ∧
        ((r.apply resolve u.spawn.1 u.spawn.2).1 = .ok () →
          ∃ k, (r.apply resolve u.spawn.1 u.spawn.2).2.contents u.spawn.1 = some k ∧
            r.Seeded u.registry resolve (fun _ => none) k ∧ r.Offspring
              (Grown resolve (r.apply resolve u.spawn.1 u.spawn.2).2) u.spawn.1 made) := by
  have hgrows := EntityRecord.wide_apply throughout_leads.toWide resolve r u.spawn.1 u.spawn.2
  have hfit := (spawn_grows u).fits (hgrows.grows.fits hf)
  have hempty : u.spawn.2.contents u.spawn.1 = some fun _ => none := by
    rw [(h.spawn hfit).2.2, Contents.create, Function.update_self]
  have hreared : Reared u.spawn.1 u [u.spawn.1] u.spawn.2 :=
    ⟨.spawn h hfit, fun x hx => List.mem_singleton.1 hx ▸ .self⟩
  obtain ⟨e, he⟩ : ∃ e, u.spawn.1 = e := ⟨_, rfl⟩
  obtain ⟨s, hs⟩ : ∃ s, u.spawn.2 = s := ⟨_, rfl⟩
  rw [he, hs] at hempty hreared hf ⊢
  rw [EntityRecord.apply_eq] at hf ⊢
  obtain ⟨hdressed, hlaw⟩ := hreared.applySeeds hempty (EntityRecord.fits_of_andThen
    (fun t => (EntityRecord.wide_applySubs throughout_leads.toWide resolve r e t).grows) hf)
  obtain ⟨err, v, hseeds, heq⟩ | ⟨v, hseeds, heq⟩ :=
    EntityRecord.andThen_cases (r.applySeeds resolve e s) (r.applySubs resolve e)
  · rw [heq]
    rw [hseeds] at hdressed
    exact ⟨[], hdressed, fun hok => by cases hok⟩
  · rw [heq] at hf ⊢
    rw [hseeds] at hdressed hlaw
    have halive : v.isAlive e = true :=
      (hdressed.builds.alive e).2 (.inr (List.mem_singleton_self e))
    obtain ⟨made, hmade, hoffspring⟩ :=
      hdressed.builds.wellFormed.applySubs_reared (hdressed.builds.typed ht) halive hf
    obtain ⟨k, hk, hseeded⟩ := hlaw rfl
    refine ⟨made, hdressed.trans .self hmade, fun hok => ⟨k, ?_, hseeded, hoffspring hok⟩⟩
    rw [hmade.builds.contents e halive, hk]

end World
end EntityWorld
