import EntityWorld.Proofs.World.Invariant
import Mathlib.Data.List.TakeWhile
set_option autoImplicit false

/-!
Despawning takes along whoever holds a pair that must not outlive its target. The entities that die
are the closure of the first one under this relation, whatever the order in which they are found.
-/
namespace EntityWorld

namespace World

variable {u v w : World} {e t x : Entity} {id : Id}

/-- `x` is alive and has a value for `id`. -/
def Carries (w : World) (x : Entity) (id : Id) : Prop := (w.peek x id).isSome = true

def policy (w : World) (id : Id) : CleanupPolicy :=
  match w.descriptor? id.typeHandle with
  | some d => d.cleanup
  | none => .remove

/-- The entities that have to die with `e`. -/
inductive DiesWith (w : World) (e : Entity) : Entity → Prop where
  | self : DiesWith w e e
  | source {x t : Entity} {id : Id} : DiesWith w e t → w.Carries x id →
      id.target? = some t.index → w.policy id = .delete → DiesWith w e x

theorem Carries.isAlive (h : w.Carries x id) : w.isAlive x = true := by
  unfold Carries peek at h
  rw [location?_eq] at h
  split at h
  · next hl =>
    split at hl
    · assumption
    · cases hl
  · cases h

/-! ### The sources of a target -/

theorem WellFormed.carries_iff (h : w.WellFormed) : w.Carries x id ↔
    ∃ a ∈ w.storage.archetypes, x ∈ a.entities ∧ id ∈ a.ids := by
  constructor
  · intro hx
    obtain ⟨l, a, hs⟩ := h.stands hx.isAlive
    refine ⟨a, Array.mem_of_getElem? hs.table, Array.mem_of_getElem? hs.entity, ?_⟩
    rwa [Carries, hs.peek, h.isSome_value?_iff hs] at hx
  · intro hex
    obtain ⟨a, ha, hx, hid⟩ := hex
    obtain ⟨row, hrow⟩ := Array.mem_iff_getElem?.1 hx
    have hs := h.stands_of_mem ha hrow
    rwa [Carries, hs.peek, h.isSome_value?_iff hs]

theorem WellFormed.mem_pairSources (h : w.WellFormed) {p : CleanupPolicy} :
    (x, id, p) ∈ w.pairSources t ↔
      w.Carries x id ∧ id.target? = some t.index ∧ p = w.policy id := by
  rw [h.carries_iff]
  simp only [pairSources, List.mem_flatMap, Array.mem_toList_iff, List.mem_filter, List.mem_map,
    beq_iff_eq, Prod.mk.injEq]
  constructor
  · intro hex
    obtain ⟨a, ha, i, ⟨hi, ht⟩, y, hy, hyx, hiid, hp⟩ := hex
    subst hyx hiid
    exact ⟨⟨a, ha, hy, hi⟩, ht, hp.symm⟩
  · intro hex
    obtain ⟨⟨a, ha, hx, hid⟩, ht, hp⟩ := hex
    exact ⟨a, ha, id, ⟨hid, ht⟩, x, hx, rfl, rfl, hp.symm⟩

/-! ### One round -/

theorem WellFormed.peek_sweepPairs (sources : List (Entity × Id × CleanupPolicy))
    (h : w.WellFormed) (doomed : List Entity) (hf : (w.sweepPairs doomed sources).1.Fits)
    (x : Entity) (i : Id) :
    (w.sweepPairs doomed sources).1.peek x i =
      if (x, i, CleanupPolicy.remove) ∈ sources then none else w.peek x i := by
  induction sources generalizing w doomed with
  | nil => simp [World.sweepPairs]
  | cons s rest ih =>
    obtain ⟨y, id, policy⟩ := s
    cases policy with
    | delete =>
      rw [World.sweepPairs, ih h _ hf]
      simp
    | remove =>
      have hgrows := (throughout_leads.sweepPairs rest (w.remove y id).2 doomed).grows
      have hremove := (h.remove ((remove_grows w y id).fits (hgrows.fits hf)) y id).becomes
      have hpeek : (w.remove y id).2.peek x i = if x = y ∧ i = id then none else w.peek x i := by
        rw [← value?_contents, hremove.contents, Contents.remove_snd, Contents.value?_unset,
          value?_contents]
      rw [World.sweepPairs, ih hremove.wellFormed _ hf, hpeek]
      by_cases hrest : (x, i, CleanupPolicy.remove) ∈ rest
      · simp [hrest]
      · by_cases hxi : x = y ∧ i = id
        · simp [hxi]
        · simp [hrest, hxi]

theorem mem_sweepPairs (sources : List (Entity × Id × CleanupPolicy)) (w : World)
    (doomed : List Entity) : x ∈ (w.sweepPairs doomed sources).2 ↔
      x ∈ doomed ∨ ∃ id, (x, id, CleanupPolicy.delete) ∈ sources := by
  induction sources generalizing w doomed with
  | nil => simp [sweepPairs]
  | cons s rest ih =>
    obtain ⟨y, id, policy⟩ := s
    cases policy with
    | delete =>
      rw [sweepPairs, ih, List.mem_cons]
      constructor
      · intro hx
        obtain (rfl | hx) | ⟨i, hx⟩ := hx
        · exact .inr ⟨id, List.mem_cons_self⟩
        · exact .inl hx
        · exact .inr ⟨i, List.mem_cons_of_mem _ hx⟩
      · intro hx
        obtain hx | ⟨i, hx⟩ := hx
        · exact .inl (.inr hx)
        · obtain heq | hx := List.mem_cons.1 hx
          · cases heq
            exact .inl (.inl rfl)
          · exact .inr ⟨i, hx⟩
    | remove =>
      rw [sweepPairs, ih]
      simp

theorem policy_congr (hr : v.registry = w.registry) (id : Id) : v.policy id = w.policy id := by
  simp only [policy, descriptor?, hr]

theorem Ends.peek (h : w.Ends e v) (hx : x ≠ e) (id : Id) : v.peek x id = w.peek x id := by
  rw [← value?_contents, ← value?_contents, h.contents, Contents.value?, Contents.value?,
    Function.update_of_ne hx]

theorem Ends.isAlive (h : w.Ends e v) (he : w.isAlive e = true) (x : Entity) :
    v.isAlive x = true ↔ w.isAlive x = true ∧ x ≠ e := by
  rw [World.isAlive, h.entities]
  exact Allocator.isAlive_deallocate he x

theorem Ends.entityCount (h : w.Ends e v) (hw : w.WellFormed) (he : w.isAlive e = true) :
    v.entityCount + 1 = w.entityCount := by
  rw [World.entityCount, h.entities]
  exact Allocator.aliveCount_deallocate hw.entities he

/-- What a round for `next` does: `v` becomes `u`, and `queue` is left to do instead of `rest`. -/
structure Round (v : World) (next : Entity) (rest : List Entity) (u : World)
    (queue : List Entity) : Prop where
  wellFormed : u.WellFormed
  registry : u.registry = v.registry
  listeners : u.listeners = v.listeners.map fun s => { s with heard := next :: s.heard }
  entityCount : u.entityCount + 1 = v.entityCount
  alive : ∀ x, u.isAlive x = true ↔ v.isAlive x = true ∧ x ≠ next
  swept : ∀ x i, x ≠ next → i.target? = some next.index → v.policy i = .remove →
    u.peek x i = none
  kept : ∀ x i, x ≠ next → (i.target? = some next.index → v.policy i ≠ .remove) →
    u.peek x i = v.peek x i
  queued : ∀ x, x ∈ queue ↔ x ∈ rest ∨
    ∃ id, v.Carries x id ∧ id.target? = some next.index ∧ v.policy id = .delete

variable {pending rest dead queue : List Entity} {next : Entity}

theorem WellFormed.round (h : v.WellFormed) (hnext : v.isAlive next = true)
    (hf : (v.sweepPairs rest (v.pairSources next)).1.Fits) :
    v.Round next rest ((v.sweepPairs rest (v.pairSources next)).1.despawnOne next)
      (v.sweepPairs rest (v.pairSources next)).2 := by
  have hsweep := h.sweepPairs (v.pairSources next) rest hf
  have hpeek := h.peek_sweepPairs (v.pairSources next) rest hf
  obtain ⟨u, hu⟩ : ∃ u, (v.sweepPairs rest (v.pairSources next)).1 = u := ⟨_, rfl⟩
  rw [hu] at hsweep hpeek ⊢
  have hnextu : u.isAlive next = true := by rw [hsweep.isAlive, hnext]
  have hends := hsweep.wellFormed.despawnOne hnextu
  refine ⟨hends.wellFormed, ?_, ?_, ?_, fun x => ?_, fun x i hx hi hp => ?_,
    fun x i hx hno => ?_, fun x => ?_⟩
  · rw [hends.registry, hsweep.registry]
  · rw [hends.listeners, hsweep.listeners]
  · rw [hends.entityCount hsweep.wellFormed hnextu, World.entityCount, hsweep.entities]
    rfl
  · rw [hends.isAlive hnextu, hsweep.isAlive]
  · rw [hends.peek hx, hpeek]
    split
    · rfl
    · next hno =>
      rw [h.mem_pairSources] at hno
      rw [← Option.isNone_iff_eq_none, ← Option.isSome_eq_false_iff, ← Bool.not_eq_true]
      exact fun hc => hno ⟨hc, hi, hp.symm⟩
  · rw [hends.peek hx, hpeek, if_neg]
    intro hmem
    obtain ⟨-, hi, hp⟩ := h.mem_pairSources.1 hmem
    exact hno hi hp.symm
  · simp only [mem_sweepPairs, h.mem_pairSources, eq_comm (a := CleanupPolicy.delete)]

/-! ### The loop -/

/-- How far a cascade that began with the end of `e` in `w` has come: `v` is the world now, the
entities of `dead` have ended, the last one first, and those of `pending` are to end. -/
structure Cascading (w : World) (e : Entity) (v : World) (pending dead : List Entity) : Prop where
  wellFormed : v.WellFormed
  registry : v.registry = w.registry
  listeners : v.listeners = w.listeners.map fun s => { s with heard := dead ++ s.heard }
  nodup : dead.Nodup
  alive : ∀ x, v.isAlive x = true ↔ w.isAlive x = true ∧ x ∉ dead
  began : w.isAlive e = true
  started : e ∈ dead ∨ e ∈ pending
  sound : ∀ x, x ∈ dead ∨ x ∈ pending → w.DiesWith e x
  complete : ∀ x id t, v.isAlive x = true → t ∈ dead → w.Carries x id →
    id.target? = some t.index → w.policy id = .delete → x ∈ pending
  removed : ∀ x id t, v.isAlive x = true → t ∈ dead → id.target? = some t.index →
    w.policy id = .remove → v.peek x id = none
  kept : ∀ x id, v.isAlive x = true →
    (∀ t ∈ dead, id.target? = some t.index → w.policy id ≠ .remove) → v.peek x id = w.peek x id

theorem Cascading.start (h : w.WellFormed) (he : w.isAlive e = true) :
    Cascading w e w [e] [] where
  wellFormed := h
  registry := rfl
  listeners := by simp
  nodup := List.nodup_nil
  alive x := by simp
  began := he
  started := .inr List.mem_cons_self
  sound x hx := by
    simp only [List.not_mem_nil, List.mem_singleton, false_or] at hx
    exact hx ▸ .self
  complete x id t _ ht := absurd ht List.not_mem_nil
  removed x id t _ ht := absurd ht List.not_mem_nil
  kept x id _ _ := rfl

theorem mem_dropWhile_of_alive {p : Entity → Bool} (hx : x ∈ pending) (hp : p x = false) :
    x ∈ pending.dropWhile p := by
  induction pending with
  | nil => cases hx
  | cons y rest ih =>
    rw [List.dropWhile_cons]
    split
    · next hy =>
      obtain rfl | hx := List.mem_cons.1 hx
      · rw [hp] at hy
        cases hy
      · exact ih hx
    · exact hx

/-- Pairs that kill are not touched before their holder dies. -/
theorem Cascading.peek_delete (h : Cascading w e v pending dead) (hx : v.isAlive x = true)
    (hp : w.policy id = .delete) : v.peek x id = w.peek x id := by
  refine h.kept x id hx fun t _ _ hr => ?_
  rw [hp] at hr
  cases hr

theorem Cascading.round (h : Cascading w e v pending dead)
    (hnext : pending.dropWhile (fun x => !v.isAlive x) = next :: rest)
    (hr : v.Round next rest u queue) : Cascading w e u queue (next :: dead) := by
  have hpolicy : ∀ id, v.policy id = w.policy id := policy_congr h.registry
  have hnextalive : v.isAlive next = true := isAlive_of_dropWhile hnext
  have hsub : ∀ x, x ∈ next :: rest → x ∈ pending := fun x hx =>
    (List.dropWhile_sublist _).subset (hnext ▸ hx)
  have hlive : ∀ x, x ∈ pending → v.isAlive x = true → x ∈ next :: rest := by
    intro x hx hxv
    rw [← hnext]
    exact mem_dropWhile_of_alive hx (by rw [hxv]; rfl)
  refine ⟨hr.wellFormed, ?_, ?_, ?_, fun x => ?_, h.began, ?_, fun x hx => ?_,
    fun x id t hx ht hc hi hp => ?_, fun x id t hx ht hi hp => ?_, fun x id hx hno => ?_⟩
  · rw [hr.registry, h.registry]
  · rw [hr.listeners, h.listeners, List.map_map]
    rfl
  · exact List.nodup_cons.2 ⟨((h.alive next).1 hnextalive).2, h.nodup⟩
  · rw [hr.alive, h.alive, List.mem_cons, not_or, and_assoc, and_comm (a := x ∉ dead)]
  · by_cases hdead : e ∈ dead
    · exact .inl (List.mem_cons_of_mem _ hdead)
    · have hmem := hlive e (h.started.resolve_left hdead) ((h.alive e).2 ⟨h.began, hdead⟩)
      obtain rfl | hrest := List.mem_cons.1 hmem
      · exact .inl List.mem_cons_self
      · exact .inr ((hr.queued e).2 (.inl hrest))
  · have hnextdies := h.sound next (.inr (hsub next List.mem_cons_self))
    obtain hx | hx := hx
    · obtain rfl | hx := List.mem_cons.1 hx
      · exact hnextdies
      · exact h.sound x (.inl hx)
    · obtain hx | ⟨id, hc, hi, hp⟩ := (hr.queued x).1 hx
      · exact h.sound x (.inr (hsub x (List.mem_cons_of_mem _ hx)))
      · rw [hpolicy] at hp
        have hcw : w.Carries x id := by rwa [Carries, ← h.peek_delete hc.isAlive hp]
        exact .source hnextdies hcw hi hp
  · obtain ⟨hxv, hxnext⟩ := (hr.alive x).1 hx
    rw [hr.queued]
    obtain rfl | ht := List.mem_cons.1 ht
    · refine .inr ⟨id, ?_, hi, (hpolicy id).trans hp⟩
      rwa [Carries, h.peek_delete hxv hp]
    · have hmem := hlive x (h.complete x id t hxv ht hc hi hp) hxv
      exact .inl ((List.mem_cons.1 hmem).resolve_left hxnext)
  · obtain ⟨hxv, hxnext⟩ := (hr.alive x).1 hx
    by_cases hin : id.target? = some next.index
    · exact hr.swept x id hxnext hin ((hpolicy id).trans hp)
    · rw [hr.kept x id hxnext fun hi => absurd hi hin]
      obtain rfl | ht := List.mem_cons.1 ht
      · exact absurd hi hin
      · exact h.removed x id t hxv ht hi hp
  · obtain ⟨hxv, hxnext⟩ := (hr.alive x).1 hx
    rw [hr.kept x id hxnext fun hi => hpolicy id ▸ hno next List.mem_cons_self hi]
    exact h.kept x id hxv fun t ht => hno t (List.mem_cons_of_mem _ ht)

theorem not_isAlive_of_entityCount (h : w.WellFormed) (hn : w.entityCount = 0) (x : Entity) :
    w.isAlive x = false := by
  rw [h.entityCount_eq, List.length_eq_zero_iff] at hn
  rw [← Bool.not_eq_true, ← h.mem_rowEntities, hn]
  exact List.not_mem_nil

theorem fits_of_cascade {n : Nat}
    (hf : (cascade n ((v.sweepPairs rest (v.pairSources next)).1.despawnOne next)
      (v.sweepPairs rest (v.pairSources next)).2).Fits) :
    (v.sweepPairs rest (v.pairSources next)).1.Fits :=
  ((despawnOne_grows _ next).trans (throughout_leads.cascade n _ _).grows).fits hf

/-- With a round for every live entity, nothing that is pending is alive in the end. -/
theorem Cascading.run (n : Nat) (h : Cascading w e v pending dead) (hn : v.entityCount ≤ n)
    (hf : (cascade n v pending).Fits) :
    ∃ left dead', Cascading w e (cascade n v pending) left dead' ∧
      ∀ x ∈ left, (cascade n v pending).isAlive x = false := by
  induction n generalizing v pending dead with
  | zero =>
    exact ⟨pending, dead, h, fun x _ => not_isAlive_of_entityCount h.wellFormed (by omega) x⟩
  | succ n ih =>
    cases hnext : pending.dropWhile fun x => !v.isAlive x with
    | nil =>
      have hstop : cascade (n + 1) v pending = v := by simp only [cascade, hnext]
      rw [hstop]
      refine ⟨pending, dead, h, fun x hx => ?_⟩
      simpa using List.dropWhile_eq_nil_iff.1 hnext x hx
    | cons next rest =>
      have hstep : cascade (n + 1) v pending =
          cascade n ((v.sweepPairs rest (v.pairSources next)).1.despawnOne next)
            (v.sweepPairs rest (v.pairSources next)).2 := by
        simp only [cascade, hnext]
      rw [hstep] at hf ⊢
      have hround := h.wellFormed.round (isAlive_of_dropWhile hnext) (fits_of_cascade hf)
      have hcount := hround.entityCount
      exact ih (h.round hnext hround) (by omega) hf

theorem cascade_rounds (n : Nat) (h : v.WellFormed) (hn : v.entityCount ≤ n)
    (hf : (cascade n v pending).Fits) (k : Nat) :
    cascade (n + k) v pending = cascade n v pending := by
  induction n generalizing v pending with
  | zero =>
    cases k with
    | zero => rfl
    | succ k =>
      have hnil : pending.dropWhile (fun x => !v.isAlive x) = [] := by
        rw [List.dropWhile_eq_nil_iff]
        intro x _
        rw [not_isAlive_of_entityCount h (by omega)]
        rfl
      rw [Nat.zero_add]
      simp only [cascade, hnil]
  | succ n ih =>
    rw [Nat.succ_add]
    cases hnext : pending.dropWhile fun x => !v.isAlive x with
    | nil => simp only [cascade, hnext]
    | cons next rest =>
      simp only [cascade, hnext] at hf ⊢
      have hround := h.round (isAlive_of_dropWhile hnext) (fits_of_cascade hf)
      have hcount := hround.entityCount
      exact ih hround.wellFormed (by omega) hf

theorem Cascading.mem_dead (h : Cascading w e v pending dead)
    (hstop : ∀ x ∈ pending, v.isAlive x = false) : x ∈ dead ↔ w.DiesWith e x := by
  constructor
  · intro hx
    exact h.sound x (.inl hx)
  · intro hx
    have hgone : ∀ y, w.isAlive y = true → v.isAlive y = false → y ∈ dead := by
      intro y hy hv
      by_contra hdead
      rw [(h.alive y).2 ⟨hy, hdead⟩] at hv
      cases hv
    induction hx with
    | self =>
      obtain hdead | hpending := h.started
      · exact hdead
      · exact hgone e h.began (hstop e hpending)
    | source _ hc hi hp ih =>
      refine hgone _ hc.isAlive ?_
      by_contra hlive
      rw [Bool.not_eq_false] at hlive
      have hpending := h.complete _ _ _ hlive ih hc hi hp
      rw [hstop _ hpending] at hlive
      cases hlive

/-- The world `v` after the end of `e` and of all that has to die with it. -/
structure CascadeOf (w : World) (e : Entity) (v : World) : Prop where
  died : ∀ x, v.isAlive x = true ↔ w.isAlive x = true ∧ ¬ w.DiesWith e x
  heard : ∃ dead : List Entity, dead.Nodup ∧ (∀ x, x ∈ dead ↔ w.DiesWith e x) ∧
    v.listeners = w.listeners.map fun s => { s with heard := dead ++ s.heard }
  kept : ∀ x id, v.isAlive x = true →
    (∀ t, w.DiesWith e t → id.target? = some t.index → w.policy id ≠ .remove) →
    v.peek x id = w.peek x id
  freed : ∀ x id t, v.isAlive x = true → w.DiesWith e t → id.target? = some t.index →
    v.peek x id = none
  registry : v.registry = w.registry
  ended : ∀ n, w.entityCount ≤ n → cascade n w [e] = v

theorem WellFormed.despawn_cascadeOf (h : w.WellFormed) (he : w.isAlive e = true)
    (hf : (w.despawn e).2.Fits) : w.CascadeOf e (w.despawn e).2 := by
  have hv : (w.despawn e).2 = cascade w.entityCount w [e] := by rw [despawn, if_pos he]
  rw [hv] at hf ⊢
  obtain ⟨left, dead, hc, hstop⟩ := (Cascading.start h he).run _ (Nat.le_refl _) hf
  have hdead : ∀ x, x ∈ dead ↔ w.DiesWith e x := fun x => hc.mem_dead hstop
  refine ⟨fun x => ?_, ⟨dead, hc.nodup, hdead, hc.listeners⟩, fun x id hx hno => ?_,
    fun x id t hx ht hi => ?_, hc.registry, fun n hn => ?_⟩
  · rw [hc.alive, hdead]
  · exact hc.kept x id hx fun t ht => hno t ((hdead t).1 ht)
  · cases hp : w.policy id with
    | remove => exact hc.removed x id t hx ((hdead t).2 ht) hi hp
    | delete =>
      have hkept := hc.kept x id hx fun _ _ _ hr => by rw [hp] at hr; cases hr
      rw [hkept, ← Option.isNone_iff_eq_none, ← Option.isSome_eq_false_iff, ← Bool.not_eq_true]
      intro hcarries
      have hpending := hc.complete x id t hx ((hdead t).2 ht) hcarries hi hp
      rw [hstop x hpending] at hx
      cases hx
  · obtain ⟨k, rfl⟩ := Nat.exists_eq_add_of_le hn
    exact cascade_rounds _ h (Nat.le_refl _) hf k

/-- A live entity goes with exactly those that have to die with it; a stale handle is refused. -/
theorem Reachable.despawn_spec (h : w.Reachable) (e : Entity) (hf : (w.despawn e).2.Fits) :
    (w.isAlive e = true → (w.despawn e).1 = true ∧ w.CascadeOf e (w.despawn e).2) ∧
      (w.isAlive e = false → w.despawn e = (false, w)) := by
  constructor
  · intro he
    refine ⟨?_, h.wellFormed.despawn_cascadeOf he hf⟩
    rw [despawn, if_pos he]
  · intro he
    rw [despawn, he, if_neg Bool.false_ne_true]

/-- The end of 0 takes 1 and 2 along, and leaves 3 alone. -/
theorem despawn_family : family.isAlive ⟨0, 0⟩ = true ∧ (family.despawn ⟨0, 0⟩).2.Fits ∧
    (family.despawn ⟨0, 0⟩).1 = true ∧ family.CascadeOf ⟨0, 0⟩ (family.despawn ⟨0, 0⟩).2 := by
  have he : family.isAlive ⟨0, 0⟩ = true := by decide +kernel
  have hf : (family.despawn ⟨0, 0⟩).2.Fits := by decide +kernel
  exact ⟨he, hf, (reachable_family.despawn_spec ⟨0, 0⟩ hf).1 he⟩

end World
end EntityWorld
