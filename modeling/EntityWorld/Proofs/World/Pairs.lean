import EntityWorld.Proofs.World.Cascade
import EntityWorld.Proofs.World.Refinement
import Mathlib.Data.List.Induction
set_option autoImplicit false

/-!
Which entity a pair means. A pair keeps the slot of its target and not the handle, so it stays true
to the handle it was added for only as long as the pair does not outlive that entity. A record
beside the world keeps these handles, and tells when a pair has come to mean somebody else or
nobody.
-/
namespace EntityWorld

/-- An operation, and the handle that is meant as the target of the pair that it may add. -/
structure Intent where
  op : Operation
  target : Entity

namespace Intent

/-- The entity and the id that an operation adds as they are, without a look at a target. -/
def raw? : Operation → Option (Entity × Id)
  | .edit (.add e id) | .edit (.ensureDefault e id) => some (e, id)
  | _ => none

/-- The handle is the one that the operation names, or one that the named slot has had. -/
def Names : Operation → Entity → Prop
  | .edit (.add _ id), t | .edit (.ensureDefault _ id), t => ∀ i, id.target? = some i → t.index = i
  | .addPair _ _ target, t => t = target
  | .setParent _ parent, t => t = parent
  | _, _ => True

/-- An operation that can be performed; a buffer is applied by the operations of its commands. -/
structure Legal (s : Intent) (w : World) : Prop where
  single : ∀ b, s.op ≠ .applyCommands b
  names : Names s.op s.target
  fits : (w.perform s.op).Fits

/-- The operation adds a pair by its id alone, and the handle that was meant is dead. -/
def Dangles (s : Intent) (w : World) : Prop :=
  ∃ e id, raw? s.op = some (e, id) ∧ id.isPair = true ∧ ¬ w.Carries e id ∧
    (w.perform s.op).Carries e id ∧ w.isAlive s.target = false

end Intent

instance (w : World) (x : Entity) (id : Id) : Decidable (w.Carries x id) :=
  inferInstanceAs (Decidable ((w.peek x id).isSome = true))

/-- A world, and for each pair on an entity the handle that it was added for. -/
structure Recorded where
  world : World
  handle : Entity → Id → Option Entity

namespace Recorded

def new : Recorded := ⟨World.new, fun _ _ => none⟩

def step (r : Recorded) (s : Intent) : Recorded where
  world := r.world.perform s.op
  handle x id :=
    if (r.world.perform s.op).Carries x id then
      if r.world.Carries x id then r.handle x id else some s.target
    else none

def after (steps : List Intent) : Recorded := steps.foldl step new

/-- Every pair means the live entity in its slot, by the handle that the pair was added for. -/
def Faithful (r : Recorded) : Prop :=
  ∀ x id i, r.world.Carries x id → id.target? = some i →
    ∃ t, r.handle x id = some t ∧ r.world.resolve i = some t

end Recorded

namespace World

variable {u v w : World} {e t x : Entity} {id : Id} {relation : TypeHandle}

/-! ### Having a pair -/

theorem carries_iff_value? : w.Carries x id ↔ (w.contents.value? x id).isSome = true := by
  rw [Carries, value?_contents]

theorem WellFormed.has_iff_carries (h : w.WellFormed) (hw : id.isWildcard = false) :
    w.has e id = true ↔ w.Carries e id := by
  rw [h.has_iff hw, carries_iff_value?, Contents.value?, Option.isSome_bind]
  cases w.contents e with
  | none => simp
  | some m => simp

theorem Fits.isWildcard_pair (hf : w.Fits) (ht : w.isAlive t = true) (relation : TypeHandle) :
    (Id.pair relation t).isWildcard = false := by
  have hlt := Nat.lt_trans (Allocator.index_lt_of_isAlive ht) hf.slots
  have hne : t.index ≠ Id.wildcardIndex := by
    intro hi
    rw [hi] at hlt
    exact absurd hlt (by decide)
  simp [Id.isWildcard, Id.pair, hne]

theorem WellFormed.hasPair_iff (h : w.WellFormed) (hf : w.Fits) :
    w.hasPair e relation t = true ↔ w.isAlive t = true ∧ w.Carries e (Id.pair relation t) := by
  rw [hasPair, Bool.and_eq_true]
  exact and_congr_right fun ht => h.has_iff_carries (hf.isWildcard_pair ht relation)

/-! ### Operations that add no pair -/

/-- No entity has an id in `v` that it had not in `w`. -/
def Sheds (w v : World) : Prop := ∀ x id, v.Carries x id → w.Carries x id

theorem Sheds.trans (h₁ : u.Sheds v) (h₂ : v.Sheds w) : u.Sheds w :=
  fun x id h => h₁ x id (h₂ x id h)

theorem Sheds.of_contents (h : v.contents = w.contents) : w.Sheds v := by
  intro x id hx
  rwa [carries_iff_value?, h, ← carries_iff_value?] at hx

theorem isAlive_of_contents (h : v.contents = w.contents) (x : Entity) :
    v.isAlive x = w.isAlive x := by
  have hx : v.isAlive x = false ↔ w.isAlive x = false := by
    rw [← contents_eq_none_iff, ← contents_eq_none_iff, h]
  rw [Bool.eq_iff_iff, ← Bool.not_eq_false, hx, Bool.not_eq_false]

theorem WellFormed.remove_sheds (h : w.WellFormed) (hf : w.Fits) (e : Entity) (id : Id) :
    w.Sheds (w.remove e id).2 := by
  intro x i hx
  rw [carries_iff_value?, (h.remove hf e id).becomes.contents, Contents.remove_snd,
    Contents.value?_unset] at hx
  split at hx
  · cases hx
  · rwa [carries_iff_value?]

theorem WellFormed.removePairsExcept (old : List Entity) (h : w.WellFormed) {relation : TypeHandle}
    {kept : Entity} (hf : (w.removePairsExcept e relation kept old).2.Fits) :
    w.Becomes (w.removePairsExcept e relation kept old).2.contents
        (w.removePairsExcept e relation kept old).2 ∧
      w.Sheds (w.removePairsExcept e relation kept old).2 := by
  induction old generalizing w with
  | nil => exact ⟨.refl h, fun _ _ hx => hx⟩
  | cons y rest ih =>
    have hgrows := (throughout_leads.removePairsExcept e relation kept (y :: rest) w).grows
    have hbecomes := (h.remove (hgrows.fits hf) e (Id.pair relation y)).becomes
    have hsheds := h.remove_sheds (hgrows.fits hf) e (Id.pair relation y)
    unfold World.removePairsExcept removePair at hf ⊢
    split at hf
    · next hy =>
      rw [if_pos hy]
      exact ih h hf
    · next hy =>
      rw [if_neg hy]
      split at hf
      · next hr =>
        rw [hr] at hbecomes hsheds
        obtain ⟨hrest, hshed⟩ := ih hbecomes.wellFormed hf
        exact ⟨hbecomes.trans hrest, hsheds.trans hshed⟩
      · next hr =>
        rw [hr] at hbecomes hsheds
        exact ⟨(hbecomes.trans (.refl hbecomes.wellFormed)), hsheds⟩

/-! ### What an operation does to pairs -/

/-- Each pair of `v` was there in `w`, or is one of those that `added` tells, and a live target of a
pair has stayed alive. -/
structure Settles (w v : World) (added : Entity → Id → Prop) : Prop where
  old : ∀ x id i, v.Carries x id → id.target? = some i → w.Carries x id ∨ added x id
  alive : ∀ x id t, v.Carries x id → id.target? = some t.index → w.isAlive t = true →
    v.isAlive t = true

theorem Sheds.settles (h : w.Sheds v) (ha : ∀ t, w.isAlive t = true → v.isAlive t = true)
    (added : Entity → Id → Prop) : w.Settles v added :=
  ⟨fun x id _ hx _ => .inl (h x id hx), fun _ _ t _ _ ht => ha t ht⟩

theorem settles_of_contents (h : v.contents = w.contents) (added : Entity → Id → Prop) :
    w.Settles v added :=
  (Sheds.of_contents h).settles (fun t ht => by rwa [isAlive_of_contents h]) added

theorem WellFormed.edit_settles (h : w.WellFormed) (hf : w.Fits) (x : Edit) :
    w.Settles (x.run w).2 fun y i => (y, i) = x.target := by
  have hx := (h.edit hf x).becomes
  refine ⟨fun y i _ hc _ => ?_, fun _ _ t _ _ ht => ?_⟩
  · by_cases hy : (y, i) = x.target
    · exact .inr hy
    · left
      rwa [carries_iff_value?, hx.contents, (Contents.edit_sameBut x).entries y i hy,
        ← carries_iff_value?] at hc
  · rwa [hx.isAlive]

theorem WellFormed.addPair_settles (h : w.WellFormed) (hf : w.Fits) (e : Entity)
    (relation : TypeHandle) (t : Entity) :
    w.Settles (w.addPair e relation t).2 fun y i =>
      y = e ∧ i = Id.pair relation t ∧ w.isAlive t = true := by
  unfold addPair
  split
  · next ht =>
    have hadd := h.edit_settles hf (.add e (Id.pair relation t))
    refine ⟨fun y i k hc hk => ?_, hadd.alive⟩
    obtain hold | hnew := hadd.old y i k hc hk
    · exact .inl hold
    · cases hnew
      exact .inr ⟨rfl, rfl, ht⟩
  · exact settles_of_contents rfl _

theorem WellFormed.setParent_settles (h : w.WellFormed) {child parent : Entity}
    (hf : (w.setParent child parent).2.Fits) :
    w.Settles (w.setParent child parent).2 fun y i =>
      y = child ∧ i = Id.pair w.childOf parent ∧ w.isAlive parent = true := by
  have hremove : ∀ r u, w.removePairsExcept child w.childOf parent (w.targets child w.childOf) =
      (r, u) → u.Fits → w.Becomes u.contents u ∧ w.Sheds u := by
    intro r u hr hu
    have hpairs :=
      h.removePairsExcept (e := child) (w.targets child w.childOf) (by rw [hr]; exact hu)
    rwa [hr] at hpairs
  unfold setParent at hf ⊢
  split at hf
  · next u hr =>
    obtain ⟨hbecomes, hsheds⟩ := hremove _ _ hr hf
    exact hsheds.settles (fun t ht => by rwa [hbecomes.isAlive]) _
  · next u hr =>
    have hu := (throughout_leads.addPair u child u.childOf parent).grows.fits hf
    obtain ⟨hbecomes, hsheds⟩ := hremove _ _ hr hu
    have hchild : u.childOf = w.childOf := by rw [hbecomes.frame]
    have hadd := hbecomes.wellFormed.addPair_settles hu child u.childOf parent
    refine ⟨fun y i k hc hk => ?_, fun y i t hc hk ht => ?_⟩
    · obtain hold | ⟨hy, hi, hp⟩ := hadd.old y i k hc hk
      · exact .inl (hsheds y i hold)
      · rw [hchild] at hi
        rw [hbecomes.isAlive] at hp
        exact .inr ⟨hy, hi, hp⟩
    · refine hadd.alive y i t hc hk ?_
      rwa [hbecomes.isAlive]

theorem WellFormed.despawn_settles (h : w.WellFormed) (hf : (w.despawn e).2.Fits)
    (added : Entity → Id → Prop) : w.Settles (w.despawn e).2 added := by
  cases he : w.isAlive e with
  | false =>
    have hsame : w.despawn e = (false, w) := by rw [despawn, he, if_neg Bool.false_ne_true]
    rw [hsame]
    exact settles_of_contents rfl _
  | true =>
    have hc := h.despawn_cascadeOf he hf
    -- a pair that is still there does not point at a slot that was freed
    have hfree : ∀ x id t, (w.despawn e).2.Carries x id → id.target? = some t.index →
        ¬ w.DiesWith e t := by
      intro x id t hx hi ht
      have hnone := hc.freed x id t hx.isAlive ht hi
      rw [Carries, hnone] at hx
      cases hx
    refine ⟨fun x id i hx _ => ?_, fun x id t hx hi ht => (hc.died t).2 ⟨ht, hfree x id t hx hi⟩⟩
    left
    have hkept := hc.kept x id hx.isAlive fun t ht hi _ => hfree x id t hx hi ht
    rwa [Carries, hkept] at hx

theorem WellFormed.spawn_settles (h : w.WellFormed) (hf : w.Fits) (added : Entity → Id → Prop) :
    w.Settles w.spawn.2 added := by
  obtain ⟨-, hfresh, hcontents⟩ := h.spawn hf
  refine Sheds.settles (fun x id hx => ?_) (fun t ht => ?_) added
  · rw [carries_iff_value?, hcontents, Contents.value?, Contents.create] at hx
    by_cases hxe : x = w.spawn.1
    · rw [hxe, Function.update_self] at hx
      cases hx
    · rwa [Function.update_of_ne hxe, ← Contents.value?, ← carries_iff_value?] at hx
  · have hne : t ≠ w.spawn.1 := by
      intro hte
      rw [contents_eq_none_iff, ← hte, ht] at hfresh
      cases hfresh
    rw [← Bool.not_eq_false, ← contents_eq_none_iff, hcontents, Contents.create,
      Function.update_of_ne hne, contents_eq_none_iff, ht]
    decide

theorem WellFormed.carries_iff_row (h : w.WellFormed) : w.Carries x id ↔
    ∃ l m, w.storage.row? l = some (x, m) ∧ (m id).isSome = true := by
  constructor
  · intro hx
    obtain ⟨l, a, hs⟩ := h.stands hx.isAlive
    rw [Carries, hs.peek] at hx
    exact ⟨l, _, hs.row, hx⟩
  · intro hex
    obtain ⟨l, m, hl, hm⟩ := hex
    obtain ⟨a, hs, rfl⟩ := h.stands_of_row hl
    rwa [Carries, hs.peek]

theorem WellFormed.write_table_settles {i : ArchetypeId} {a : Archetype} (h : w.WellFormed)
    (ha : w.storage.get? i = some a) (id : Id) {row : Nat} {f : Column → Column × List HookEvent}
    {u : Value} (htype : ∀ c, (f c).1.type = c.type)
    (hrows : ∀ c, (f c).1.rows = c.rows.setIfInBounds row u) (added : Entity → Id → Prop) :
    w.Settles { w with storage := w.storage.set (a.updateColumn id f).1 } added := by
  have hv := h.write_table ha id htype hrows
  obtain ⟨-, hset⟩ := h.storage.set_write ha id htype hrows
  have hsheds : w.Sheds { w with storage := w.storage.set (a.updateColumn id f).1 } := by
    intro x j hx
    obtain ⟨l, m, hl, hm⟩ := hv.carries_iff_row.1 hx
    rw [hset] at hl
    rw [h.carries_iff_row]
    by_cases hp : l = ⟨i, row⟩
    · rw [hp, Function.update_self, Option.map_eq_some_iff] at hl
      obtain ⟨⟨y, k⟩, hk, heq⟩ := hl
      cases heq
      refine ⟨⟨i, row⟩, k, hk, ?_⟩
      by_cases hj : j = id
      · rw [hj] at hm ⊢
        simpa using hm
      · simpa [hj] using hm
    · rw [Function.update_of_ne hp] at hl
      exact ⟨l, m, hl, hm⟩
  exact hsheds.settles (fun t ht => ht) added

theorem WellFormed.overwrite_settles (h : w.WellFormed) (e : Entity) (id : Id) (v : Value)
    (added : Entity → Id → Prop) : w.Settles (w.overwrite e id v) added := by
  unfold overwrite
  split
  · exact settles_of_contents rfl _
  · next l _ =>
    split
    · exact settles_of_contents rfl _
    · next ha =>
      let f : Column → Column × List HookEvent := fun c =>
        ({ c with rows := c.rows.setIfInBounds l.row v }, [])
      have hrows : ∀ c, (f c).1.rows = c.rows.setIfInBounds l.row v := fun _ => rfl
      exact h.write_table_settles ha id (fun _ => rfl) hrows _

theorem Settles.note {added : Entity → Id → Prop} (h : w.Settles v added)
    (events : List HookEvent) : w.Settles (v.note events) added :=
  ⟨h.old, h.alive⟩

theorem WellFormed.rowSet_settles (h : w.WellFormed) (r : Row) (k : TypeHandle) (t : HostType)
    (v : Value) (added : Entity → Id → Prop) : w.Settles (w.rowSet r k t v).2 added := by
  unfold rowSet
  split
  · exact settles_of_contents rfl _
  · split
    · exact settles_of_contents rfl _
    · split
      · exact settles_of_contents rfl _
      · split
        · exact settles_of_contents rfl _
        · next ha =>
          split
          · exact settles_of_contents rfl _
          · exact (h.write_table_settles ha _ (fun c => c.type_assign r.row v _)
              (fun c => c.rows_assign r.row v _) _).note _

theorem WellFormed.ensureDefaultTyped_settles (h : w.WellFormed) (hf : w.Fits) (e : Entity)
    (k : TypeHandle) (t : HostType) :
    w.Settles (w.ensureDefaultTyped e k t).2 fun y i => y = e ∧ i = Id.component k := by
  have hadd : w.Settles (w.add e (Id.component k)).2 fun y i => y = e ∧ i = Id.component k := by
    have hedit := h.edit_settles hf (.add e (Id.component k))
    refine ⟨fun y i j hc hi => ?_, hedit.alive⟩
    obtain hold | hnew := hedit.old y i j hc hi
    · exact .inl hold
    · cases hnew
      exact .inr ⟨rfl, rfl⟩
  unfold ensureDefaultTyped
  split
  · exact settles_of_contents rfl _
  · split
    · exact settles_of_contents rfl _
    · split
      · next hr =>
        rw [hr] at hadd
        exact hadd
      · next hr =>
        rw [hr] at hadd
        split <;> exact hadd

theorem registerType_contents (w : World) (d : TypeDescription) :
    (w.registerType d).2.contents = w.contents := by
  unfold registerType
  split <;> rfl

theorem setName_contents (w : World) (e : Entity) (name : String) :
    (w.setName e name).2.contents = w.contents := by
  obtain ⟨n, k, heq⟩ := setName_eq w e name
  rw [heq]
  rfl

theorem not_isAlive_shutdown (w : World) (x : Entity) : w.shutdown.isAlive x = false := by
  obtain ⟨heard, heq⟩ := shutdown_eq w
  rw [heq, isAlive, Allocator.not_isAlive_clear]

theorem not_carries_shutdown (w : World) (x : Entity) (id : Id) : ¬ w.shutdown.Carries x id := by
  intro hx
  cases (w.not_isAlive_shutdown x).symm.trans hx.isAlive

def Added (w : World) : Operation → Entity → Id → Prop
  | .edit x, y, i => (y, i) = x.target
  | .addPair e relation t, y, i => y = e ∧ i = Id.pair relation t ∧ w.isAlive t = true
  | .setParent child parent, y, i =>
    y = child ∧ i = Id.pair w.childOf parent ∧ w.isAlive parent = true
  | .ensureDefaultTyped e k _, y, i => y = e ∧ i = Id.component k
  | _, _, _ => False

theorem WellFormed.perform_settles (h : w.WellFormed) (op : Operation)
    (hop : ∀ b, op ≠ .applyCommands b) (hw : w.Fits) (hf : (w.perform op).Fits) :
    w.Settles (w.perform op) (w.Added op) := by
  cases op with
  | registerType d => exact settles_of_contents (w.registerType_contents d) _
  | spawn => exact h.spawn_settles hw _
  | despawn e => exact h.despawn_settles hf _
  | edit x => exact h.edit_settles hw x
  | ensureDefaultTyped e k t => exact h.ensureDefaultTyped_settles hw e k t
  | read e k t => exact settles_of_contents (w.read_contents e k t) _
  | readValue e id => exact settles_of_contents (w.readValue_contents e id) _
  | overwrite e id v => exact h.overwrite_settles e id v _
  | rowSet r k t v => exact h.rowSet_settles r k t v _
  | addPair e relation target => exact h.addPair_settles hw e relation target
  | removePair e relation target =>
    have hremove := (h.remove hw e (Id.pair relation target)).becomes
    refine (h.remove_sheds hw e _).settles (fun t ht => ?_) _
    show (w.remove e (Id.pair relation target)).2.isAlive t = true
    rwa [hremove.isAlive]
  | setParent child parent => exact h.setParent_settles hf
  | setName e name => exact settles_of_contents (w.setName_contents e name) _
  | applyCommands b => exact absurd rfl (hop b)
  | listen s | takeHeard s | note events | takeEvents =>
    exact ⟨fun _ _ _ hc _ => .inl hc, fun _ _ _ _ _ ht => ht⟩
  | shutdown =>
    exact ⟨fun x id _ hc _ => absurd hc (not_carries_shutdown w x id),
      fun x id _ hc _ _ => absurd hc (not_carries_shutdown w x id)⟩

end World

/-! ### The record along a run -/

theorem Id.target?_pair (relation : TypeHandle) (t : Entity) :
    (Id.pair relation t).target? = some t.index := by
  simp [Id.pair, Id.target?]

theorem Id.isPair_of_target? {id : Id} {i : UInt32} (h : id.target? = some i) :
    id.isPair = true := by
  unfold Id.target? at h
  split at h
  · assumption
  · cases h

theorem Id.target?_component (k : TypeHandle) : (Id.component k).target? = none := by
  simp [Id.target?]

namespace Recorded

variable {r : Recorded} {s : Intent}

theorem resolve_added (hw : r.world.WellFormed) (hf : r.world.Fits) (hl : s.Legal r.world)
    (hd : ¬ s.Dangles r.world) {x : Entity} {id : Id} {i : UInt32}
    (hc : (r.world.perform s.op).Carries x id) (hi : id.target? = some i)
    (hold : ¬ r.world.Carries x id) :
    s.target.index = i ∧ r.world.isAlive s.target = true := by
  obtain ⟨op, t⟩ := s
  have hnew := ((hw.perform_settles op hl.single hf hl.fits).old x id i hc hi).resolve_left hold
  cases op with
  | edit y =>
    have hnames := hl.names
    cases y with
    | add e id' | ensureDefault e id' =>
      cases hnew
      refine ⟨hnames i hi, ?_⟩
      by_contra hdead
      rw [Bool.not_eq_true] at hdead
      exact hd ⟨x, id, rfl, Id.isPair_of_target? hi, hold, hc, hdead⟩
    | remove e id' => exact absurd (hw.remove_sheds hf e id' x id hc) hold
    | write e k _ _ | writeRef e k _ _ | writeBytes e k _ | writeValue e v | writeValueRef e v =>
      cases hnew
      rw [Id.target?_component] at hi
      cases hi
  | addPair e relation target | setParent e target =>
    obtain ⟨-, rfl, halive⟩ := hnew
    have ht : t = target := hl.names
    rw [Id.target?_pair, Option.some.injEq] at hi
    rw [ht]
    exact ⟨hi, halive⟩
  | ensureDefaultTyped e k u =>
    obtain ⟨-, rfl⟩ := hnew
    rw [Id.target?_component] at hi
    cases hi
  | _ => cases hnew

theorem faithful_step_iff (hw : r.world.WellFormed) (hf : r.world.Fits) (hl : s.Legal r.world)
    (hr : r.Faithful) : (r.step s).Faithful ↔ ¬ s.Dangles r.world := by
  constructor
  · intro hfaithful hex
    obtain ⟨e, id, hraw, hpair, hno, hc, hdead⟩ := hex
    obtain ⟨i, hi⟩ : ∃ i, id.target? = some i := ⟨id.lowIndex, by rw [Id.target?, if_pos hpair]⟩
    obtain ⟨t, ht, hresolve⟩ := hfaithful e id i hc hi
    obtain ⟨op, target⟩ := s
    simp only [step, if_pos hc, if_neg hno, Option.some.injEq] at ht
    subst ht
    have halive := (Allocator.resolve_eq_some_iff.1 hresolve).2
    cases op with
    | edit x =>
      have hsame := (hw.edit hf x).becomes.isAlive target
      have hlater : (x.run r.world).2.isAlive target = true := halive
      rw [hsame, hdead] at hlater
      cases hlater
    | _ => cases hraw
  · intro hd x id i hc hi
    have hsettles := hw.perform_settles s.op hl.single hf hl.fits
    have hc' : (r.world.perform s.op).Carries x id := hc
    by_cases hold : r.world.Carries x id
    · obtain ⟨t, ht, hresolve⟩ := hr x id i hold hi
      obtain ⟨hindex, halive⟩ := Allocator.resolve_eq_some_iff.1 hresolve
      have halive' := hsettles.alive x id t hc (hindex ▸ hi) halive
      refine ⟨t, ?_, Allocator.resolve_eq_some_iff.2 ⟨hindex, halive'⟩⟩
      simp only [step, if_pos hc', if_pos hold, ht]
    · obtain ⟨hindex, halive⟩ := resolve_added hw hf hl hd hc hi hold
      have halive' := hsettles.alive x id s.target hc (hindex ▸ hi) halive
      refine ⟨s.target, ?_, Allocator.resolve_eq_some_iff.2 ⟨hindex, halive'⟩⟩
      simp only [step, if_pos hc', if_neg hold]

theorem faithful_new : new.Faithful := by
  intro x id i hc _
  have halive : World.new.isAlive x = true := hc.isAlive
  simp [World.new, World.isAlive, Allocator.empty, Allocator.isAlive, Allocator.slot?] at halive

def LegalAlong (steps : List Intent) : Prop :=
  ∀ before s, before ++ [s] <+: steps → s.Legal (after before).world

theorem after_concat (steps : List Intent) (s : Intent) :
    after (steps ++ [s]) = (after steps).step s := List.foldl_concat ..

theorem LegalAlong.start {before steps : List Intent} (h : LegalAlong steps)
    (hb : before <+: steps) : LegalAlong before :=
  fun b s hs => h b s (hs.trans hb)

theorem LegalAlong.nil : LegalAlong [] := fun before s hs => by simp at hs

theorem LegalAlong.concat {steps : List Intent} (h : LegalAlong steps)
    (hs : s.Legal (after steps).world) : LegalAlong (steps ++ [s]) := by
  intro before s' hb
  obtain heq | hb := List.prefix_concat_iff.1 hb
  · obtain ⟨hbefore, hlast⟩ := List.append_inj' heq rfl
    subst hbefore
    cases hlast
    exact hs
  · exact h before s' hb

theorem LegalAlong.reachable {steps : List Intent} (h : LegalAlong steps) :
    (after steps).world.Reachable := by
  induction steps using List.reverseRecOn with
  | nil => exact .new
  | append_singleton steps s ih =>
    rw [after_concat]
    exact (ih (h.start (List.prefix_append _ _))).step s.op (h steps s (List.prefix_refl _)).fits

/-- Along a run, all pairs mean the handles they were added for, exactly as long as no pair is added
by its id alone for a handle that is dead. -/
theorem faithful_along_iff {steps : List Intent} (h : LegalAlong steps) :
    (∀ before, before <+: steps → (after before).Faithful) ↔
      ∀ before s, before ++ [s] <+: steps → ¬ s.Dangles (after before).world := by
  have hstep : ∀ before s, before ++ [s] <+: steps → (after before).Faithful →
      ((after (before ++ [s])).Faithful ↔ ¬ s.Dangles (after before).world) := by
    intro before s hs hfaithful
    have hreach := (h.start ((List.prefix_append _ _).trans hs)).reachable
    rw [after_concat]
    exact faithful_step_iff hreach.wellFormed hreach.fits (h before s hs) hfaithful
  constructor
  · intro hall before s hs
    exact (hstep before s hs (hall before ((List.prefix_append _ _).trans hs))).1 (hall _ hs)
  · intro hno before hb
    induction before using List.reverseRecOn with
    | nil => exact faithful_new
    | append_singleton before s ih =>
      exact (hstep before s hb (ih ((List.prefix_append _ _).trans hb))).2 (hno before s hb)

def lateLike : List Intent :=
  [⟨.registerType ((TypeDescription.tag "Game.Likes").relationship .remove), ⟨0, 0⟩⟩,
    ⟨.spawn, ⟨0, 0⟩⟩, ⟨.spawn, ⟨0, 0⟩⟩, ⟨.despawn ⟨1, 0⟩, ⟨0, 0⟩⟩,
    ⟨.edit (.add ⟨0, 0⟩ (Id.pair ⟨1⟩ ⟨1, 0⟩)), ⟨1, 0⟩⟩]

theorem legalAlong_lateLike : LegalAlong lateLike := by
  have hnames : Intent.Names (.edit (.add ⟨0, 0⟩ (Id.pair ⟨1⟩ ⟨1, 0⟩))) ⟨1, 0⟩ := fun i hi => by
    rw [Id.target?_pair] at hi
    exact Option.some.inj hi
  have h₁ := LegalAlong.nil.concat
    (s := ⟨.registerType ((TypeDescription.tag "Game.Likes").relationship .remove), ⟨0, 0⟩⟩)
    ⟨nofun, trivial, by decide +kernel⟩
  have h₂ := h₁.concat (s := ⟨.spawn, ⟨0, 0⟩⟩) ⟨nofun, trivial, by decide +kernel⟩
  have h₃ := h₂.concat (s := ⟨.spawn, ⟨0, 0⟩⟩) ⟨nofun, trivial, by decide +kernel⟩
  have h₄ := h₃.concat (s := ⟨.despawn ⟨1, 0⟩, ⟨0, 0⟩⟩) ⟨nofun, trivial, by decide +kernel⟩
  exact h₄.concat ⟨nofun, hnames, by decide +kernel⟩

theorem faithful_along_lateLike : LegalAlong lateLike ∧
    ((∀ before, before <+: lateLike → (after before).Faithful) ↔
      ∀ before s, before ++ [s] <+: lateLike → ¬ s.Dangles (after before).world) :=
  ⟨legalAlong_lateLike, faithful_along_iff legalAlong_lateLike⟩

/-- The pair is on the free slot, and the next entity in the slot inherits it. -/
theorem lateLike_not_faithful :
    (after lateLike).world.Reachable ∧
      (after lateLike).world.Carries ⟨0, 0⟩ (Id.pair ⟨1⟩ ⟨1, 0⟩) ∧
      (after lateLike).world.resolve 1 = none ∧ ¬ (after lateLike).Faithful ∧
      (after lateLike).world.spawn.2.hasPair ⟨0, 0⟩ ⟨1⟩ ⟨1, 1⟩ = true := by
  have hc : (after lateLike).world.Carries ⟨0, 0⟩ (Id.pair ⟨1⟩ ⟨1, 0⟩) := by decide +kernel
  have hfree : (after lateLike).world.resolve 1 = none := by decide +kernel
  refine ⟨legalAlong_lateLike.reachable, hc, hfree, fun h => ?_, by decide +kernel⟩
  obtain ⟨t, -, ht⟩ := h ⟨0, 0⟩ (Id.pair ⟨1⟩ ⟨1, 0⟩) 1 hc (Id.target?_pair _ _)
  rw [hfree] at ht
  cases ht

/-! ### All reachable worlds are reached that way -/

theorem exists_names (op : Operation) : ∃ t, Intent.Names op t := by
  cases op with
  | edit x =>
    cases x with
    | add e id | ensureDefault e id =>
      refine ⟨⟨id.lowIndex, 0⟩, fun i hi => ?_⟩
      unfold Id.target? at hi
      split at hi
      · exact Option.some.inj hi
      · cases hi
    | _ => exact ⟨⟨0, 0⟩, trivial⟩
  | addPair e relation target | setParent e target => exact ⟨target, rfl⟩
  | _ => exact ⟨⟨0, 0⟩, trivial⟩

def Leads (w : World) : Prop := ∃ steps, LegalAlong steps ∧ (after steps).world = w

theorem Leads.step {w : World} (h : Leads w) {op : Operation} (hop : ∀ b, op ≠ .applyCommands b)
    (hf : (w.perform op).Fits) : Leads (w.perform op) := by
  obtain ⟨steps, hlegal, rfl⟩ := h
  obtain ⟨t, ht⟩ := exists_names op
  exact ⟨steps ++ [⟨op, t⟩], hlegal.concat ⟨hop, ht, hf⟩, by rw [after_concat]; rfl⟩

theorem Leads.applyAll (buffer : UInt32) (commands : List Command) {w : World} (h : Leads w)
    (report : CommandReport) (hf : (World.applyAll buffer w report commands).2.Fits) :
    Leads (World.applyAll buffer w report commands).2 := by
  induction commands generalizing w report with
  | nil => exact h
  | cons c rest ih =>
    obtain ⟨op, hop, -, heq⟩ := World.applyCommand_eq_perform w buffer report.spawned c
    have hrest : ∀ report', (World.applyAll buffer (w.perform op) report' rest).2.Fits →
        Leads (World.applyAll buffer (w.perform op) report' rest).2 := fun report' hf' =>
      ih (h.step hop.single ((World.throughout_leads.applyAll buffer rest _ _).grows.fits hf'))
        report' hf'
    unfold World.applyAll at hf ⊢
    split at hf
    · next hr =>
      rw [hr] at heq
      cases heq
      exact hrest _ hf
    · next hr =>
      rw [hr] at heq
      cases heq
      exact hrest _ hf

/-- No reachable world is left out. -/
theorem leads_of_reachable {w : World} (h : w.Reachable) : Leads w := by
  induction h with
  | new => exact ⟨[], fun before s hs => by simp at hs, rfl⟩
  | step op _ hf ih =>
    by_cases hop : ∃ b, op = .applyCommands b
    · obtain ⟨b, rfl⟩ := hop
      exact ih.applyAll b.id b.commands .empty hf
    · exact ih.step (fun b hb => hop ⟨b, hb⟩) hf

end Recorded
end EntityWorld
