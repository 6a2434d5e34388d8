import EntityWorld.Proofs.FinMap
import EntityWorld.Replication.NetworkIds
import Mathlib.Data.List.Perm.Subperm
set_option autoImplicit false

/-!
The two tables of the network ids hold one relation, read from either side, and every call edits
that relation. A search for a free id goes on past the ids that are bound, and ends as long as not
all of them are.
-/
namespace EntityWorld
namespace NetworkIds

variable {m : NetworkIds} {n k : NetworkId} {e x : Entity}

theorem bind_eq (m : NetworkIds) (n : NetworkId) (e : Entity) :
    m.bind n e =
      let (previous, m') := (m.unbindEntity e).2.unbind n
      (previous, { m' with
        toEntity := m'.toEntity.insert n e, toNetwork := m'.toNetwork.insert e n }) := by
  rw [bind, unbindEntity]
  cases he : m.toNetwork.get? e with
  | none =>
    rw [FinMap.erase_of_none he, unbind]
    cases m.toEntity.get? n with
    | none => rfl
    | some p => simp only [FinMap.insert_erase]
  | some old =>
    rw [unbind]
    cases (m.toEntity.erase old).get? n with
    | none => rfl
    | some p => simp only [FinMap.insert_erase]

structure Holds (m : NetworkIds) (R : NetworkId → Entity → Prop) : Prop where
  entity : ∀ n e, m.entity? n = some e ↔ R n e
  networkId : ∀ n e, m.networkId? e = some n ↔ R n e

variable {R : NetworkId → Entity → Prop}

theorem holds_empty : empty.Holds fun _ _ => False :=
  ⟨fun _ _ => iff_of_false nofun id, fun _ _ => iff_of_false nofun id⟩

namespace Holds

theorem entity_unique (h : m.Holds R) (hn : R n e) (hn' : R n x) : e = x :=
  Option.some.inj (((h.entity n e).2 hn).symm.trans ((h.entity n x).2 hn'))

theorem id_unique (h : m.Holds R) (hn : R n e) (hn' : R k e) : n = k :=
  Option.some.inj (((h.networkId n e).2 hn).symm.trans ((h.networkId k e).2 hn'))

theorem inverse (h : m.Holds R) (n : NetworkId) (e : Entity) :
    m.entity? n = some e ↔ m.networkId? e = some n :=
  (h.entity n e).trans (h.networkId n e).symm

theorem congr {R' : NetworkId → Entity → Prop} (h : m.Holds R) (hr : ∀ n e, R n e ↔ R' n e) :
    m.Holds R' :=
  ⟨fun n e => (h.entity n e).trans (hr n e), fun n e => (h.networkId n e).trans (hr n e)⟩

theorem id_eq_iff (h : m.Holds R) (hr : R k x) (hpair : R n e) : k = n ↔ x = e :=
  ⟨fun heq => h.entity_unique (heq ▸ hr) hpair, fun heq => h.id_unique (heq ▸ hr) hpair⟩

theorem erase (h : m.Holds R) (hpair : R n e) :
    Holds { m with toEntity := m.toEntity.erase n, toNetwork := m.toNetwork.erase e }
      fun k x => R k x ∧ k ≠ n := by
  constructor
  · intro k x
    rw [entity?, FinMap.get?_erase]
    split
    · next heq => exact iff_of_false (Option.some_ne_none x).symm fun hr => hr.2 heq
    · next hne => exact (h.entity k x).trans (and_iff_left hne).symm
  · intro k x
    rw [networkId?, FinMap.get?_erase]
    split
    · next heq =>
      exact iff_of_false (Option.some_ne_none k).symm fun hr =>
        hr.2 ((h.id_eq_iff hr.1 hpair).2 heq)
    · next hne =>
      refine (h.networkId k x).trans ⟨fun hr => ⟨hr, ?_⟩, And.left⟩
      exact (not_congr (h.id_eq_iff hr hpair)).2 hne

theorem insert (h : m.Holds R) (hid : ∀ x, ¬R n x) (hentity : ∀ k, ¬R k e) :
    Holds { m with toEntity := m.toEntity.insert n e, toNetwork := m.toNetwork.insert e n }
      fun k x => k = n ∧ x = e ∨ R k x := by
  constructor
  · intro k x
    rw [entity?, FinMap.get?_insert]
    split
    · next heq =>
      obtain rfl := heq
      rw [Option.some.injEq, or_iff_left (hid x)]
      exact ⟨fun heq => ⟨rfl, heq.symm⟩, fun hpair => hpair.2.symm⟩
    · next hne =>
      exact (h.entity k x).trans (or_iff_right fun hpair => hne hpair.1).symm
  · intro k x
    rw [networkId?, FinMap.get?_insert]
    split
    · next heq =>
      obtain rfl := heq
      rw [Option.some.injEq, or_iff_left (hentity k)]
      exact ⟨fun heq => ⟨heq.symm, rfl⟩, fun hpair => hpair.1.symm⟩
    · next hne =>
      exact (h.networkId k x).trans (or_iff_right fun hpair => hne hpair.2).symm

theorem unbind (h : m.Holds R) (n : NetworkId) :
    (m.unbind n).2.Holds fun k x => R k x ∧ k ≠ n := by
  rw [NetworkIds.unbind]
  cases hn : m.toEntity.get? n with
  | none =>
    refine h.congr fun k x => ⟨fun hr => ⟨hr, fun heq => ?_⟩, And.left⟩
    have hbound := (h.entity k x).2 hr
    rw [heq, entity?, hn] at hbound
    cases hbound
  | some e => exact h.erase ((h.entity n e).1 hn)

theorem unbindEntity (h : m.Holds R) (e : Entity) :
    (m.unbindEntity e).2.Holds fun k x => R k x ∧ x ≠ e := by
  rw [NetworkIds.unbindEntity]
  cases he : m.toNetwork.get? e with
  | none =>
    refine h.congr fun k x => ⟨fun hr => ⟨hr, fun heq => ?_⟩, And.left⟩
    have hbound := (h.networkId k x).2 hr
    rw [heq, networkId?, he] at hbound
    cases hbound
  | some n =>
    have hpair := (h.networkId n e).1 he
    exact (h.erase hpair).congr fun k x =>
      and_congr_right fun hr => not_congr (h.id_eq_iff hr hpair)

theorem bind (h : m.Holds R) (n : NetworkId) (e : Entity) :
    (m.bind n e).2.Holds fun k x => k = n ∧ x = e ∨ R k x ∧ k ≠ n ∧ x ≠ e := by
  rw [bind_eq]
  have hfree := (h.unbindEntity e).unbind n
  refine (hfree.insert (fun _ hr => hr.2 rfl) fun _ hr => hr.1.2 rfl).congr fun k x => ?_
  rw [and_assoc, and_comm (a := x ≠ e)]

theorem retainAlive (h : m.Holds R) (w : World) :
    (m.retainAlive w).2.Holds fun k x => R k x ∧ w.isAlive x = true :=
  ⟨fun k x => FinMap.get?_filter_eq_some.trans (and_congr_left' (h.entity k x)),
    fun k x => FinMap.get?_filter_eq_some.trans (and_congr_left' (h.networkId k x))⟩

end Holds

/-! ### The search for a free id -/

/-- The search of `allocate` from one id on stops at another: it goes on as long as the id is
bound. -/
inductive Search (m : NetworkIds) : UInt32 → UInt32 → Prop where
  | stop {i : UInt32} : m.entity? ⟨i⟩ = none → Search m i i
  | next {i j : UInt32} : (m.entity? ⟨i⟩).isSome = true → Search m (i + 1) j → Search m i j

theorem Search.free {i j : UInt32} (h : m.Search i j) : m.entity? ⟨j⟩ = none := by
  induction h with
  | stop hfree => exact hfree
  | next _ _ ih => exact ih

theorem search_freeId {tries : Nat} {i : UInt32}
    (h : ∃ t ≤ tries, m.entity? ⟨i + UInt32.ofNat t⟩ = none) : m.Search i (m.freeId tries i) := by
  induction tries generalizing i with
  | zero =>
    obtain ⟨t, ht, hfree⟩ := h
    obtain rfl := Nat.le_zero.1 ht
    exact .stop (by simpa using hfree)
  | succ tries ih =>
    rw [freeId]
    cases hbound : m.toEntity.contains ⟨i⟩ with
    | false => exact .stop (Option.isNone_iff_eq_none.1 (Option.isSome_eq_false_iff.1 hbound))
    | true =>
      refine .next hbound (ih ?_)
      obtain ⟨t, ht, hfree⟩ := h
      cases t with
      | zero =>
        rw [show i + UInt32.ofNat 0 = i from UInt32.add_zero i, entity?] at hfree
        rw [FinMap.contains, hfree] at hbound
        cases hbound
      | succ t =>
        refine ⟨t, Nat.le_of_succ_le_succ ht, ?_⟩
        rw [← hfree, UInt32.add_assoc, UInt32.add_comm 1]
        simp

theorem exists_free (h : m.size < 2 ^ 32) (i : UInt32) :
    ∃ t ≤ m.size, m.entity? ⟨i + UInt32.ofNat t⟩ = none := by
  by_contra hall
  have hbound (t : Nat) (ht : t < m.size + 1) :
      (⟨i + UInt32.ofNat t⟩ : NetworkId) ∈ m.toEntity.keys := by
    rw [FinMap.mem_keys_iff, Option.isSome_iff_ne_none]
    exact fun hfree => hall ⟨t, Nat.le_of_lt_succ ht, hfree⟩
  let tried : List NetworkId := (List.range (m.size + 1)).map fun t => ⟨i + UInt32.ofNat t⟩
  have hdistinct : tried.Nodup := by
    refine List.nodup_range.map_on fun t ht t' ht' heq => ?_
    have hsame := congrArg UInt32.toNat ((UInt32.add_right_inj i).1 (congrArg NetworkId.raw heq))
    rw [List.mem_range] at ht ht'
    rwa [UInt32.toNat_ofNat', UInt32.toNat_ofNat', Nat.mod_eq_of_lt (by omega),
      Nat.mod_eq_of_lt (by omega)] at hsame
  have hsub : tried ⊆ m.toEntity.keys := by
    intro k hk
    obtain ⟨t, ht, rfl⟩ := List.mem_map.1 hk
    exact hbound t (List.mem_range.1 ht)
  have hlength := (hdistinct.subperm hsub).length_le
  rw [List.length_map, List.length_range, FinMap.keys, List.length_map] at hlength
  exact Nat.not_succ_le_self _ hlength

/-- The search ends if and only if some id is not bound. -/
theorem search_ends_iff (i : UInt32) : (∃ j, m.Search i j) ↔ m.size < 2 ^ 32 := by
  constructor
  · intro hex
    obtain ⟨j, hj⟩ := hex
    have hnot : (⟨j⟩ : NetworkId) ∉ m.toEntity.keys := by
      rw [FinMap.mem_keys_iff, Option.not_isSome_iff_eq_none]
      exact hj.free
    have hdistinct : ((⟨j⟩ :: m.toEntity.keys).map fun k => k.raw.toNat).Nodup :=
      (List.nodup_cons.2 ⟨hnot, m.toEntity.nodup_keys⟩).map fun _ _ heq =>
        congrArg NetworkId.mk (UInt32.toNat_inj.1 heq)
    have hsub : (⟨j⟩ :: m.toEntity.keys).map (fun k => k.raw.toNat) ⊆ List.range (2 ^ 32) := by
      intro x hx
      obtain ⟨k, -, rfl⟩ := List.mem_map.1 hx
      exact List.mem_range.2 k.raw.toNat_lt
    have hlength := (hdistinct.subperm hsub).length_le
    rw [List.length_map, List.length_range, List.length_cons, FinMap.keys, List.length_map]
      at hlength
    exact hlength
  · intro hsize
    exact ⟨_, search_freeId (exists_free hsize i)⟩

/-! ### Calls -/

/-- The id that an entity had, and otherwise the first free one; no other pair is touched. -/
structure Allocates (m : NetworkIds) (e : Entity) (n : NetworkId) (m' : NetworkIds) : Prop where
  given : m'.entity? n = some e
  same : ∀ old, m.networkId? e = some old → n = old ∧ m' = m
  fresh : m.networkId? e = none → m.Search m.next n.raw ∧ m.entity? n = none
  entities : ∀ k, k ≠ n → m'.entity? k = m.entity? k
  networkIds : ∀ x, x ≠ e → m'.networkId? x = m.networkId? x

structure Retains (m : NetworkIds) (w : World) (dropped : Nat) (m' : NetworkIds) : Prop where
  entities : ∀ n e, m'.entity? n = some e ↔ m.entity? n = some e ∧ w.isAlive e = true
  networkIds : ∀ n e, m'.networkId? e = some n ↔ m.networkId? e = some n ∧ w.isAlive e = true
  dropped : dropped =
    {x : NetworkId × Entity | m.entity? x.1 = some x.2 ∧ w.isAlive x.2 = false}.ncard

theorem Holds.allocates (h : m.Holds R) (hsize : m.size < 2 ^ 32) (e : Entity) :
    m.Allocates e (m.allocate e).1 (m.allocate e).2 := by
  rw [allocate]
  cases he : m.toNetwork.get? e with
  | some old =>
    have hgiven : m.entity? old = some e := (h.inverse old e).2 he
    have hsame (n : NetworkId) (hn : m.networkId? e = some n) : old = n :=
      Option.some.inj (he.symm.trans hn)
    have hnot (hnone : m.networkId? e = none) : False :=
      Option.some_ne_none old (he.symm.trans hnone)
    exact ⟨hgiven, fun n hn => ⟨hsame n hn, rfl⟩, fun hnone => (hnot hnone).elim, fun _ _ => rfl,
      fun _ _ => rfl⟩
  | none =>
    have hsearch : m.Search m.next (m.freeId m.size m.next) := search_freeId (exists_free hsize _)
    generalize m.freeId m.size m.next = i at hsearch ⊢
    have hid (x : Entity) : ¬R ⟨i⟩ x := fun hr =>
      Option.some_ne_none x (((h.entity _ x).2 hr).symm.trans hsearch.free)
    have hentity (k : NetworkId) : ¬R k e := fun hr =>
      Option.some_ne_none k (((h.networkId k e).2 hr).symm.trans he)
    have hnext : Holds { m with next := i + 1 } R := ⟨h.entity, h.networkId⟩
    have hbound := hnext.bind ⟨i⟩ e
    refine ⟨(hbound.entity _ e).2 (.inl ⟨rfl, rfl⟩),
      fun n hn => (Option.some_ne_none n (hn.symm.trans he)).elim,
      fun _ => ⟨hsearch, hsearch.free⟩, fun k hk => Option.ext fun x => ?_,
      fun x hx => Option.ext fun k => ?_⟩
    · rw [hbound.entity, h.entity, or_iff_right fun hpair => hk hpair.1]
      exact ⟨And.left, fun hr => ⟨hr, hk, fun heq => hentity k (heq ▸ hr)⟩⟩
    · rw [hbound.networkId, h.networkId, or_iff_right fun hpair => hx hpair.2]
      exact ⟨And.left, fun hr => ⟨hr, fun heq => hid x (heq ▸ hr), hx⟩⟩

/-- With every id bound the search never ends (`search_ends_iff`); the pairs that stand for that
call here are consistent all the same. -/
theorem Holds.allocate (h : m.Holds R) (e : Entity) : ∃ R', (m.allocate e).2.Holds R' := by
  rw [NetworkIds.allocate]
  cases m.toNetwork.get? e with
  | some old => exact ⟨R, h⟩
  | none =>
    let i := m.freeId m.size m.next
    have hnext : Holds { m with next := i + 1 } R := ⟨h.entity, h.networkId⟩
    exact ⟨_, hnext.bind ⟨i⟩ e⟩

theorem Holds.retains (h : m.Holds R) (w : World) :
    m.Retains w (m.retainAlive w).1 (m.retainAlive w).2 := by
  refine ⟨fun n e => ?_, fun n e => ?_, ?_⟩
  · rw [(h.retainAlive w).entity, h.entity]
  · rw [(h.retainAlive w).networkId, h.networkId]
  · rw [NetworkIds.retainAlive, FinMap.size_sub_filter, FinMap.size_eq_ncard]
    simp only [FinMap.get?_filter_eq_some, Bool.not_eq_true', entity?]

inductive Call where
  | allocate (e : Entity)
  | bind (n : NetworkId) (e : Entity)
  | unbind (n : NetworkId)
  | unbindEntity (e : Entity)
  | retainAlive (w : World)

def call (m : NetworkIds) : Call → NetworkIds
  | .allocate e => (m.allocate e).2
  | .bind n e => (m.bind n e).2
  | .unbind n => (m.unbind n).2
  | .unbindEntity e => (m.unbindEntity e).2
  | .retainAlive w => (m.retainAlive w).2

theorem Holds.call (h : m.Holds R) (c : Call) : ∃ R', (m.call c).Holds R' := by
  cases c with
  | allocate e => exact h.allocate e
  | bind n e => exact ⟨_, h.bind n e⟩
  | unbind n => exact ⟨_, h.unbind n⟩
  | unbindEntity e => exact ⟨_, h.unbindEntity e⟩
  | retainAlive w => exact ⟨_, h.retainAlive w⟩

theorem Holds.foldl (h : m.Holds R) (calls : List Call) :
    ∃ R', (calls.foldl NetworkIds.call m).Holds R' := by
  induction calls generalizing m R with
  | nil => exact ⟨R, h⟩
  | cons c rest ih =>
    obtain ⟨R', h'⟩ := h.call c
    exact ih h'

/-- After any calls the map is a bijection of its size, and the next call that allocates or retains
does what it promises. -/
theorem foldl_call_bijective (calls : List Call) :
    let m := calls.foldl call empty
    (∀ n e, m.entity? n = some e ↔ m.networkId? e = some n) ∧
      m.size = {x : NetworkId × Entity | m.entity? x.1 = some x.2}.ncard ∧
      (m.size < 2 ^ 32 → ∀ e, m.Allocates e (m.allocate e).1 (m.allocate e).2) ∧
      ∀ w, m.Retains w (m.retainAlive w).1 (m.retainAlive w).2 := by
  obtain ⟨R, h⟩ := holds_empty.foldl calls
  exact ⟨h.inverse, FinMap.size_eq_ncard _, h.allocates, h.retains⟩

/-- Two ids are taken without `allocate`; the search passes both. -/
theorem foldl_call_bijective_passed :
    let m := [.bind ⟨1⟩ ⟨4, 0⟩, .bind ⟨0⟩ ⟨5, 0⟩].foldl call empty
    m.size < 2 ^ 32 ∧ (m.allocate ⟨6, 0⟩).1 = ⟨2⟩ ∧
      m.Allocates ⟨6, 0⟩ ⟨2⟩ (m.allocate ⟨6, 0⟩).2 := by
  obtain ⟨-, -, hallocates, -⟩ := foldl_call_bijective [.bind ⟨1⟩ ⟨4, 0⟩, .bind ⟨0⟩ ⟨5, 0⟩]
  exact ⟨by decide, by decide, hallocates (by decide) ⟨6, 0⟩⟩

end NetworkIds
end EntityWorld
