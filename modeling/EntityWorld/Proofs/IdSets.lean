import EntityWorld.Proofs.World.Tables
import Mathlib.Order.BooleanAlgebra.Set
set_option autoImplicit false

/-!
One table for each set of ids. Whether a table is remembered, found by its ids or made, it is the
one with the ids that are asked for, so all ways to a set of ids lead to one table.
-/
namespace EntityWorld

theorem Id.Sorted.ext {l l' : List Id} (h : Sorted l) (h' : Sorted l')
    (hmem : ∀ x, x ∈ l ↔ x ∈ l') : l = l' := by
  refine ((List.perm_ext_iff_of_nodup h.nodup h'.nodup).2 hmem).eq_of_pairwise ?_ h h'
  intro a b _ _ hab hba
  have hirrefl := before_trans hab hba
  rw [before_irrefl] at hirrefl
  cases hirrefl

inductive Change where
  | add (id : Id)
  | remove (id : Id)

def Archetype.idSet (a : Archetype) : Set Id := {x | x ∈ a.ids}

namespace Change

def id : Change → Id
  | .add id => id
  | .remove id => id

def apply : Change → Set Id → Set Id
  | .add id, ids => insert id ids
  | .remove id, ids => ids \ {id}

def ids : Change → List Id → List Id
  | .add id, own => if id ∈ own then own else Storage.insertId own id
  | .remove id, own => own.filter fun x => x ≠ id

theorem mem_ids {own : List Id} (h : Id.Sorted own) (c : Change) (x : Id) :
    x ∈ c.ids own ↔ x ∈ c.apply {y | y ∈ own} := by
  cases c with
  | add id =>
    by_cases hid : id ∈ own
    · have hset : insert id {y | y ∈ own} = {y | y ∈ own} := Set.insert_eq_of_mem hid
      rw [ids, if_pos hid, apply, hset]
      rfl
    · rw [ids, if_neg hid, Storage.mem_insertId h hid]
      rfl
  | remove id => simp [ids, apply]

end Change

namespace Storage

variable {s s' : Storage} {r r' : Registry} {a b : Archetype} {i j : ArchetypeId} {id : Id}
  {c : Change}

def follow (s : Storage) (i : ArchetypeId) (r : Registry) : Change → Option (ArchetypeId × Storage)
  | .add id => s.withId i id r
  | .remove id => s.withoutId i id r

/-! ### Making a table -/

theorem getOrCreate_made {ids : List Id} (h : s.getOrCreate ids r = some (i, s'))
    (hk : s.byIds.get? ids = none) : i = ⟨UInt32.ofNat s.size⟩ ∧ s'.size = s.size + 1 := by
  unfold getOrCreate at h
  simp only [hk] at h
  split at h
  · cases h
  · cases h
    exact ⟨rfl, by simp [size]⟩

theorem WellFormed.withId_made (h : s.WellFormed r) (ha : s.get? i = some a) (hid : id ∉ a.ids)
    (hw : id.isWildcard = false) (hs : s.withId i id r = some (j, s'))
    (hk : s.byIds.get? (insertId a.ids id) = none) :
    j = ⟨UInt32.ofNat s.size⟩ ∧ s'.size = s.size + 1 := by
  have hc : ¬ a.contains id = true := fun hc => hid ((Archetype.contains_iff hw).1 hc)
  unfold Storage.withId at hs
  simp only [ha, if_neg hc] at hs
  cases he : a.addEdges.get? id with
  | some k =>
    rw [(h.keyed _ k).2 (h.added i a id k ha he)] at hk
    cases hk
  | none =>
    simp only [he] at hs
    split at hs
    · cases hs
    · next hget =>
      have hmade := getOrCreate_made hget hk
      split at hs
      · cases hs
        rwa [size_set]
      · cases hs
        exact hmade

theorem WellFormed.withoutId_made (h : s.WellFormed r) (ha : s.get? i = some a)
    (hid : id ∈ a.ids) (hs : s.withoutId i id r = some (j, s'))
    (hk : s.byIds.get? (a.ids.filter fun own => own ≠ id) = none) :
    j = ⟨UInt32.ofNat s.size⟩ ∧ s'.size = s.size + 1 := by
  have hc : a.contains id = true :=
    (Archetype.contains_iff ((h.shaped i a ha).concrete id hid)).2 hid
  unfold Storage.withoutId at hs
  simp only [ha, hc, Bool.not_true, Bool.false_eq_true, if_false] at hs
  cases he : a.removeEdges.get? id with
  | some k =>
    rw [(h.keyed _ k).2 (h.removed i a id k ha he)] at hk
    cases hk
  | none =>
    simp only [he] at hs
    split at hs
    · cases hs
    · next hget =>
      have hmade := getOrCreate_made hget hk
      split at hs
      · cases hs
        rwa [size_set]
      · cases hs
        exact hmade

/-! ### Types that are not registered -/

theorem WellFormed.getOrCreate_eq_none_iff (h : s.WellFormed r) {ids : List Id} :
    s.getOrCreate ids r = none ↔ ∃ x ∈ ids, r.descriptor? x.typeHandle = none := by
  unfold Storage.getOrCreate
  cases hk : s.byIds.get? ids with
  | some k =>
    obtain ⟨b, hb, rfl⟩ := (h.keyed ids k).1 hk
    constructor
    · exact nofun
    · intro hex
      obtain ⟨x, hx, hnone⟩ := hex
      obtain ⟨d, hd⟩ := (h.shaped k b hb).exists_descriptor? hx
      rw [hd] at hnone
      cases hnone
  | none =>
    cases hm : ids.mapM fun x => r.descriptor? x.typeHandle with
    | none => exact iff_of_true rfl (mapM_eq_none hm)
    | some types =>
      refine iff_of_false nofun fun hex => ?_
      obtain ⟨x, hx, hnone⟩ := hex
      have hin := List.mem_map_of_mem (f := fun y : Id => r.descriptor? y.typeHandle) hx
      rw [mapM_eq_some hm, hnone] at hin
      simp at hin

theorem WellFormed.withId_eq_none_iff (h : s.WellFormed r) (ha : s.get? i = some a)
    (hw : id.isWildcard = false) :
    s.withId i id r = none ↔ r.descriptor? id.typeHandle = none := by
  have hs := h.shaped i a ha
  by_cases hid : id ∈ a.ids
  · obtain ⟨d, hd⟩ := hs.exists_descriptor? hid
    simp [Storage.withId, ha, (Archetype.contains_iff hw).2 hid, hd]
  have hc : ¬ a.contains id = true := fun hc => hid ((Archetype.contains_iff hw).1 hc)
  have hmem : ∀ x, x ∈ insertId a.ids id ↔ x = id ∨ x ∈ a.ids := fun x =>
    mem_insertId hs.sorted hid
  unfold Storage.withId
  simp only [ha, if_neg hc]
  cases he : a.addEdges.get? id with
  | some k =>
    obtain ⟨b, hb, hids⟩ := h.added i a id k ha he
    obtain ⟨d, hd⟩ := (h.shaped k b hb).exists_descriptor? (hids ▸ (hmem id).2 (.inl rfl))
    simp [hd]
  | none =>
    have hnone : s.getOrCreate (insertId a.ids id) r = none ↔
        r.descriptor? id.typeHandle = none := by
      rw [h.getOrCreate_eq_none_iff]
      constructor
      · intro hex
        obtain ⟨x, hx, hnone⟩ := hex
        obtain rfl | hx := (hmem x).1 hx
        · exact hnone
        · obtain ⟨d, hd⟩ := hs.exists_descriptor? hx
          rw [hd] at hnone
          cases hnone
      · intro hd
        exact ⟨id, (hmem id).2 (.inl rfl), hd⟩
    rw [← hnone]
    cases s.getOrCreate (insertId a.ids id) r with
    | none => exact iff_of_true rfl rfl
    | some p =>
      refine iff_of_false ?_ (Option.some_ne_none p)
      simp only
      split <;> exact Option.some_ne_none _

theorem WellFormed.withoutId_ne_none (h : s.WellFormed r) (ha : s.get? i = some a) (id : Id) :
    s.withoutId i id r ≠ none := by
  have hnone : s.getOrCreate (a.ids.filter fun own => own ≠ id) r ≠ none := by
    rw [Ne, h.getOrCreate_eq_none_iff]
    intro hex
    obtain ⟨x, hx, hnone⟩ := hex
    obtain ⟨d, hd⟩ := (h.shaped i a ha).exists_descriptor? (List.mem_of_mem_filter hx)
    rw [hd] at hnone
    cases hnone
  unfold Storage.withoutId
  simp only [ha]
  split
  · exact Option.some_ne_none _
  · split
    · exact Option.some_ne_none _
    · cases hget : s.getOrCreate (a.ids.filter fun own => own ≠ id) r with
      | none => exact absurd hget hnone
      | some p =>
        simp only
        split <;> exact Option.some_ne_none _

theorem withId_of_mem (ha : s.get? i = some a) (hid : id ∈ a.ids) (hw : id.isWildcard = false) :
    s.withId i id r = some (i, s) := by
  simp [withId, ha, (Archetype.contains_iff hw).2 hid]

theorem withoutId_of_not_mem (ha : s.get? i = some a) (hid : id ∉ a.ids)
    (hw : id.isWildcard = false) : s.withoutId i id r = some (i, s) := by
  have hc : a.contains id = false := by
    rw [← Bool.not_eq_true, Archetype.contains_iff hw]
    exact hid
  simp [withoutId, ha, hc]

/-! ### One change -/

theorem WellFormed.follow (h : s.WellFormed r) (ha : s.get? i = some a)
    (hw : c.id.isWildcard = false) (hs : s.follow i r c = some (j, s'))
    (hroom : s'.size ≤ 0x100000000) :
    s'.WellFormed r ∧ s.Extends s' ∧ ∃ b, s'.get? j = some b ∧ b.ids = c.ids a.ids := by
  cases c with
  | add id =>
    change s.withId i id r = some (j, s') at hs
    change id.isWildcard = false at hw
    by_cases hid : id ∈ a.ids
    · rw [withId_of_mem ha hid hw] at hs
      cases hs
      exact ⟨h, .refl s, a, ha, by rw [Change.ids, if_pos hid]⟩
    · have hd : ∃ d, r.descriptor? id.typeHandle = some d := by
        rw [← Option.ne_none_iff_exists', Ne, ← h.withId_eq_none_iff ha hw, hs]
        exact nofun
      obtain ⟨k, t, hwith, hwf, hext, b, hb, hids⟩ := h.withId ha
        (fun hk => by have := (h.withId_made ha hid hw hs hk).2; omega) hw hid hd
      cases hs.symm.trans hwith
      exact ⟨hwf, hext, b, hb, by rw [hids, Change.ids, if_neg hid]⟩
  | remove id =>
    change s.withoutId i id r = some (j, s') at hs
    change id.isWildcard = false at hw
    by_cases hid : id ∈ a.ids
    · obtain ⟨k, t, hwithout, hwf, hext, b, hb, hids⟩ := h.withoutId ha id
        fun hk => by have := (h.withoutId_made ha hid hs hk).2; omega
      cases hs.symm.trans hwithout
      exact ⟨hwf, hext, b, hb, hids⟩
    · rw [withoutId_of_not_mem ha hid hw] at hs
      cases hs
      refine ⟨h, .refl s, a, ha, (List.filter_eq_self.2 fun x hx => ?_).symm⟩
      simpa using fun hh : x = id => hid (hh ▸ hx)

theorem follow_prepared (hs : s.follow i r c = some (j, s')) : s.Prepared s' := by
  cases c with
  | add id => exact withId_prepared hs
  | remove id => exact withoutId_prepared hs

theorem WellFormed.idSet_eq (h : s.WellFormed r) (ha : s.get? i = some a)
    (hids : b.ids = c.ids a.ids) : b.idSet = c.apply a.idSet := by
  ext x
  have hx := Change.mem_ids (h.shaped i a ha).sorted c x
  rw [← hids] at hx
  exact hx

theorem Extends.stays (hext : s.Extends s') (h : s.WellFormed r) (h' : s'.WellFormed r)
    (ha : s.get? i = some a) : ∃ t, s'.get? i = some t ∧
      t = { a with addEdges := t.addEdges, removeEdges := t.removeEdges } := by
  obtain ⟨t, ht, hids, hcols, hents⟩ := hext.tables i a ha
  have hid := (h'.numbered i t ht).trans (h.numbered i a ha).symm
  refine ⟨t, ht, ?_⟩
  rw [← hid, ← hids, ← hcols, ← hents]

/-! ### Many changes -/

def walk (r : Registry) : List Change → ArchetypeId → Storage → Option (ArchetypeId × Storage)
  | [], i, s => some (i, s)
  | c :: rest, i, s =>
    match s.follow i r c with
    | some (j, s) => walk r rest j s
    | none => none

/-- Tables that calls lead to from the one without ids, while there is a number for each. Types may
be registered between the calls. -/
inductive Reached : Registry → Storage → Prop where
  | empty (r : Registry) : Reached r .empty
  | register {r r' : Registry} {s : Storage} : Reached r s →
    (∀ k d, r.descriptor? k = some d → r'.descriptor? k = some d) → Reached r' s
  | follow {r : Registry} {s s' : Storage} {i j : ArchetypeId} {c : Change} : Reached r s →
    (s.get? i).isSome = true → c.id.isWildcard = false → s.follow i r c = some (j, s') →
    s'.size ≤ 0x100000000 → Reached r s'

theorem Reached.wellFormed (h : Reached r s) : s.WellFormed r := by
  induction h with
  | empty r => exact .empty r
  | register _ hr ih => exact ih.mono hr
  | follow _ hi hw hs hroom ih =>
    obtain ⟨a, ha⟩ := Option.isSome_iff_exists.1 hi
    exact (ih.follow ha hw hs hroom).1

variable {p q : List Change}

theorem walk_size (hs : walk r p i s = some (j, s')) : s.size ≤ s'.size := by
  induction p generalizing i s with
  | nil =>
    cases hs
    exact Nat.le_refl _
  | cons c rest ih =>
    unfold walk at hs
    split at hs
    · next hc => exact Nat.le_trans (follow_prepared hc).size (ih hs)
    · cases hs

theorem Reached.walk (h : Reached r s) (ha : s.get? i = some a)
    (hw : ∀ c ∈ p, c.id.isWildcard = false) (hs : walk r p i s = some (j, s'))
    (hroom : s'.size ≤ 0x100000000) :
    Reached r s' ∧ s.Extends s' ∧
      ∃ b, s'.get? j = some b ∧ b.idSet = p.foldl (fun ids c => c.apply ids) a.idSet := by
  induction p generalizing i s a with
  | nil =>
    cases hs
    exact ⟨h, .refl _, a, ha, rfl⟩
  | cons c rest ih =>
    unfold Storage.walk at hs
    split at hs
    · next k t hc =>
      have hcw := hw c List.mem_cons_self
      have hfit := Nat.le_trans (walk_size hs) hroom
      obtain ⟨-, hext, b, hb, hids⟩ := h.wellFormed.follow ha hcw hc hfit
      have ht : Reached r t := h.follow (by rw [ha]; rfl) hcw hc hfit
      obtain ⟨hr, hext', d, hd, hset⟩ := ih ht hb (fun x hx => hw x (List.mem_cons_of_mem c hx)) hs
      exact ⟨hr, hext.trans hext', d, hd, by rw [hset, h.wellFormed.idSet_eq ha hids]; rfl⟩
    · cases hs

/-- Sets of ids say everything about the tables and the ways between them. -/
structure Determined (r : Registry) (s : Storage) : Prop where
  sorted : ∀ i a, s.get? i = some a → Id.Sorted a.ids
  distinct : ∀ i j a b, s.get? i = some a → s.get? j = some b → a.idSet = b.idSet → i = j
  leads : ∀ i a c j s', s.get? i = some a → c.id.isWildcard = false →
    s.follow i r c = some (j, s') → s'.size ≤ 0x100000000 →
    (∃ b, s'.get? j = some b ∧ b.idSet = c.apply a.idSet) ∧
      ∀ k t, s.get? k = some t → ∃ t', s'.get? k = some t' ∧
        t' = { t with addEdges := t'.addEdges, removeEdges := t'.removeEdges }
  refuses : ∀ i a x, s.get? i = some a → x.isWildcard = false →
    (s.follow i r (.add x) = none ↔ r.descriptor? x.typeHandle = none)
  removes : ∀ i a x, s.get? i = some a → s.follow i r (.remove x) ≠ none
  keeps : ∀ i a x, s.get? i = some a → x.isWildcard = false → r.descriptor? x.typeHandle = none →
    s.follow i r (.remove x) = some (i, s)
  meets : ∀ i j a b p q k l s₁ s₂, (∀ c ∈ p ++ q, c.id.isWildcard = false) →
    s.get? i = some a → walk r p i s = some (k, s₁) →
    s₁.get? j = some b → walk r q j s₁ = some (l, s₂) → s₂.size ≤ 0x100000000 →
    p.foldl (fun ids c => c.apply ids) a.idSet = q.foldl (fun ids c => c.apply ids) b.idSet → k = l
  returns : ∀ i a x j s', s.get? i = some a → x.isWildcard = false → x ∉ a.idSet →
    walk r [.add x, .remove x] i s = some (j, s') → s'.size ≤ 0x100000000 → j = i

theorem WellFormed.eq_of_idSet (h : s.WellFormed r) (ha : s.get? i = some a)
    (hb : s.get? j = some b) (hset : a.idSet = b.idSet) : i = j :=
  h.eq_of_ids ha hb ((h.shaped i a ha).sorted.ext (h.shaped j b hb).sorted (Set.ext_iff.1 hset))

/-- All ways to a set of ids lead to one table. -/
theorem Reached.determined (h : Reached r s) : Determined r s := by
  have hwf := h.wellFormed
  refine ⟨fun i a ha => (hwf.shaped i a ha).sorted, fun i j a b ha hb => hwf.eq_of_idSet ha hb,
    ?_, fun i a x ha hw => hwf.withId_eq_none_iff ha hw,
    fun i a x ha => hwf.withoutId_ne_none ha x, ?_, ?_, ?_⟩
  · intro i a c j s' ha hw hs hroom
    obtain ⟨hwf', hext, b, hb, hids⟩ := hwf.follow ha hw hs hroom
    exact ⟨⟨b, hb, hwf.idSet_eq ha hids⟩, fun k t ht => hext.stays hwf hwf' ht⟩
  · intro i a x ha hw hd
    refine withoutId_of_not_mem ha (fun hx => ?_) hw
    obtain ⟨d, hknown⟩ := (hwf.shaped i a ha).exists_descriptor? hx
    rw [hd] at hknown
    cases hknown
  · intro i j a b p q k l s₁ s₂ hw ha hp hb hq hroom hset
    obtain ⟨h₁, -, t, ht, htset⟩ := h.walk ha (fun c hc => hw c (List.mem_append_left q hc)) hp
      (Nat.le_trans (walk_size hq) hroom)
    obtain ⟨h₂, hext, u, hu, huset⟩ := h₁.walk hb
      (fun c hc => hw c (List.mem_append_right p hc)) hq hroom
    obtain ⟨t', ht', hframe⟩ := hext.stays h₁.wellFormed h₂.wellFormed ht
    refine h₂.wellFormed.eq_of_idSet ht' hu ?_
    rw [huset, ← hset, ← htset, hframe]
    rfl
  · intro i a x j s' ha hw hx hs hroom
    obtain ⟨h', hext, b, hb, hset⟩ := h.walk ha (by simp [Change.id, hw]) hs hroom
    obtain ⟨a', ha', hframe⟩ := hext.stays hwf h'.wellFormed ha
    refine h'.wellFormed.eq_of_idSet hb ha' ?_
    have hback : insert x a.idSet \ {x} = a.idSet := Set.insert_sdiff_self_of_notMem hx
    rw [hset, List.foldl_cons, List.foldl_cons, List.foldl_nil, Change.apply, Change.apply, hback,
      hframe]
    rfl

def crossing : List Change :=
  [.add (Id.component ⟨0⟩), .add (Id.pairAt ⟨0⟩ 7), .remove (Id.component ⟨0⟩)]

theorem determined_crossing : ∃ s, walk World.builtins.2 crossing .empty .empty = some (⟨3⟩, s) ∧
    Reached World.builtins.2 s ∧ Determined World.builtins.2 s := by
  have hend : (walk World.builtins.2 crossing .empty .empty).map
      (fun x => (x.1, decide (x.2.size ≤ 0x100000000))) = some (⟨3⟩, true) := by decide +kernel
  obtain ⟨x, hx, heq⟩ := Option.map_eq_some_iff.1 hend
  obtain ⟨j, s⟩ := x
  obtain ⟨rfl, hsize⟩ := Prod.mk.inj heq
  have hs : Reached World.builtins.2 s :=
    ((Reached.empty _).walk rfl (by decide) hx (of_decide_eq_true hsize)).1
  exact ⟨s, hx, hs, hs.determined⟩

/-! ### No number left -/

def pairOf (k : Nat) : Id := Id.pairAt ⟨0⟩ (UInt32.ofNat k)

theorem lowIndex_pairOf {k : Nat} (hk : k < 0x100000000) : (pairOf k).lowIndex.toNat = k := by
  rw [pairOf, Id.lowIndex_pairAt]
  exact UInt32.toNat_ofNat_of_lt' hk

theorem isWildcard_pairOf {k : Nat} (hk : k < 0xffffffff) : (pairOf k).isWildcard = false := by
  have hlow := lowIndex_pairOf (Nat.lt_trans hk (by decide))
  have hne : (pairOf k).lowIndex ≠ Id.wildcardIndex := by
    intro heq
    rw [heq] at hlow
    exact absurd hlow.symm (Nat.ne_of_lt hk)
  simp [Id.isWildcard, hne]

/-- Such pairs for `n` slots, each alone in a table, and the table without ids. -/
structure Crowded (n : Nat) (s : Storage) : Prop where
  reached : Reached World.builtins.2 s
  size : s.size = n + 1
  ids : ∀ i a, s.get? i = some a → a.ids = [] ∨ ∃ k < n, a.ids = [pairOf k]

theorem Crowded.add {n : Nat} (h : Crowded n s) (hw : id.isWildcard = false)
    (hd : World.builtins.2.descriptor? id.typeHandle ≠ none) (hnew : ∀ k < n, pairOf k ≠ id) :
    ∃ t, s.withId .empty id World.builtins.2 = some (⟨UInt32.ofNat s.size⟩, t) ∧
      t.size = n + 2 := by
  have hwf := h.reached.wellFormed
  obtain ⟨a, ha, hnil⟩ := hwf.root
  have hid : id ∉ a.ids := by
    rw [hnil]
    exact List.not_mem_nil
  have hone : insertId a.ids id = [id] := by
    rw [hnil]
    rfl
  rw [Ne, ← hwf.withId_eq_none_iff ha hw] at hd
  obtain ⟨x, hx⟩ := Option.ne_none_iff_exists'.1 hd
  obtain ⟨j, t⟩ := x
  have hk : s.byIds.get? (insertId a.ids id) = none := by
    rw [Option.eq_none_iff_forall_ne_some, hone]
    intro k hk
    obtain ⟨b, hb, hids⟩ := (hwf.keyed _ k).1 hk
    obtain hb | ⟨m, hm, hb⟩ := h.ids k b hb
    · rw [hb] at hids
      cases hids
    · rw [hb] at hids
      exact hnew m hm (List.cons.inj hids).1
  obtain ⟨rfl, hsize⟩ := hwf.withId_made ha hid hw hx hk
  exact ⟨t, hx, by rw [hsize, h.size]⟩

theorem Crowded.next {n : Nat} (h : Crowded n s) (hn : n < 0xffffffff) :
    ∃ t, Crowded (n + 1) t := by
  have hw := isWildcard_pairOf hn
  have htype : (pairOf n).typeHandle = ⟨0⟩ := Id.typeHandle_pairAt _ _ (by decide)
  obtain ⟨t, ht, hsize⟩ := h.add hw (by rw [htype]; decide +kernel) fun k hk heq => by
    have hlow := congrArg (fun x : Id => x.lowIndex.toNat) heq
    simp only [lowIndex_pairOf (Nat.lt_trans hn (by decide)),
      lowIndex_pairOf (Nat.lt_trans (Nat.lt_trans hk hn) (by decide))] at hlow
    omega
  have hroom : t.size ≤ 0x100000000 := by omega
  have hwf := h.reached.wellFormed
  obtain ⟨a, ha, hnil⟩ := hwf.root
  obtain ⟨-, hext, b, hb, hids⟩ := hwf.follow (c := .add (pairOf n)) ha hw ht hroom
  rw [hnil] at hids
  refine ⟨t, h.reached.follow (c := .add (pairOf n)) (by rw [ha]; rfl) hw ht hroom, hsize,
    fun i u hu => ?_⟩
  by_cases hi : i.raw.toNat < s.size
  · obtain ⟨u', hu', hids', -⟩ := hext.tables i _ (Array.getElem?_eq_getElem hi)
    cases hu.symm.trans hu'
    obtain hold | ⟨k, hk, hold⟩ := h.ids i _ (Array.getElem?_eq_getElem hi)
    · exact .inl (hids'.trans hold)
    · exact .inr ⟨k, Nat.lt_succ_of_lt hk, hids'.trans hold⟩
  · -- the only number behind the old ones is that of the new table
    have hlt : i.raw.toNat < t.size := (Array.getElem?_eq_some_iff.1 hu).1
    have hlast : i.raw.toNat = s.size := by
      have := h.size
      omega
    rw [← hlast, UInt32.ofNat_toNat] at hb
    cases hu.symm.trans hb
    exact .inr ⟨n, Nat.lt_succ_self n, hids⟩

theorem exists_crowded (n : Nat) (hn : n ≤ 0xffffffff) : ∃ s, Crowded n s := by
  induction n with
  | zero =>
    refine ⟨.empty, .empty _, rfl, fun i a ha => ?_⟩
    obtain ⟨-, rfl⟩ := get?_empty_eq ha
    exact .inl rfl
  | succ n ih =>
    obtain ⟨s, hs⟩ := ih (by omega)
    exact hs.next (by omega)

/-- To take away an id of an unknown type is answered with the table itself. And when all numbers
are in use, one more table gets the number of the table without ids, which stays as it is. -/
theorem unknown_answered : Registry.empty.descriptor? ⟨99⟩ = none ∧
    Storage.empty.withoutId .empty (Id.component ⟨99⟩) .empty = some (.empty, .empty) ∧
    ∃ s t a, Reached World.builtins.2 s ∧ s.size = 0x100000000 ∧
      s.withId .empty (Id.component ⟨0⟩) World.builtins.2 = some (.empty, t) ∧
      t.get? .empty = some a ∧ a.ids = [] := by
  refine ⟨rfl, rfl, ?_⟩
  obtain ⟨s, hs⟩ := exists_crowded 0xffffffff (Nat.le_refl _)
  have hsize : s.size = 0x100000000 := hs.size
  have hw : (Id.component ⟨0⟩).isWildcard = false := by decide
  obtain ⟨t, ht, -⟩ := hs.add hw (by decide +kernel) fun k _ heq => by
    have hpair := congrArg Id.isPair heq
    rw [pairOf, Id.isPair_pairAt, Id.isPair_component] at hpair
    cases hpair
  rw [hsize] at ht
  obtain ⟨a, ha, hnil⟩ := hs.reached.wellFormed.root
  obtain ⟨-, hkeys⟩ := (withId_prepared ht).keeps hs.reached.wellFormed.numbered
  obtain ⟨rest, hrest⟩ := hkeys
  have hkey : t.keys[ArchetypeId.empty.raw.toNat]? = some a.key := by
    have hold := key_of_get? ha
    rw [← hrest, List.getElem?_append_left (List.getElem?_eq_some_iff.1 hold).1, hold]
  rw [getElem?_keys, Option.map_eq_some_iff] at hkey
  obtain ⟨b, hb, heq⟩ := hkey
  exact ⟨s, t, b, hs.reached, hsize, ht, hb, (congrArg Prod.snd heq).trans hnil⟩

end Storage
end EntityWorld
