import EntityWorld.Host.IdentityMap
import EntityWorld.Proofs.FinMap
set_option autoImplicit false

/-!
The two tables of the map between host objects and entities. They stay each other's inverse when an
object is bound and when entities die, and the counters and notices tell what was struck out.
-/
namespace EntityWorld

/-- What becomes of bindings: they begin, and they end, whether the host has asked or not. -/
inductive Entry where
  | begun (o : ObjectId) (e : Entity)
  | ended (o : ObjectId) (e : Entity) (asked : Bool)
  deriving DecidableEq, Repr

namespace Entry

def begun? : Entry → Option (ObjectId × Entity)
  | .begun o e => some (o, e)
  | .ended .. => none

def ended? : Entry → Option (ObjectId × Entity)
  | .begun .. => none
  | .ended o e _ => some (o, e)

def unasked? : Entry → Option (ObjectId × Entity)
  | .ended o e false => some (o, e)
  | _ => none

end Entry

namespace IdentityMap

variable {m m' m'' : IdentityMap} {o : ObjectId} {e : Entity} {b : Binding} {dead : List Entity}

def bindings (m : IdentityMap) : List (ObjectId × Entity) :=
  m.byObject.entries.map fun x => (x.1, x.2.entity)

theorem mem_bindings_iff :
    (o, e) ∈ m.bindings ↔ ∃ b, m.byObject.get? o = some b ∧ b.entity = e := by
  rw [bindings, List.mem_map]
  constructor
  · intro hex
    obtain ⟨x, hx, heq⟩ := hex
    obtain ⟨rfl, rfl⟩ := Prod.mk.inj heq
    exact ⟨x.2, FinMap.mem_entries_iff.1 hx, rfl⟩
  · intro hex
    obtain ⟨b, hb, rfl⟩ := hex
    exact ⟨(o, b), FinMap.mem_entries_iff.2 hb, rfl⟩

/-- The two tables are each other's inverse. -/
structure Linked (m : IdentityMap) : Prop where
  forward : ∀ o b, m.byObject.get? o = some b → m.byEntity.get? b.entity = some o
  backward : ∀ e o, m.byEntity.get? e = some o → ∃ b, m.byObject.get? o = some b ∧ b.entity = e

theorem Linked.congr (h : m.Linked)
    (ho : ∀ o, (m'.byObject.get? o).map Binding.entity = (m.byObject.get? o).map Binding.entity)
    (he : m'.byEntity = m.byEntity) : m'.Linked := by
  constructor
  · intro o b hb
    have hmap := ho o
    rw [hb, Option.map_some, eq_comm, Option.map_eq_some_iff] at hmap
    obtain ⟨b', hb', hentity⟩ := hmap
    rw [he, ← hentity]
    exact h.forward o b' hb'
  · intro e o he'
    rw [he] at he'
    obtain ⟨b, hb, rfl⟩ := h.backward e o he'
    have hmap := ho o
    rwa [hb, Option.map_some, Option.map_eq_some_iff] at hmap

theorem Linked.objectOf_iff (h : m.Linked) :
    m.objectOf e = some o ↔ ∃ b, m.byObject.get? o = some b ∧ b.entity = e := by
  constructor
  · exact h.backward e o
  · intro hex
    obtain ⟨b, hb, rfl⟩ := hex
    exact h.forward o b hb

theorem Linked.objectOf_eq (h : m.Linked) (h' : m'.Linked)
    (ho : ∀ o, m'.byObject.get? o = m.byObject.get? o) (e : Entity) :
    m'.objectOf e = m.objectOf e := by
  refine Option.ext fun o => ?_
  rw [h'.objectOf_iff, h.objectOf_iff, ho]

theorem Linked.ask (h : m.Linked) (ho : m.byObject.get? o = some b) :
    Linked { m with byObject := m.byObject.insert o { b with destroying := true } } := by
  refine h.congr (fun x => ?_) rfl
  rw [FinMap.get?_insert]
  split
  · next hx => rw [hx, ho, Option.map_some, Option.map_some]
  · rfl

theorem Linked.entity_eq_iff (h : m.Linked) (ho : m.byObject.get? o = some b)
    {x : ObjectId × Binding} (hx : x ∈ m.byObject.entries) : x.2.entity = b.entity ↔ x.1 = o := by
  have hget := FinMap.mem_entries_iff.1 hx
  constructor
  · intro heq
    have hback := h.forward x.1 x.2 hget
    rw [heq, h.forward o b ho] at hback
    exact (Option.some.inj hback).symm
  · intro heq
    rw [heq, ho] at hget
    rw [Option.some.inj hget]

theorem Linked.erase (h : m.Linked) (ho : m.byObject.get? o = some b) (stats : LifecycleStats)
    (notices : List (ObjectId × Entity)) :
    Linked ⟨m.byObject.erase o, m.byEntity.erase b.entity, stats, notices⟩ := by
  constructor
  · intro o' b' ho'
    rw [FinMap.get?_erase] at ho' ⊢
    split at ho'
    · cases ho'
    · next hne =>
      rw [if_neg fun heq => hne ((h.entity_eq_iff ho (FinMap.mem_entries_iff.2 ho')).1 heq)]
      exact h.forward o' b' ho'
  · intro e o' he
    rw [FinMap.get?_erase] at he
    split at he
    · cases he
    · next hne =>
      obtain ⟨b', hb', rfl⟩ := h.backward e o' he
      refine ⟨b', ?_, rfl⟩
      rw [FinMap.get?_erase, if_neg fun heq => ?_]
      · exact hb'
      · rw [heq, ho] at hb'
        exact hne (congrArg Binding.entity (Option.some.inj hb')).symm

theorem Linked.bind (h : m.Linked) (o : ObjectId) (he : m.byEntity.get? e = none) :
    (m.bind o e).Linked := by
  have hforth (e' : Entity) : (m.bind o e).byEntity.get? e' =
      if e' = e then some o
      else if (m.byObject.get? o).map Binding.entity = some e' then none
      else m.byEntity.get? e' := by
    rw [IdentityMap.bind]
    cases m.byObject.get? o with
    | none => exact FinMap.get?_insert _ _ _ _
    | some stale =>
      simp only [FinMap.get?_insert, FinMap.get?_erase, Option.map_some, Option.some.injEq,
        eq_comm (a := e')]
  constructor
  · intro o' b hb
    rw [hforth]
    rw [IdentityMap.bind, FinMap.get?_insert] at hb
    split at hb
    · next heq => rw [← Option.some.inj hb, if_pos rfl, heq]
    · next hne =>
      have hforward := h.forward o' b hb
      rw [if_neg fun heq => ?_, if_neg fun heq => ?_]
      · exact hforward
      · obtain ⟨stale, hstale, hentity⟩ := Option.map_eq_some_iff.1 heq
        rw [← hentity, h.forward o stale hstale] at hforward
        exact hne (Option.some.inj hforward).symm
      · rw [heq, he] at hforward
        cases hforward
  · intro e' o' he'
    rw [hforth] at he'
    rw [IdentityMap.bind]
    split at he'
    · next heq =>
      obtain rfl := Option.some.inj he'
      exact ⟨⟨e, false⟩, by rw [FinMap.get?_insert, if_pos rfl], heq.symm⟩
    · split at he'
      · cases he'
      · next hstale =>
        obtain ⟨b, hb, rfl⟩ := h.backward e' o' he'
        refine ⟨b, ?_, rfl⟩
        rw [FinMap.get?_insert, if_neg fun heq => ?_]
        · exact hb
        · rw [← heq, hb] at hstale
          exact hstale rfl

theorem bindings_bind (ho : m.byObject.get? o = none) (e : Entity) :
    (m.bind o e).bindings = (o, e) :: m.bindings := by
  rw [bindings, IdentityMap.bind, FinMap.entries_insert_of_none ho]
  rfl

def struck (m : IdentityMap) (dead : List Entity) : List (ObjectId × Binding) :=
  m.byObject.entries.filter fun x => x.2.entity ∈ dead

def told (ended : List (ObjectId × Binding)) : List (ObjectId × Entity) :=
  (ended.filter fun x => !x.2.destroying).map fun x => (x.1, x.2.entity)

/-- The bindings of the dead are struck out, counted and told. -/
structure Buries (m : IdentityMap) (dead : List Entity) (m' : IdentityMap) : Prop where
  linked : m'.Linked
  entries : m'.byObject.entries = m.byObject.entries.filter fun x => x.2.entity ∉ dead
  bound : m'.stats.bound = m.stats.bound
  unbound : m'.stats.unbound = m.stats.unbound + (m.struck dead).length
  external : m'.stats.externalDeletes =
    m.stats.externalDeletes + (told (m.struck dead)).length
  notices : m'.notices.Perm (told (m.struck dead) ++ m.notices)

theorem Buries.bindings (h : m.Buries dead m') :
    m.bindings.Perm (m'.bindings ++ (m.struck dead).map fun x => (x.1, x.2.entity)) := by
  have hsplit := (List.filter_append_perm (fun x : ObjectId × Binding => x.2.entity ∈ dead)
    m.byObject.entries).symm.map fun x => (x.1, x.2.entity)
  rw [List.map_append] at hsplit
  refine hsplit.trans (List.perm_append_comm.trans (.of_eq ?_))
  rw [IdentityMap.bindings, h.entries]
  simp only [decide_not]
  rfl

theorem Buries.get? (h : m.Buries dead m') :
    m'.byObject.get? o = some b ↔ m.byObject.get? o = some b ∧ b.entity ∉ dead := by
  rw [← FinMap.mem_entries_iff, h.entries, List.mem_filter, FinMap.mem_entries_iff,
    decide_eq_true_iff]

theorem Buries.of_none (h : m.Linked) (hnone : ∀ x ∈ m.byObject.entries, x.2.entity ∉ dead) :
    m.Buries dead m := by
  have hstruck : m.struck dead = [] :=
    List.filter_eq_nil_iff.2 fun x hx => by rw [decide_eq_true_iff]; exact hnone x hx
  have hkept : (m.byObject.entries.filter fun x => x.2.entity ∉ dead) = m.byObject.entries :=
    List.filter_eq_self.2 fun x hx => decide_eq_true (hnone x hx)
  refine ⟨h, hkept.symm, rfl, ?_, ?_, ?_⟩
  all_goals rw [hstruck]
  · rfl
  · rfl
  · exact .refl _

theorem struck_append (hentries : m'.byObject.entries =
      m.byObject.entries.filter fun x => x.2.entity ∉ dead) (dead' : List Entity) :
    (m.struck (dead ++ dead')).Perm (m.struck dead ++ m'.struck dead') := by
  have hsplit := (List.filter_append_perm (fun x : ObjectId × Binding => x.2.entity ∈ dead)
    (m.struck (dead ++ dead'))).symm
  refine hsplit.trans (.of_eq ?_)
  simp only [struck, hentries, List.filter_filter]
  congr 1
  · refine List.filter_congr fun x _ => ?_
    by_cases hx : x.2.entity ∈ dead <;> simp [hx]
  · refine List.filter_congr fun x _ => ?_
    by_cases hx : x.2.entity ∈ dead <;> simp [hx]

theorem Buries.trans {dead' : List Entity} (h : m.Buries dead m') (h' : m'.Buries dead' m'') :
    m.Buries (dead ++ dead') m'' := by
  have hstruck := struck_append h.entries dead'
  have htold : (told (m.struck (dead ++ dead'))).Perm
      (told (m.struck dead) ++ told (m'.struck dead')) := by
    have hperm := (hstruck.filter fun x => !x.2.destroying).map fun x => (x.1, x.2.entity)
    rwa [List.filter_append, List.map_append] at hperm
  refine ⟨h'.linked, ?_, h'.bound.trans h.bound, ?_, ?_, ?_⟩
  · rw [h'.entries, h.entries, List.filter_filter]
    refine List.filter_congr fun x _ => ?_
    simp [Bool.and_comm]
  · rw [h'.unbound, h.unbound, hstruck.length_eq, List.length_append, Nat.add_assoc]
  · rw [h'.external, h.external, htold.length_eq, List.length_append, Nat.add_assoc]
  · refine h'.notices.trans ((h.notices.append_left _).trans ?_)
    rw [← List.append_assoc]
    exact (List.perm_append_comm.trans htold.symm).append_right _

theorem struck_eq_singleton (ho : m.byObject.get? o = some b) (hb : b.entity ∈ dead)
    (honly : ∀ x ∈ m.byObject.entries, x.2.entity ∈ dead → x.1 = o) : m.struck dead = [(o, b)] := by
  have hnodup : (m.struck dead).Nodup := m.byObject.nodup_entries.filter _
  refine List.perm_singleton.1 ((List.perm_ext_iff_of_nodup hnodup (List.nodup_singleton _)).2 ?_)
  intro x
  rw [struck, List.mem_filter, decide_eq_true_iff, List.mem_singleton]
  constructor
  · intro hx
    have hkey := honly x hx.1 hx.2
    have hget := FinMap.mem_entries_iff.1 hx.1
    rw [hkey, ho] at hget
    exact Prod.ext hkey (Option.some.inj hget).symm
  · intro hx
    subst hx
    exact ⟨FinMap.mem_entries_iff.2 ho, hb⟩

theorem Linked.struck_singleton (h : m.Linked) (ho : m.byObject.get? o = some b) :
    m.struck [b.entity] = [(o, b)] :=
  struck_eq_singleton ho (List.mem_singleton_self _) fun _ hx hmem =>
    (h.entity_eq_iff ho hx).1 (List.mem_singleton.1 hmem)

theorem buries_onDespawn (h : m.Linked) (e : Entity) : m.Buries [e] (m.onDespawn e) := by
  cases he : m.byEntity.get? e with
  | none =>
    have hsame : m.onDespawn e = m := by simp only [onDespawn, unbind, he]
    rw [hsame]
    refine .of_none h fun x hx hmem => ?_
    have hforward := h.forward x.1 x.2 (FinMap.mem_entries_iff.1 hx)
    rw [List.mem_singleton.1 hmem, he] at hforward
    cases hforward
  | some o =>
    obtain ⟨b, hb, rfl⟩ := h.backward e o he
    have hend : m.onDespawn b.entity = { m with
        byObject := m.byObject.erase o, byEntity := m.byEntity.erase b.entity
        stats := { m.stats with
          unbound := m.stats.unbound + 1
          externalDeletes := m.stats.externalDeletes + if b.destroying then 0 else 1 }
        notices := told [(o, b)] ++ m.notices } := by
      simp only [onDespawn, unbind, he, hb]
      cases hd : b.destroying <;> simp [told, hd]
    rw [hend]
    refine ⟨h.erase hb _ _, ?_, rfl, ?_, ?_, ?_⟩
    · refine List.filter_congr fun x hx => ?_
      simp [h.entity_eq_iff hb hx]
    · rw [h.struck_singleton hb]
      rfl
    · rw [h.struck_singleton hb]
      cases hd : b.destroying <;> simp [told, hd]
    · rw [h.struck_singleton hb]

theorem buries_foldl (h : m.Linked) (dead : List Entity) :
    m.Buries dead (dead.foldl onDespawn m) := by
  induction dead generalizing m with
  | nil => exact .of_none h fun _ _ => List.not_mem_nil
  | cons e rest ih =>
    have hfirst := buries_onDespawn h e
    exact hfirst.trans (ih hfirst.linked)

theorem notices_onDespawn (m : IdentityMap) (e : Entity) :
    m.notices <:+ (m.onDespawn e).notices := by
  cases he : m.byEntity.get? e with
  | none => simp only [onDespawn, unbind, he, List.suffix_rfl]
  | some o =>
    cases hb : m.byObject.get? o with
    | none => simp [onDespawn, unbind, he, hb]
    | some b => cases hd : b.destroying <;> simp [onDespawn, unbind, he, hb, hd]

theorem notices_foldl (m : IdentityMap) (dead : List Entity) :
    m.notices <:+ (dead.foldl onDespawn m).notices := by
  induction dead generalizing m with
  | nil => exact List.suffix_rfl
  | cons e rest ih => exact (notices_onDespawn m e).trans (ih (m.onDespawn e))

/-! ### What the host asks for -/

variable {asked : ObjectId → Bool} {past : List Entry}

/-- A binding as it is when the host has asked for the end of some objects. -/
def mark (asked : ObjectId → Bool) (x : ObjectId × Binding) : ObjectId × Binding :=
  (x.1, ⟨x.2.entity, asked x.1⟩)

structure Marked (m : IdentityMap) (asked : ObjectId → Bool) (m' : IdentityMap) : Prop where
  byObject : ∀ o, m'.byObject.get? o = (m.byObject.get? o).map fun b => ⟨b.entity, asked o⟩
  byEntity : m'.byEntity = m.byEntity
  stats : m'.stats = m.stats
  notices : m'.notices = m.notices

namespace Marked

theorem refl (hidle : ∀ o b, m.byObject.get? o = some b → b.destroying = false) :
    m.Marked (fun _ => false) m := by
  refine ⟨fun o => ?_, rfl, rfl, rfl⟩
  cases hb : m.byObject.get? o with
  | none => rfl
  | some b => rw [Option.map_some, ← hidle o b hb]

theorem insert (hidle : ∀ o b, m.byObject.get? o = some b → b.destroying = false)
    (ho : m.byObject.get? o = some b) : m.Marked (fun x => x = o)
      { m with byObject := m.byObject.insert o { b with destroying := true } } := by
  refine ⟨fun x => ?_, rfl, rfl, rfl⟩
  rw [FinMap.get?_insert]
  by_cases hx : x = o
  · rw [if_pos hx, hx, ho, Option.map_some, decide_eq_true rfl]
  · rw [if_neg hx, decide_eq_false hx]
    exact (refl hidle).byObject x

theorem beginShutdown (m : IdentityMap) : m.Marked (fun _ => true) m.beginShutdown :=
  ⟨fun o => FinMap.get?_mapValues m.byObject _ o, rfl, rfl, rfl⟩

theorem linked (h : m.Marked asked m') (hm : m.Linked) : m'.Linked := by
  refine hm.congr (fun o => ?_) h.byEntity
  rw [h.byObject, Option.map_map]
  rfl

theorem entries (h : m.Marked asked m') :
    m'.byObject.entries.Perm (m.byObject.entries.map (mark asked)) := by
  have hnodup : (m.byObject.entries.map (mark asked)).Nodup := by
    refine List.Nodup.of_map Prod.fst ?_
    rw [List.map_map]
    exact m.byObject.nodup_keys
  refine (List.perm_ext_iff_of_nodup m'.byObject.nodup_entries hnodup).2 fun x => ?_
  obtain ⟨o, b⟩ := x
  rw [FinMap.mem_entries_iff, h.byObject, Option.map_eq_some_iff, List.mem_map]
  constructor
  · intro hex
    obtain ⟨b, hb, rfl⟩ := hex
    exact ⟨(o, b), FinMap.mem_entries_iff.2 hb, rfl⟩
  · intro hex
    obtain ⟨x, hx, heq⟩ := hex
    obtain ⟨rfl, rfl⟩ := Prod.mk.inj heq
    exact ⟨x.2, FinMap.mem_entries_iff.1 hx, rfl⟩

theorem bindings (h : m.Marked asked m') : m'.bindings.Perm m.bindings := by
  have hperm := h.entries.map fun x => (x.1, x.2.entity)
  rwa [List.map_map] at hperm

theorem struck (h : m.Marked asked m') (dead : List Entity) :
    (m'.struck dead).Perm ((m.struck dead).map (mark asked)) := by
  have hperm := h.entries.filter fun x => x.2.entity ∈ dead
  rwa [List.filter_map] at hperm

end Marked

/-! ### What becomes of bindings -/

def ends (m : IdentityMap) (dead : List Entity) (asked : ObjectId → Bool) : List Entry :=
  (m.struck dead).map fun x => .ended x.1 x.2.entity (asked x.1)

/-- The map fits to what has become of all bindings. -/
structure Balanced (past : List Entry) (m : IdentityMap) : Prop where
  bound : m.stats.bound = (past.filterMap Entry.begun?).length
  unbound : m.stats.unbound = (past.filterMap Entry.ended?).length
  /-- Each binding that has begun is there or has ended once. -/
  once : (past.filterMap Entry.begun?).Perm (m.bindings ++ past.filterMap Entry.ended?)
  external : m.stats.externalDeletes = m.notices.length
  notices : m.notices.Perm (past.filterMap Entry.unasked?)

theorem Balanced.bind (h : Balanced past m) (ho : m.byObject.get? o = none) (e : Entity) :
    Balanced (past ++ [.begun o e]) (m.bind o e) := by
  have hsame {α : Type} {f : Entry → Option α} (hf : f (.begun o e) = none) :
      (past ++ [Entry.begun o e]).filterMap f = past.filterMap f := by
    rw [List.filterMap_append, List.filterMap_cons_none hf, List.filterMap_nil, List.append_nil]
  have hbegun : (past ++ [Entry.begun o e]).filterMap Entry.begun? =
      past.filterMap Entry.begun? ++ [(o, e)] := List.filterMap_append
  refine ⟨?_, ?_, ?_, h.external, ?_⟩
  · rw [hbegun, List.length_append, ← h.bound]
    rfl
  · rw [hsame rfl]
    exact h.unbound
  · rw [hbegun, hsame rfl, bindings_bind ho]
    exact (List.perm_append_singleton _ _).trans (h.once.cons _)
  · rw [hsame rfl]
    exact h.notices

theorem begun_ends (m : IdentityMap) (dead : List Entity) (asked : ObjectId → Bool) :
    (m.ends dead asked).filterMap Entry.begun? = [] := by
  rw [ends, List.filterMap_map]
  exact List.filterMap_eq_nil_iff.2 fun _ _ => rfl

theorem unasked_ends (m : IdentityMap) (dead : List Entity) (asked : ObjectId → Bool) :
    (m.ends dead asked).filterMap Entry.unasked? = told ((m.struck dead).map (mark asked)) := by
  rw [ends, told, List.filterMap_map, List.filter_map, List.map_map, ← List.filterMap_eq_map,
    List.filterMap_filter]
  refine List.filterMap_congr fun x _ => ?_
  cases hx : asked x.1 <;> simp [Entry.unasked?, mark, hx]

theorem Balanced.buries (h : Balanced past m) (hm : m.Marked asked m') (hb : m'.Buries dead m'') :
    Balanced (past ++ m.ends dead asked) m'' := by
  have hbegun := m.begun_ends dead asked
  have hended : (m.ends dead asked).filterMap Entry.ended? =
      (m.struck dead).map fun x => (x.1, x.2.entity) := by
    rw [ends, List.filterMap_map]
    exact congrFun List.filterMap_eq_map (m.struck dead)
  have hstruck := hm.struck dead
  have htold : (told (m'.struck dead)).Perm ((m.ends dead asked).filterMap Entry.unasked?) := by
    rw [unasked_ends]
    exact (hstruck.filter _).map _
  have hbindings : m.bindings.Perm
      (m''.bindings ++ (m.ends dead asked).filterMap Entry.ended?) := by
    have hold := hstruck.map fun x => (x.1, x.2.entity)
    rw [List.map_map] at hold
    rw [hended]
    exact hm.bindings.symm.trans (hb.bindings.trans (hold.append_left _))
  refine ⟨?_, ?_, ?_, ?_, ?_⟩
  · rw [hb.bound, hm.stats, h.bound, List.filterMap_append, hbegun, List.append_nil]
  · rw [hb.unbound, hm.stats, h.unbound, List.filterMap_append, hended, List.length_append,
      List.length_map, hstruck.length_eq, List.length_map]
  · rw [List.filterMap_append, hbegun, List.append_nil, List.filterMap_append]
    refine h.once.trans ((hbindings.append_right _).trans ?_)
    rw [List.append_assoc]
    exact List.perm_append_comm.append_left _
  · rw [hb.external, hm.stats, h.external, ← hm.notices, hb.notices.length_eq, List.length_append,
      Nat.add_comm]
  · rw [List.filterMap_append]
    refine hb.notices.trans ?_
    rw [hm.notices]
    exact (htold.append h.notices).trans List.perm_append_comm

end IdentityMap
end EntityWorld
