import EntityWorld.Proofs.Query.Rows
import EntityWorld.Proofs.World.Parents
set_option autoImplicit false

/-!
The ways to look at a relation: to ask for one pair, to list the targets, to query for the pair or
for any pair, to ask a row for its target and, in the hierarchy, to list the children. All of them
come down to the pairs that the entity has a value for and to which slots are taken.
-/
namespace EntityWorld

open Query (compile compileTerm Follows)

variable {w : World} {e t x : Entity} {relation : TypeHandle} {d : TypeDescriptor}

/-! ### Queries with one required term -/

namespace Query

variable {id : TermId} {access : Access} {q : Query} {c : CompiledTerm}

theorem compile_required (hc : compileTerm w ⟨id, .required, access⟩ = .ok c)
    (hr : c.role = .required) :
    compile w [⟨id, .required, access⟩] = .ok ⟨[c], [⟨id, .required, access⟩], [], 0⟩ := by
  have hterms : [(⟨id, .required, access⟩ : Term)].mapM (compileTerm w) = .ok [c] := by
    rw [List.mapM_cons, List.mapM_nil, hc]
    rfl
  have hclear : contradiction? [c] = none := by simp [contradiction?, hr]
  simp only [compile, hterms, bind, Except.bind, hclear]
  rfl

theorem Follows.yields_iff (h : Follows [⟨id, .required, access⟩] w q) :
    (∃ r ∈ (q.rows w).2, r.entity = e) ↔ w.isAlive e = true ∧ w.Shows e id := by
  have hw := h.reachable.wellFormed
  have hlost : q.targetLost w = false ↔ w.TargetAlive id := by
    rw [← Bool.not_eq_true, targetLost_iff h.current.terms]
    simp
  rw [h.current.exists_row_iff hw h.fits, hlost, hw.shows_iff h.reachable.fits]
  simp only [List.mem_singleton, forall_eq, World.MeetsSlot]
  exact and_left_comm

end Query

namespace World

/-- The ways to look at the pairs of `e` with a relation, and at the one with `t`, agree. -/
structure ViewsAgree (w : World) (e : Entity) (relation : TypeHandle) (t : Entity) : Prop where
  targets : w.hasPair e relation t = true ↔ t ∈ w.targets e relation
  once : (w.targets e relation).Nodup
  alive : ∀ x ∈ w.targets e relation, w.isAlive x = true
  query : w.hasPair e relation t = true ↔
    ∃ q, compile w [Term.pair relation t] = .ok q ∧ ∃ r ∈ (q.rows w).2, r.entity = e
  kept : ∀ q, Follows [Term.pair relation t] w q →
    ((∃ r ∈ (q.rows w).2, r.entity = e) ↔ w.hasPair e relation t = true)
  compiles : ∃ q, compile w [Term.pairAny relation] = .ok q
  any : ∀ q, Follows [Term.pairAny relation] w q →
    ((∃ r ∈ (q.rows w).2, r.entity = e) ↔ w.has e (Id.wildcard relation) = true)
  row : ∀ q : Query, ∀ r ∈ (q.rows w).2, r.entity = e →
    w.rowTarget r relation = (w.targets e relation).head?
  children : relation = w.childOf → (t ∈ w.targets e relation ↔ e ∈ w.childrenOf t)
  childOnce : (w.childrenOf t).Nodup

theorem WellFormed.has_wildcard_iff (h : w.WellFormed) (hr : relation.raw.toNat < 0x80000000) :
    w.has e (Id.wildcard relation) = true ↔
      w.isAlive e = true ∧ ∃ i, w.Carries e (Id.pairAt relation i) := by
  cases he : w.isAlive e with
  | false => simp [has, archetypeOf?, location?_eq, he]
  | true =>
    obtain ⟨l, a, hs⟩ := h.stands he
    rw [hs.has, Archetype.contains_wildcard_iff hr]
    simp only [h.mem_ids_iff hs, true_and]

theorem compile_pair (hd : w.descriptor? relation = some d) (hc : d.classification = .relationship)
    (ht : w.isAlive t = true) : ∃ q, compile w [Term.pair relation t] = .ok q := by
  refine ⟨_, Query.compile_required (c := ⟨Id.pair relation t, .required, some t⟩) ?_ rfl⟩
  simp [compileTerm, hd, hc, ht]

theorem compile_pairAny (hd : w.descriptor? relation = some d)
    (hc : d.classification = .relationship) :
    ∃ q, compile w [Term.pairAny relation] = .ok q := by
  refine ⟨_, Query.compile_required (c := ⟨Id.wildcard relation, .required, none⟩) ?_ rfl⟩
  simp [compileTerm, hd, hc]

theorem WellFormed.stands_of_mem_rows (h : w.WellFormed) {q : Query} {r : Row}
    (hr : r ∈ (q.rows w).2) : ∃ a, w.Stands r.entity ⟨r.archetype, r.row⟩ a := by
  rw [Query.rows_eq, List.mem_flatMap] at hr
  obtain ⟨a, ha, hrow⟩ := hr
  obtain ⟨i, -, hi⟩ := List.mem_filterMap.1 ha
  obtain ⟨harchetype, hentity⟩ := Query.mem_tableRows.1 hrow
  rw [harchetype]
  exact ⟨a, h.stands_of_mem (Array.mem_of_getElem? hi) hentity⟩

theorem Stands.rowTarget {r : Row} {a : Archetype}
    (hs : w.Stands r.entity ⟨r.archetype, r.row⟩ a) (relation : TypeHandle) :
    w.rowTarget r relation = (w.targets r.entity relation).head? := by
  have htable : w.storage.get? r.archetype = some a := hs.table
  rw [hs.targets, List.head?_filterMap]
  simp only [World.rowTarget, htable]

/-! ### Children -/

theorem WellFormed.nodup_childrenOf (h : w.WellFormed) (t : Entity) : (w.childrenOf t).Nodup := by
  unfold childrenOf
  split
  · exact (h.nodup_rowEntities.of_map _).sublist (List.filter_sublist.flatMap _)
  · exact List.nodup_nil

theorem WellFormed.mem_childrenOf (h : w.WellFormed) (hf : w.Fits) :
    e ∈ w.childrenOf t ↔ w.hasPair e w.childOf t = true := by
  rw [h.hasPair_iff hf, childrenOf]
  cases ht : w.isAlive t with
  | false => simp
  | true =>
    have hcontains (a : Archetype) :
        a.contains (Id.pair w.childOf t) = true ↔ Id.pair w.childOf t ∈ a.ids :=
      Archetype.contains_iff (hf.isWildcard_pair ht w.childOf)
    rw [if_pos rfl, List.mem_flatMap, h.carries_iff]
    simp only [List.mem_filter, hcontains, true_and, Array.mem_toList_iff, and_assoc]
    exact exists_congr fun a => and_congr_right fun _ => and_comm

/-- All ways to look at a relation agree, whatever has happened to the world and its slots. -/
theorem Reachable.viewsAgree (h : w.Reachable) (hd : w.descriptor? relation = some d)
    (hc : d.classification = .relationship) (e t : Entity) : w.ViewsAgree e relation t := by
  have hw := h.wellFormed
  have hlt := hw.handle_lt hd
  have hmem : w.hasPair e relation t = true ↔ t ∈ w.targets e relation := by
    rw [hw.hasPair_iff h.fits, hw.mem_targets hlt]
  have hkept (q : Query) (hq : Follows [Term.pair relation t] w q) :
      (∃ r ∈ (q.rows w).2, r.entity = e) ↔ w.hasPair e relation t = true := by
    refine hq.yields_iff.trans (and_iff_right_of_imp fun hp => ?_)
    exact ((hw.hasPair_iff h.fits).1 hp).2.isAlive
  refine ⟨hmem, hw.nodup_targets hlt e, fun x hx => ((hw.mem_targets hlt).1 hx).1, ?_, hkept,
    compile_pairAny hd hc, fun q hq => ?_, fun q r hr hre => ?_, fun hrel => ?_,
    hw.nodup_childrenOf t⟩
  · constructor
    · intro hp
      obtain ⟨q, hq⟩ := compile_pair hd hc ((hw.hasPair_iff h.fits).1 hp).1
      exact ⟨q, hq, (hkept q (.compile h hq)).2 hp⟩
    · intro hex
      obtain ⟨q, hq, hrow⟩ := hex
      exact (hkept q (.compile h hq)).1 hrow
  · exact hq.yields_iff.trans (hw.has_wildcard_iff hlt).symm
  · obtain ⟨a, hs⟩ := hw.stands_of_mem_rows hr
    rw [hs.rowTarget relation, hre]
  · subst hrel
    rw [← hmem, hw.mem_childrenOf h.fits]

theorem viewsAgree_family : family.Reachable ∧
    family.descriptor? family.childOf = some (Registry.freeze childOfDescription ⟨0⟩) ∧
    (Registry.freeze childOfDescription ⟨0⟩).classification = .relationship ∧
    family.ViewsAgree ⟨2, 0⟩ family.childOf ⟨1, 0⟩ := by
  have hd := reachable_family.typed.descriptor?_childOf
  exact ⟨reachable_family, hd, rfl, reachable_family.viewsAgree hd rfl ⟨2, 0⟩ ⟨1, 0⟩⟩

end World
end EntityWorld
