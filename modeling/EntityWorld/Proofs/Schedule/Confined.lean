import EntityWorld.Proofs.Schedule.AccessSet
import EntityWorld.Proofs.World.Mask
import EntityWorld.Schedule.Action
set_option autoImplicit false

/-!
Systems are confined to their declared access. What a request is answered with depends on the values
of the types that the system may read alone, and it changes those of the types that it may write
alone.
-/
namespace EntityWorld

variable {Note : Type} {p : TypeHandle → Bool}

def Request.Reads : Request → Prop
  | .set .. => False
  | _ => True

namespace Query

theorem refresh_mask (q : Query) (w : World) : q.refresh (w.mask p) = q.refresh w := by
  have hsize : (w.mask p).storage.size = w.storage.size := Storage.size_mask
  have hsince (n : Nat) (q : Query) : (((w.mask p).storage.since n).filter q.admits).map (·.id) =
      ((w.storage.since n).filter q.admits).map (·.id) := by
    have hmask : (w.mask p).storage.since n = _ := Storage.since_mask n
    rw [hmask, List.filter_map, List.map_map]
    rfl
  simp only [refresh, hsize, hsince]

theorem candidates_mask (q : Query) (w : World) : q.candidates (w.mask p) = q.candidates w := by
  have hlost : q.targetLost (w.mask p) = q.targetLost w := rfl
  rw [candidates, candidates, hlost, refresh_mask]

theorem rows_mask (q : Query) (w : World) : q.rows (w.mask p) = q.rows w := by
  have htables (tables : List ArchetypeId) :
      (tables.filterMap (w.mask p).storage.get?).flatMap tableRows =
        (tables.filterMap w.storage.get?).flatMap tableRows := by
    have hget : (w.mask p).storage.get? = fun i => (w.storage.get? i).map (Archetype.mask p) :=
      funext fun i => Storage.get?_mask
    rw [hget, ← List.map_filterMap, List.flatMap_map]
    rfl
  simp only [rows, candidates_mask, htables]

end Query

namespace RunState

open World

variable {facts : SystemFacts} {st : RunState Note} {w v : World}

theorem guarded_blind {α : Type} {act : World → Except EcsError α × World} {allowed : Bool}
    (hact : allowed = true → Blind p act) (st : RunState Note) (r : Row) (h : TypeHandle) :
    Blind p fun w => st.guarded w r allowed h act := by
  unfold guarded
  cases allowed with
  | false => exact .of_pure _ fun w => rfl
  | true =>
    by_cases hr : st.rows.contains r = true
    · simp only [hr, Bool.not_true, Bool.false_eq_true, if_false, if_true]
      exact hact rfl
    · simp only [hr, Bool.not_true, Bool.false_eq_true, if_false]
      exact .of_pure _ fun w => rfl

theorem perform_blind (facts : SystemFacts) (st : RunState Note) (q : Request) :
    Blind facts.access.canRead fun w =>
      (((st.perform facts w q).1, (st.perform facts w q).2.1), (st.perform facts w q).2.2) := by
  cases q with
  | facts | registry | spawn | record | pending => exact .of_pure _ fun w => rfl
  | rows =>
    refine .of_pure (fun w => (((st.perform facts w .rows).1, (st.perform facts w .rows).2.1))) ?_
    intro w
    simp only [perform, Query.rows_mask]
  | get r h t =>
    exact (guarded_blind (fun hp => rowGet_blind hp r t) st r h).map fun x => (x, st)
  | tryGet r h t =>
    exact (guarded_blind (fun hp => rowTryGet_blind hp r t) st r h).map fun x => (x, st)
  | value r id =>
    exact (guarded_blind (fun hp => (rowValue_blind hp r).map Except.ok) st r id.typeHandle).map
      fun x => (x, st)
  | has r id =>
    refine .of_pure (fun w => (st.rows.contains r && w.rowHas r id, st)) fun w => ?_
    rw [rowHas_mask]
  | target r relation =>
    refine .of_pure (fun w => (if st.rows.contains r then w.rowTarget r relation else none, st)) ?_
    intro w
    rw [rowTarget_mask]
  | set r h t x =>
    exact (guarded_blind (fun hw => rowSet_blind (AccessSet.canRead_of_canWrite hw) r t x) st r
      h).map fun x => (x, st)
  | read e h t =>
    by_cases hp : facts.access.canRead h = true
    · simp only [perform, hp, if_true]
      exact (read_blind hp e t).map fun x => (x, st)
    · simp only [perform, hp, Bool.false_eq_true, if_false]
      exact .of_pure (fun w => (Except.error (w.violation h), st)) fun w => rfl
  | build r => exact (build_blind r).map fun x => (x, st)
  | discard x => exact ⟨fun w => rfl, fun w => w.mask_mask_self⟩

theorem mask_guarded {α : Type} (act : World → Except EcsError α × World) {allowed : Bool}
    (hact : allowed = true → (act w).2.mask p = w.mask p) (st : RunState Note) (r : Row)
    (h : TypeHandle) : (st.guarded w r allowed h act).2.mask p = w.mask p := by
  unfold guarded
  cases allowed with
  | false => rfl
  | true =>
    simp only [Bool.not_true, Bool.false_eq_true, if_false]
    split
    · exact hact rfl
    · rfl

theorem mask_perform_of_reads {q : Request} (hq : q.Reads) (facts : SystemFacts)
    (st : RunState Note) (w : World) : (st.perform facts w q).2.2.mask p = w.mask p := by
  cases q with
  | get r h t =>
    exact mask_guarded (fun w => w.rowGet r h t) (fun _ => w.mask_rowGet r h t) st r h
  | tryGet r h t =>
    exact mask_guarded (fun w => w.rowTryGet r h t) (fun _ => w.mask_copyOut h t _) st r h
  | value r id =>
    exact mask_guarded (fun w => (.ok (w.rowValue r id).1, (w.rowValue r id).2))
      (fun _ => w.mask_valueOut id _) st r id.typeHandle
  | set r h t x => exact hq.elim
  | read e h t =>
    simp only [perform]
    split
    · exact w.mask_copyOut h t _
    · rfl
  | build r => exact w.mask_build r
  | facts | registry | rows | has | target | discard | spawn | record | pending => rfl

theorem mask_perform (hn : w.storage.Numbered)
    (hp : ∀ h, facts.access.canWrite h = true → p h = false) (st : RunState Note) (q : Request) :
    (st.perform facts w q).2.2.mask p = w.mask p := by
  by_cases hq : q.Reads
  · exact mask_perform_of_reads hq facts st w
  · cases q with
    | set r h t x =>
      exact mask_guarded (fun w => w.rowSet r h t x) (fun hw => mask_rowSet hn (hp h hw) r t x) st
        r h
    | _ => exact absurd trivial hq

theorem perform_agree (h : w.mask facts.access.canRead = v.mask facts.access.canRead)
    (st : RunState Note) (q : Request) :
    (st.perform facts w q).1 = (st.perform facts v q).1 ∧
      (st.perform facts w q).2.1 = (st.perform facts v q).2.1 ∧
      (st.perform facts w q).2.2.mask facts.access.canRead =
        (st.perform facts v q).2.2.mask facts.access.canRead := by
  obtain ⟨hanswer, hworld⟩ := (perform_blind facts st q).agree h
  exact ⟨(Prod.mk.inj hanswer).1, (Prod.mk.inj hanswer).2, hworld⟩

end RunState
end EntityWorld
