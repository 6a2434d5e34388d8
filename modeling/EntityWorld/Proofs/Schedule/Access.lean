import EntityWorld.Proofs.Schedule.Confluence
import EntityWorld.Proofs.World.Agreement
set_option autoImplicit false

/-!
What a run of a system can see and touch. It ends the same in worlds that agree on what the system
declared, and leaves all else alone.
-/
namespace EntityWorld

variable {Note : Type} {p : TypeHandle → Bool}

open World

theorem World.SameRows.violation {w v : World} (h : SameRows w v) (t : TypeHandle) :
    w.violation t = v.violation t := by
  rw [World.violation, World.violation, h.descriptor?]

namespace RunState

variable {facts : SystemFacts} {st : RunState Note} {w v : World}

/-! ### In two worlds -/

theorem guarded_respects {α : Type} {act : World → Except EcsError α × World} {allowed : Bool}
    (hact : allowed = true → Respects p act) (st : RunState Note) (r : Row) (h : TypeHandle) :
    Respects p fun w => st.guarded w r allowed h act := by
  intro w v hwv
  unfold guarded
  cases allowed with
  | false =>
    simp only [Bool.not_false, if_true, hwv.violation h]
    exact ⟨trivial, hwv⟩
  | true =>
    simp only [Bool.not_true, Bool.false_eq_true, if_false]
    split
    · exact hact rfl w v hwv
    · exact ⟨rfl, hwv⟩

theorem perform_respects (facts : SystemFacts) (st : RunState Note) (q : Request) :
    Respects facts.access.canRead fun w =>
      (((st.perform facts w q).1, (st.perform facts w q).2.1), (st.perform facts w q).2.2) := by
  cases q with
  | facts | spawn | record | pending => exact .of_pure _ fun w v _ => rfl
  | registry =>
    refine .of_pure (fun w => (w.registry, st)) fun w v hwv => ?_
    rw [hwv.registry]
  | rows =>
    refine .of_pure (fun w => (((st.perform facts w .rows).1, (st.perform facts w .rows).2.1))) ?_
    intro w v hwv
    simp only [perform, Query.rows_congr hwv.toSameRows]
  | get r h t =>
    exact (guarded_respects (fun hp => rowGet_respects hp r t) st r h).map fun x => (x, st)
  | tryGet r h t =>
    exact (guarded_respects (fun hp => rowTryGet_respects hp r t) st r h).map fun x => (x, st)
  | value r id =>
    exact (guarded_respects (fun hp => (rowValue_respects hp r).map Except.ok) st r
      id.typeHandle).map fun x => (x, st)
  | has r id =>
    refine .of_pure (fun w => (st.rows.contains r && w.rowHas r id, st)) fun w v hwv => ?_
    rw [hwv.rowHas]
  | target r relation =>
    refine .of_pure (fun w => (if st.rows.contains r then w.rowTarget r relation else none, st)) ?_
    intro w v hwv
    rw [hwv.rowTarget]
  | set r h t x =>
    exact (guarded_respects (fun _ => rowSet_respects r h t x) st r h).map fun x => (x, st)
  | read e h t =>
    by_cases hp : facts.access.canRead h = true
    · simp only [perform, hp, if_true]
      exact (read_respects hp e t).map fun x => (x, st)
    · simp only [perform, hp, Bool.false_eq_true, if_false]
      refine .of_pure (fun w => (Except.error (w.violation h), st)) fun w v hwv => ?_
      rw [hwv.violation]
  | build r => exact (build_respects r).map fun x => (x, st)
  | discard x => exact fun w v hwv => ⟨rfl, hwv.note _ _⟩

end RunState

theorem Action.run_respects {α : Type} (facts : SystemFacts) (a : Action Note α)
    (st : RunState Note) : Respects facts.access.canRead fun w =>
      (((a.run facts st w).1, (a.run facts st w).2.1), (a.run facts st w).2.2) := by
  induction a generalizing st with
  | done a => exact .of_pure _ fun _ _ _ => rfl
  | ask q next ih =>
    exact (RunState.perform_respects facts st q).bind fun x => ih x.1 x.2
  | tell n next ih => exact ih _

/-! ### In one world -/

namespace RunState

variable {facts : SystemFacts} {st : RunState Note} {w : World}

theorem rowPeek_perform (hn : w.storage.Numbered) {x : Row}
    (hx : ∀ r ∈ st.rows, ¬ (x.archetype = r.archetype ∧ x.row = r.row)) (q : Request) (id : Id) :
    (st.perform facts w q).2.2.rowPeek x id = w.rowPeek x id := by
  by_cases hq : q.Reads
  · exact (Agree.of_mask (mask_perform_of_reads (p := fun _ => true) hq facts st w)).values x id rfl
  · cases q with
    | set r h t y =>
      simp only [perform, guarded]
      split
      · rfl
      · split
        · next hr => exact rowPeek_rowSet hn h t y (hx r (List.contains_iff_mem.1 hr)) id
        · rfl
    | _ => exact absurd trivial hq

/-- What a run of a system with the query `q` has left alone since it began in the world `w₀`. -/
structure Contained (facts : SystemFacts) (q : Query) (w₀ : World) (st : RunState Note)
    (w : World) : Prop where
  query : (st.query.rows w₀).2 = (q.rows w₀).2
  rows : ∀ r ∈ st.rows, r ∈ (q.rows w₀).2
  unwritten : ∀ p : TypeHandle → Bool, (∀ h, facts.access.canWrite h = true → p h = false) →
    w.mask p = w₀.mask p
  unmatched : ∀ x : Row, (∀ r ∈ (q.rows w₀).2, ¬ (x.archetype = r.archetype ∧ x.row = r.row)) →
    ∀ id, w.rowPeek x id = w₀.rowPeek x id

namespace Contained

variable {q : Query} {w₀ : World}

theorem start (facts : SystemFacts) (q : Query) (b : CommandBuffer) (notes : List Note)
    (w : World) : Contained facts q w ⟨q, [], b, notes⟩ w :=
  ⟨rfl, fun _ hr => absurd hr List.not_mem_nil, fun _ _ => rfl, fun _ _ _ => rfl⟩

theorem sameRows (h : Contained facts q w₀ st w) : SameRows w₀ w :=
  .of_mask (h.unwritten (fun _ => false) fun _ _ => rfl).symm

theorem rows_perform (h : Contained facts q w₀ st w) (a : Request) :
    ((st.perform facts w a).2.1.query.rows w₀).2 = (q.rows w₀).2 ∧
      ∀ r ∈ (st.perform facts w a).2.1.rows, r ∈ (q.rows w₀).2 := by
  cases a with
  | rows =>
    have hrows : st.query.rows w = st.query.rows w₀ := Query.rows_congr h.sameRows.symm st.query
    simp only [perform, hrows, Query.rows_rows, h.query]
    exact ⟨trivial, fun r hr => hr⟩
  | read e h' t =>
    simp only [perform]
    split <;> exact ⟨h.query, h.rows⟩
  | facts | registry | get | tryGet | value | has | target | set | build | discard | spawn | record
  | pending => exact ⟨h.query, h.rows⟩

theorem perform (h : Contained facts q w₀ st w) (hn : w₀.storage.Numbered) (a : Request) :
    Contained facts q w₀ (st.perform facts w a).2.1 (st.perform facts w a).2.2 := by
  have hnumbered := h.sameRows.numbered hn
  obtain ⟨hquery, hrows⟩ := h.rows_perform a
  refine ⟨hquery, hrows, fun p hp => ?_, fun x hx id => ?_⟩
  · exact (mask_perform hnumbered hp st a).trans (h.unwritten p hp)
  · exact (rowPeek_perform hnumbered (fun r hr => hx r (h.rows r hr)) a id).trans
      (h.unmatched x hx id)

theorem run {α : Type} (h : Contained facts q w₀ st w) (hn : w₀.storage.Numbered)
    (a : Action Note α) : Contained facts q w₀ (a.run facts st w).2.1 (a.run facts st w).2.2 := by
  induction a generalizing st w with
  | done a => exact h
  | ask r next ih => exact ih _ (h.perform hn r)
  | tell n next ih => exact ih ⟨h.query, h.rows, h.unwritten, h.unmatched⟩

end Contained

end RunState

/-! ### Runs of systems -/

namespace Scheduler

variable {s : Scheduler Note} {w v : World} {delta : UInt32} {i : Nat} {sys : System Note}

structure Untouched (s : Scheduler Note) (w : World) (delta : UInt32) (i : Nat)
    (sys : System Note) : Prop where
  rows : SameRows w (s.runSystem w delta i).2.2
  unwritten : ∀ (r : Row) (id : Id), sys.access.canWrite id.typeHandle = false →
    (s.runSystem w delta i).2.2.rowPeek r id = w.rowPeek r id
  unmatched : ∀ x : Row,
    (∀ r ∈ (sys.query.rows w).2, ¬ (x.archetype = r.archetype ∧ x.row = r.row)) →
    ∀ id, (s.runSystem w delta i).2.2.rowPeek x id = w.rowPeek x id

theorem untouched (hn : w.storage.Numbered) (hsys : s.systems[i]? = some sys) (delta : UInt32) :
    Untouched s w delta i sys := by
  by_cases heligible : s.eligible sys = true
  · have hrun := (RunState.Contained.start ⟨sys.name, delta, s.frame, sys.access⟩ sys.query
      (.empty s.nextBuffer) [] w).run hn sys.body
    have hworld : (s.runSystem w delta i).2.2 = (sys.body.run ⟨sys.name, delta, s.frame, sys.access⟩
        ⟨sys.query, [], .empty s.nextBuffer, []⟩ w).2.2 := by
      simp only [runSystem, hsys, heligible, if_true]
    constructor
    · rw [hworld]
      exact hrun.sameRows
    · intro r id hid
      have hmask := hrun.unwritten (fun t => !sys.access.canWrite t) fun t ht => by
        rw [ht, Bool.not_true]
      rw [hworld]
      exact (Agree.of_mask hmask).values r id (by rw [hid, Bool.not_false])
    · rw [hworld]
      exact hrun.unmatched
  · have hworld : (s.runSystem w delta i).2.2 = w := by
      simp only [runSystem, hsys, heligible, Bool.false_eq_true, if_false]
    refine ⟨?_, fun _ _ _ => by rw [hworld], fun _ _ _ => by rw [hworld]⟩
    rw [hworld]
    exact .refl w

theorem runSystem_agree (hsys : s.systems[i]? = some sys) (hwv : Agree sys.access.canRead w v)
    (delta : UInt32) : (s.runSystem w delta i).1 = (s.runSystem v delta i).1 ∧
      (s.runSystem w delta i).2.1 = (s.runSystem v delta i).2.1 ∧
      Agree sys.access.canRead (s.runSystem w delta i).2.2 (s.runSystem v delta i).2.2 := by
  simp only [runSystem, hsys]
  split
  · obtain ⟨hend, hworld⟩ := Action.run_respects ⟨sys.name, delta, s.frame, sys.access⟩ sys.body
      ⟨sys.query, [], .empty s.nextBuffer, []⟩ w v hwv
    obtain ⟨hresult, hstate⟩ := Prod.mk.inj hend
    simp only [hresult, hstate]
    exact ⟨trivial, trivial, hworld⟩
  · exact ⟨rfl, rfl, hwv⟩

theorem runSystem_renumber (hsys : s.systems[i]? = some sys) {f : UInt32 → UInt32}
    (hbody : Action.Alike s.nextBuffer f sys.body sys.body) (w : World) (delta : UInt32) :
    ({ s with nextBuffer := f s.nextBuffer }.runSystem w delta i).1 =
        (s.runSystem w delta i).1.map (SystemOutput.rename f) ∧
      ({ s with nextBuffer := f s.nextBuffer }.runSystem w delta i).2.2 =
        (s.runSystem w delta i).2.2 := by
  have hrun := s.runSystem_eq w delta i
  have hrun' := { s with nextBuffer := f s.nextBuffer }.runSystem_eq w delta i
  have heligible : ({ s with nextBuffer := f s.nextBuffer } : Scheduler Note).eligible =
    s.eligible := rfl
  rw [heligible] at hrun'
  simp only [hsys, Option.filter_some] at hrun hrun'
  split at hrun
  · next hnone =>
    rw [hnone] at hrun'
    rw [hrun, hrun']
    exact ⟨rfl, rfl⟩
  · next sys' hsome =>
    obtain rfl : sys = sys' := (Option.ite_none_right_eq_some.1 hsome).2 |> Option.some.inj
    have hfinish : (sys.task delta s.frame (f s.nextBuffer)).finish w =
        (((sys.task delta s.frame s.nextBuffer).finish w).1.rename f,
          ((sys.task delta s.frame s.nextBuffer).finish w).2) :=
      Task.complete_rename ⟨sys.name, delta, s.frame, sys.access⟩ hbody
        ⟨sys.query, [], .empty s.nextBuffer, []⟩ rfl [] w
    simp only [hsome, hfinish] at hrun'
    rw [hrun, hrun']
    exact ⟨Task.output?_rename f _, rfl⟩

/-- A system neither sees nor touches anything but what it declared. -/
structure Confined (s : Scheduler Note) (w v : World) (delta : UInt32) (i : Nat)
    (sys : System Note) : Prop where
  output : (s.runSystem w delta i).1 = (s.runSystem v delta i).1
  scheduler : (s.runSystem w delta i).2.1 = (s.runSystem v delta i).2.1
  values : Agree sys.access.canRead (s.runSystem w delta i).2.2 (s.runSystem v delta i).2.2
  renumbered : ∀ f : UInt32 → UInt32, Action.Alike s.nextBuffer f sys.body sys.body →
    ({ s with nextBuffer := f s.nextBuffer }.runSystem v delta i).1 =
        (s.runSystem w delta i).1.map (SystemOutput.rename f) ∧
      Agree sys.access.canRead (s.runSystem w delta i).2.2
        ({ s with nextBuffer := f s.nextBuffer }.runSystem v delta i).2.2
  first : Untouched s w delta i sys
  second : Untouched s v delta i sys

/-- In worlds that agree on what a system declared, it is confined to that. -/
theorem confined (hn : w.storage.Numbered) (hsys : s.systems[i]? = some sys)
    (hwv : Agree sys.access.canRead w v) (delta : UInt32) : Confined s w v delta i sys := by
  obtain ⟨houtput, hscheduler, hvalues⟩ := runSystem_agree hsys hwv delta
  refine ⟨houtput, hscheduler, hvalues, fun f hf => ?_, untouched hn hsys delta,
    untouched (hwv.toSameRows.numbered hn) hsys delta⟩
  obtain ⟨hrenamed, hworld⟩ := runSystem_renumber hsys hf v delta
  rw [hrenamed, hworld, houtput]
  exact ⟨rfl, hvalues⟩

def deskRow : Row := ⟨⟨0, 0⟩, ⟨3⟩, 0⟩

/-- The first copier has nothing to do with the type 2, whose values differ. -/
theorem confined_copiers :
    desk.storage.Numbered ∧ (∃ sys, copiers.systems[0]? = some sys ∧
      sys.access = ⟨[⟨3⟩], [⟨1⟩]⟩ ∧
      Agree sys.access.canRead desk (desk.rowSet deskRow ⟨2⟩ .u32 (.ofNat 4 9)).2 ∧
      Confined copiers desk (desk.rowSet deskRow ⟨2⟩ .u32 (.ofNat 4 9)).2 0 0 sys) ∧
    (desk.rowSet deskRow ⟨2⟩ .u32 (.ofNat 4 9)).2.rowPeek deskRow (Id.component ⟨2⟩) ≠
      desk.rowPeek deskRow (Id.component ⟨2⟩) := by
  have hn := underway_copiers.numbered
  have hsys : ∃ sys, copiers.systems[0]? = some sys :=
    Option.isSome_iff_exists.1 (by decide +kernel)
  obtain ⟨sys, hsys⟩ := hsys
  have haccess : copiers.systems[0]?.map System.access = some ⟨[⟨3⟩], [⟨1⟩]⟩ := by decide +kernel
  rw [hsys, Option.map_some, Option.some_inj] at haccess
  have hagree : Agree sys.access.canRead desk (desk.rowSet deskRow ⟨2⟩ .u32 (.ofNat 4 9)).2 :=
    (Agree.of_mask (mask_rowSet hn (by rw [haccess]; decide) deskRow .u32 (.ofNat 4 9))).symm
  exact ⟨hn, ⟨sys, hsys, haccess, hagree, confined hn hsys hagree 0⟩, by decide +kernel⟩

end Scheduler
end EntityWorld
