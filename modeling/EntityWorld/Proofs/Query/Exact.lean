import EntityWorld.Proofs.Query.Rows
set_option autoImplicit false

/-!
What a query hands out, however it was used before and whatever has happened to the world. As long
as all targets are alive, it is each entity that satisfies the terms, once and in order.
-/
namespace EntityWorld.Query

variable {w : World} {source : TermList} {q : Query} {e : Entity} {t : Term}

/-- The rows of the query are of the entities that satisfy all terms. -/
def Selects (source : TermList) (w : World) (q : Query) : Prop :=
  ∀ e, (∃ r ∈ (q.rows w).2, r.entity = e) ↔ w.isAlive e = true ∧ ∀ t ∈ source, w.Meets e t

structure Exact (source : TermList) (w : World) (q : Query) : Prop where
  selects : Selects source w q
  once : ((q.rows w).2.map Row.entity).Nodup
  placed : ∀ r ∈ (q.rows w).2, w.location? r.entity = some ⟨r.archetype, r.row⟩
  ordered : (q.rows w).2.Pairwise fun r s =>
    r.archetype.raw < s.archetype.raw ∨ r.archetype = s.archetype ∧ r.row < s.row
  counted : (q.count w).2 = (q.rows w).2.length
  /-- At every point of an iteration, the rows so far are followed by as many as the cursor says. -/
  walked : ∀ rs c, Cursor.Walks w (q.start w).2 rs c → ∃ more, (q.rows w).2 = rs ++ more ∧
    c.remaining w = more.length ∧ (c.next w = none ↔ more = [])
  finished : ∃ c, Cursor.Walks w (q.start w).2 (q.rows w).2 c

theorem Current.walked (h : Current source w q) (hw : w.WellFormed) {rs : List Row} {c : Cursor}
    (hwalk : Cursor.Walks w (q.start w).2 rs c) : ∃ more, (q.rows w).2 = rs ++ more ∧
      c.remaining w = more.length ∧ (c.next w = none ↔ more = []) := by
  obtain ⟨hrest, hvalid⟩ := hwalk.rest (h.valid_start hw)
  rw [start_rest] at hrest
  exact ⟨c.rest w, hrest, c.remaining_eq w, hvalid.next_eq_none_iff⟩

theorem Follows.selects (h : Follows source w q) (halive : ∀ t ∈ source, w.TargetAlive t.id) :
    Selects source w q := by
  have hw := h.reachable.wellFormed
  have hlost : q.targetLost w = false := by
    rw [← Bool.not_eq_true, targetLost_iff h.current.terms]
    intro hex
    obtain ⟨t, ht, -, hdead⟩ := hex
    exact hdead (halive t ht)
  intro e
  rw [h.current.exists_row_iff hw h.fits, hlost]
  refine (and_iff_right rfl).trans (and_congr_right fun _ => forall₂_congr fun t ht => ?_)
  have hslot := hw.meetsSlot_iff (e := e) h.reachable.fits fun _ => halive t ht
  exact hslot.trans (and_iff_left fun _ hdead => absurd (halive t ht) hdead)

/-- A query whose targets are alive is exact. -/
theorem Follows.exact_of_alive (h : Follows source w q)
    (halive : ∀ t ∈ source, w.TargetAlive t.id) : Exact source w q := by
  have hw := h.reachable.wellFormed
  refine ⟨h.selects halive, h.current.nodup_rows hw, fun r hr => ?_, h.current.pairwise_rows hw,
    count_eq q w, fun rs c => h.current.walked hw, ?_⟩
  · obtain ⟨-, a, hs, -⟩ := (h.current.mem_rows hw).1 hr
    exact hs.location
  · obtain ⟨c, hc⟩ := Cursor.Walks.here.finish (h.current.valid_start hw)
    exact ⟨c, hc⟩

/-- Who likes 0 and is not a child of 1. -/
def fans : TermList := [Term.pair ⟨1⟩ ⟨0, 0⟩, Term.withoutPair ⟨0⟩ (.entity ⟨1, 0⟩)]

/-- The query is counted, and then entity 1 comes to like 0, in a new table. -/
theorem exact_fans :
    Follows fans (World.family.run [.addPair ⟨1, 0⟩ ⟨1⟩ ⟨0, 0⟩])
      (Query.use ⟨fans.map Term.compiled, fans, [], 0⟩ World.family .count) ∧
    (∀ t ∈ fans, (World.family.run [.addPair ⟨1, 0⟩ ⟨1⟩ ⟨0, 0⟩]).TargetAlive t.id) ∧
    Exact fans (World.family.run [.addPair ⟨1, 0⟩ ⟨1⟩ ⟨0, 0⟩])
      (Query.use ⟨fans.map Term.compiled, fans, [], 0⟩ World.family .count) := by
  have hcompiled : Follows fans World.family ⟨fans.map Term.compiled, fans, [], 0⟩ :=
    .compile World.reachable_family (by decide +kernel)
  have hlater : Follows fans (World.family.run [.addPair ⟨1, 0⟩ ⟨1⟩ ⟨0, 0⟩]) _ :=
    (hcompiled.use .count).run (by simp) (by decide +kernel)
  have halive : ∀ t ∈ fans, (World.family.run [.addPair ⟨1, 0⟩ ⟨1⟩ ⟨0, 0⟩]).TargetAlive t.id := by
    intro t ht x hx
    simp only [fans, List.mem_cons, List.not_mem_nil, or_false] at ht
    obtain rfl | rfl := ht
    · cases hx
      decide +kernel
    · cases hx
      decide +kernel
  exact ⟨hlater, halive, hlater.exact_of_alive halive⟩

/-! ### Targets that have died -/

/-- With a required target lost there are no rows, as the terms say. With excluded targets lost, the
rows are those that the terms say if nobody whom they select has a pair on such a slot. -/
theorem Follows.selects_iff (h : Follows source w q) :
    (∀ relation x access, ⟨.pair relation (.entity x), .required, access⟩ ∈ source →
      w.isAlive x = false → (q.rows w).2 = []) ∧
    (Selects source w q ↔ ∀ relation x access,
      ⟨.pair relation (.entity x), .excluded, access⟩ ∈ source → w.isAlive x = false →
      ∀ e, (∀ t ∈ source, w.Meets e t) → ¬ w.Carries e (Id.pair relation x)) := by
  have hw := h.reachable.wellFormed
  have hf := h.reachable.fits
  have hlost_iff := targetLost_iff (w := w) h.current.terms
  refine ⟨fun relation x access hmem hdead => ?_, ?_⟩
  · have hlost : q.targetLost w = true :=
      hlost_iff.2 ⟨_, hmem, rfl, World.not_targetAlive_iff.2 ⟨relation, x, rfl, hdead⟩⟩
    rw [rows_eq, tables_of_lost hlost, List.flatMap_nil]
  have hrow : ∀ e, _ := fun e => h.current.exists_row_iff (e := e) hw h.fits
  cases hlost : q.targetLost w with
  | true =>
    -- nobody meets the terms, and there are no rows
    obtain ⟨t, ht, hr, hdead⟩ := hlost_iff.1 hlost
    have hnobody : ∀ e, ¬ ∀ t ∈ source, w.Meets e t := by
      intro e hmeets
      have hshows := hmeets t ht
      rw [World.Meets, hr] at hshows
      exact hdead ((hw.shows_iff hf).1 hshows).1
    refine ⟨fun _ _ _ _ _ _ e hmeets => absurd hmeets (hnobody e), fun _ e => ?_⟩
    rw [hrow e, hlost]
    simp [hnobody e]
  | false =>
    have hslot : ∀ e, ∀ t ∈ source, _ := fun e t ht =>
      hw.meetsSlot_iff (e := e) (t := t) hf fun hr => by
        by_contra hdead
        rw [hlost_iff.2 ⟨t, ht, hr, hdead⟩] at hlost
        cases hlost
    constructor
    · intro hselects relation x access hmem hdead e hmeets hc
      obtain ⟨-, -, hslots⟩ := (hrow e).1 ((hselects e).2 ⟨hc.isAlive, hmeets⟩)
      exact hslots _ hmem hc
    · intro hno e
      rw [hrow e, hlost]
      refine (and_iff_right rfl).trans (and_congr_right fun _ => ⟨fun hslots t ht => ?_,
        fun hmeets t ht => ?_⟩)
      · exact ((hslot e t ht).1 (hslots t ht)).1
      · refine (hslot e t ht).2 ⟨hmeets t ht, fun hr hdead hshows => ?_⟩
        obtain ⟨relation, x, hid, hx⟩ := World.not_targetAlive_iff.1 hdead
        obtain ⟨id, role, access⟩ := t
        subst hid hr
        exact hno relation x access ht hx e hmeets hshows

def couple : World :=
  World.new.run [.registerType ((TypeDescription.tag "Game.Likes").relationship .remove),
    .spawn, .spawn]

/-- Entity 1 has died, and entity 0 likes the next one in its slot. -/
def widowed : World := couple.run [.despawn ⟨1, 0⟩, .spawn, .addPair ⟨0, 0⟩ ⟨1⟩ ⟨1, 1⟩]

def indifferent : TermList := [Term.withoutPair ⟨1⟩ (.entity ⟨1, 0⟩)]

theorem follows_widowed :
    Follows indifferent widowed ⟨indifferent.map Term.compiled, indifferent, [], 0⟩ := by
  have hcouple : couple.Reachable := World.Reachable.new.run (by decide +kernel)
  have hcompiled : Follows indifferent couple
      ⟨indifferent.map Term.compiled, indifferent, [], 0⟩ := .compile hcouple (by decide +kernel)
  exact hcompiled.run (by simp) (by decide +kernel)

theorem selects_iff_widowed :
    Follows indifferent widowed ⟨indifferent.map Term.compiled, indifferent, [], 0⟩ ∧
    (Selects indifferent widowed ⟨indifferent.map Term.compiled, indifferent, [], 0⟩ ↔
      ∀ relation x access, ⟨.pair relation (.entity x), .excluded, access⟩ ∈ indifferent →
        widowed.isAlive x = false → ∀ e, (∀ t ∈ indifferent, widowed.Meets e t) →
        ¬ widowed.Carries e (Id.pair relation x)) :=
  ⟨follows_widowed, follows_widowed.selects_iff.2⟩

/-- Nobody likes the dead entity 1, and yet 0 is left out. -/
theorem widowed_not_selects :
    Follows indifferent widowed ⟨indifferent.map Term.compiled, indifferent, [], 0⟩ ∧
    widowed.isAlive ⟨1, 0⟩ = false ∧ widowed.isAlive ⟨0, 0⟩ = true ∧
    (∀ t ∈ indifferent, widowed.Meets ⟨0, 0⟩ t) ∧
    (Query.rows ⟨indifferent.map Term.compiled, indifferent, [], 0⟩ widowed).2 =
      [⟨⟨1, 1⟩, ⟨0⟩, 0⟩] ∧
    ¬ Selects indifferent widowed ⟨indifferent.map Term.compiled, indifferent, [], 0⟩ := by
  have halive : widowed.isAlive ⟨0, 0⟩ = true := by decide +kernel
  have hmeets : ∀ t ∈ indifferent, widowed.Meets ⟨0, 0⟩ t := by
    intro t ht
    cases List.mem_singleton.1 ht
    have hno : widowed.hasPair ⟨0, 0⟩ ⟨1⟩ ⟨1, 0⟩ = false := by decide +kernel
    exact fun hshows => absurd (hno.symm.trans hshows) Bool.false_ne_true
  have hrows : (Query.rows ⟨indifferent.map Term.compiled, indifferent, [], 0⟩ widowed).2 =
      [⟨⟨1, 1⟩, ⟨0⟩, 0⟩] := by decide +kernel
  refine ⟨follows_widowed, by decide +kernel, halive, hmeets, hrows, fun h => ?_⟩
  obtain ⟨r, hr, he⟩ := (h ⟨0, 0⟩).2 ⟨halive, hmeets⟩
  rw [hrows, List.mem_singleton] at hr
  rw [hr] at he
  exact absurd he (by decide)

end EntityWorld.Query
