import EntityWorld.Proofs.Schedule.Plan
import EntityWorld.Schedule.Scheduler
set_option autoImplicit false

/-!
Which systems are accepted. A system can be registered exactly if what it asks for can be had: a
phase, something to do, systems to stand before and after that are there and in phases that allow
it, terms that compile, and constraints that make no cycle.
-/
namespace EntityWorld

variable {Note : Type}

def SystemBuilder.made (b : SystemBuilder Note) (h : SystemHandle) (body : SystemBody Note)
    (query : Query) : System Note where
  handle := h
  name := b.name
  query := query
  access := .ofTerms b.terms
  phase := b.phase
  after := b.after
  before := b.before
  parallelSafe := b.parallelSafe
  runWhenPaused := b.runWhenPaused
  enabled := true
  body := body

def SystemBuilder.constraints (b : SystemBuilder Note) (h : SystemHandle) : Constraints :=
  ⟨h, b.phase, b.after, b.before⟩

namespace Pipeline

variable {p : Pipeline} {phase : Phase}

def Earlier (p : Pipeline) (first second : Phase) : Prop :=
  ∃ m n, p.rank? first = some m ∧ p.rank? second = some n ∧ m < n

theorem exists_rank?_iff : (∃ n, p.rank? phase = some n) ↔ p.contains phase = true := by
  unfold rank? contains
  by_cases hstart : phase = Phase.onStart
  · simp [hstart]
  · rw [if_neg hstart, ← Option.isSome_iff_exists, Option.isSome_map, List.isSome_idxOf?]
    simp [hstart]

end Pipeline

namespace Scheduler

variable {s : Scheduler Note} {w : World} {b : SystemBuilder Note} {sys : System Note}
  {hs : List SystemHandle} {h : SystemHandle} {rank : Nat}

theorem prepare_eq_ok_iff : s.prepare w b = .ok sys ↔ ∃ rank body query,
    s.pipeline.rank? b.phase = some rank ∧ b.body = some body ∧
    s.unknown? (b.after ++ b.before) = none ∧ s.misplaced? (later rank) b.after = none ∧
    s.misplaced? (earlier rank) b.before = none ∧ Query.compile w b.terms = .ok query ∧
    sys = b.made ⟨s.nextHandle⟩ body query := by
  unfold prepare
  constructor
  · intro h
    split at h
    · cases h
    next rank hrank =>
    split at h
    · cases h
    next body hbody =>
    split at h
    · cases h
    next hunknown =>
    split at h
    · cases h
    next hafter =>
    split at h
    · cases h
    next hbefore =>
    split at h
    · cases h
    next query hquery =>
    cases h
    exact ⟨rank, body, query, hrank, hbody, hunknown, hafter, hbefore, hquery, rfl⟩
  · intro h
    obtain ⟨rank, body, query, hrank, hbody, hunknown, hafter, hbefore, hquery, rfl⟩ := h
    simp only [hrank, hbody, hunknown, hafter, hbefore, hquery]
    rfl

theorem unknown?_eq_none_iff : s.unknown? hs = none ↔ ∀ h ∈ hs, ∃ sys, s.find? h = some sys := by
  simp [unknown?, List.find?_eq_none, Option.ne_none_iff_exists']

theorem misplaced?_eq_none_iff {misplaced : Option Nat → Bool}
    (hknown : ∀ h ∈ hs, ∃ sys, s.find? h = some sys) : s.misplaced? misplaced hs = none ↔
      ∀ h ∈ hs, ∀ sys, s.find? h = some sys → misplaced (s.pipeline.rank? sys.phase) = false := by
  have hrank {h : SystemHandle} {sys : System Note} (hsys : s.find? h = some sys) :
      s.rankOf h = s.pipeline.rank? sys.phase := by
    rw [rankOf, hsys]
  unfold misplaced?
  cases hfind : hs.find? fun h => misplaced (s.rankOf h) with
  | none =>
    refine iff_of_true rfl fun h hh sys hsys => ?_
    rw [← hrank hsys, ← Bool.not_eq_true]
    exact List.find?_eq_none.1 hfind h hh
  | some h =>
    obtain ⟨sys, hsys⟩ := hknown h (List.mem_of_find?_eq_some hfind)
    refine iff_of_false ?_ fun hall => ?_
    · simp only [hsys]
      exact nofun
    · have hbad := List.find?_some hfind
      rw [hrank hsys, hall h (List.mem_of_find?_eq_some hfind) sys hsys] at hbad
      cases hbad

/-- What the builder asks for can be had. -/
structure Satisfiable (s : Scheduler Note) (w : World) (b : SystemBuilder Note) : Prop where
  phase : s.pipeline.contains b.phase = true
  callback : b.body ≠ none
  known : ∀ h ∈ b.after ++ b.before, ∃ sys, s.find? h = some sys
  after : ∀ h ∈ b.after, ∀ sys, s.find? h = some sys → ¬ s.pipeline.Earlier b.phase sys.phase
  before : ∀ h ∈ b.before, ∀ sys, s.find? h = some sys → ¬ s.pipeline.Earlier sys.phase b.phase
  terms : ∃ query, Query.compile w b.terms = .ok query
  acyclic : Constraints.Acyclic
    (s.systems.map System.constraints ++ [b.constraints ⟨s.nextHandle⟩]) b.phase

theorem later_eq_false_iff {phase other : Phase} {n : Nat}
    (hrank : s.pipeline.rank? phase = some n) :
    later n (s.pipeline.rank? other) = false ↔ ¬ s.pipeline.Earlier phase other := by
  cases hother : s.pipeline.rank? other with
  | none => simp [later, Pipeline.Earlier, hother]
  | some m => simp [later, Pipeline.Earlier, hother, hrank]

theorem earlier_eq_false_iff {phase other : Phase} {n : Nat}
    (hrank : s.pipeline.rank? phase = some n) (hplaced : s.pipeline.contains other = true) :
    earlier n (s.pipeline.rank? other) = false ↔ ¬ s.pipeline.Earlier other phase := by
  obtain ⟨m, hother⟩ := Pipeline.exists_rank?_iff.2 hplaced
  simp [earlier, Pipeline.Earlier, hother, hrank]

def withSystem (s : Scheduler Note) (sys : System Note) (plan : PhasePlan) : Scheduler Note :=
  { s with
    systems := s.systems ++ [sys]
    plans := s.plans.insert sys.phase plan
    nextHandle := s.nextHandle + 1 }

/-- A registration fails and changes nothing, or its system and the new plan of the phase are put
in. -/
theorem register_cases (s : Scheduler Note) (w : World) (b : SystemBuilder Note) :
    (∃ e, s.register w b = (.error e, s) ∧ ∀ sys plan, s.prepare w b = .ok sys →
      PhasePlan.build (s.systems ++ [sys]) s.config.parallel sys.phase ≠ .ok plan) ∨
    ∃ sys plan, s.prepare w b = .ok sys ∧
      PhasePlan.build (s.systems ++ [sys]) s.config.parallel sys.phase = .ok plan ∧
      s.register w b = (.ok sys.handle, s.withSystem sys plan) := by
  unfold register
  cases hprepare : s.prepare w b with
  | error e => exact .inl ⟨e, rfl, nofun⟩
  | ok sys =>
    cases hbuild : PhasePlan.build (s.systems ++ [sys]) s.config.parallel sys.phase with
    | error e =>
      refine .inl ⟨e, by simp only [hbuild], fun sys' plan hsys hplan => ?_⟩
      cases hsys
      rw [hbuild] at hplan
      cases hplan
    | ok plan => exact .inr ⟨sys, plan, rfl, hbuild, by simp only [hbuild]; rfl⟩

theorem register_eq_ok_iff (hplaced : ∀ sys ∈ s.systems, s.pipeline.contains sys.phase = true) :
    (∃ x, (s.register w b).1 = .ok x) ↔ Satisfiable s w b := by
  have hof {h : SystemHandle} {other : System Note} (hother : s.find? h = some other) :
      s.pipeline.contains other.phase = true := hplaced other (List.mem_of_find?_eq_some hother)
  have hgraph {body : SystemBody Note} {query : Query} :
      (s.systems ++ [b.made ⟨s.nextHandle⟩ body query]).map System.constraints =
        s.systems.map System.constraints ++ [b.constraints ⟨s.nextHandle⟩] := List.map_append
  constructor
  · intro hx
    obtain ⟨x, hx⟩ := hx
    obtain ⟨e, he, -⟩ | ⟨sys, plan, hprepare, hbuild, -⟩ := s.register_cases w b
    · rw [he] at hx
      cases hx
    obtain ⟨rank, body, query, hrank, hbody, hunknown, hafter, hbefore, hquery, rfl⟩ :=
      prepare_eq_ok_iff.1 hprepare
    have hknown := unknown?_eq_none_iff.1 hunknown
    rw [misplaced?_eq_none_iff fun h hh => hknown h (List.mem_append_left _ hh)] at hafter
    rw [misplaced?_eq_none_iff fun h hh => hknown h (List.mem_append_right _ hh)] at hbefore
    refine ⟨Pipeline.exists_rank?_iff.1 ⟨rank, hrank⟩, by rw [hbody]; exact nofun, hknown,
      fun h hh sys hsys => (later_eq_false_iff hrank).1 (hafter h hh sys hsys),
      fun h hh sys hsys => (earlier_eq_false_iff hrank (hof hsys)).1 (hbefore h hh sys hsys),
      ⟨query, hquery⟩, ?_⟩
    rw [← hgraph]
    exact (PhasePlan.build_eq_ok hbuild).1
  · intro h
    obtain ⟨rank, hrank⟩ := Pipeline.exists_rank?_iff.2 h.phase
    obtain ⟨body, hbody⟩ := Option.ne_none_iff_exists'.1 h.callback
    obtain ⟨query, hquery⟩ := h.terms
    have hprepare : s.prepare w b = .ok (b.made ⟨s.nextHandle⟩ body query) := by
      refine prepare_eq_ok_iff.2 ⟨rank, body, query, hrank, hbody,
        unknown?_eq_none_iff.2 h.known, ?_, ?_, hquery, rfl⟩
      · rw [misplaced?_eq_none_iff fun h' hh => h.known h' (List.mem_append_left _ hh)]
        exact fun h' hh sys hsys => (later_eq_false_iff hrank).2 (h.after h' hh sys hsys)
      · rw [misplaced?_eq_none_iff fun h' hh => h.known h' (List.mem_append_right _ hh)]
        exact fun h' hh sys hsys =>
          (earlier_eq_false_iff hrank (hof hsys)).2 (h.before h' hh sys hsys)
    obtain ⟨plan, hplan⟩ := PhasePlan.exists_build_iff.2 (hgraph ▸ h.acyclic)
    obtain ⟨e, -, hnone⟩ | ⟨sys, plan, -, -, hok⟩ := s.register_cases w b
    · exact absurd hplan (hnone _ plan hprepare)
    · exact ⟨sys.handle, by rw [hok]⟩

end Scheduler
end EntityWorld
