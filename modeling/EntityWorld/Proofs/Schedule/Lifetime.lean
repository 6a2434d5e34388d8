import EntityWorld.Proofs.Schedule.Frame
set_option autoImplicit false

/-!
The order of phases over the life of a scheduler. A constraint between systems of two phases is
looked at once, when it is recorded. It is kept nevertheless, since a phase that is put in later
moves other phases but never past each other.
-/
namespace EntityWorld

variable {Note : Type}

/-- Where a position goes when one is put in at `k`. -/
def shift (k n : Nat) : Nat := if n < k then n else n + 1

theorem shift_lt_iff {k m n : Nat} : shift k m < shift k n ↔ m < n := by
  unfold shift
  split <;> split <;> omega

theorem idxOf?_insertIdx {α : Type} [DecidableEq α] {x new : α} (hne : new ≠ x) (l : List α)
    (k : Nat) : (l.insertIdx k new).idxOf? x = (l.idxOf? x).map (shift k) := by
  induction l generalizing k with
  | nil => cases k <;> simp [List.idxOf?_cons, hne]
  | cons a l ih =>
    cases k with
    | zero =>
      rw [List.insertIdx_zero, List.idxOf?_cons, beq_eq_false_iff_ne.2 hne]
      rfl
    | succ k =>
      rw [List.insertIdx_succ_cons, List.idxOf?_cons, List.idxOf?_cons, ih]
      split
      · rfl
      · rw [Option.map_map, Option.map_map]
        refine congrArg (Option.map · (l.idxOf? x)) (funext fun n => ?_)
        simp only [Function.comp_apply, shift]
        split <;> split <;> omega

theorem idxOf?_getElem {α : Type} [DecidableEq α] {l : List α} (h : l.Nodup) {i : Nat}
    (hi : i < l.length) : l.idxOf? l[i] = some i :=
  List.idxOf?_eq_some_iff.2 ⟨hi, rfl, fun _ hj heq => Nat.ne_of_lt hj (h.getElem_inj_iff.1 heq)⟩

namespace Pipeline

variable {p q : Pipeline} {anchor new first second : Phase}

theorem not_earlier_self (p : Pipeline) (phase : Phase) : ¬ p.Earlier phase phase := by
  intro h
  obtain ⟨m, n, hm, hn, hlt⟩ := h
  cases hm.symm.trans hn
  exact Nat.lt_irrefl m hlt

def order (p : Pipeline) : List Phase := .onStart :: p.phases

theorem rank?_eq (p : Pipeline) (phase : Phase) : p.rank? phase = p.order.idxOf? phase := by
  rw [rank?, order, List.idxOf?_cons]
  by_cases hstart : phase = Phase.onStart
  · rw [if_pos hstart, hstart, beq_self_eq_true, if_pos rfl]
  · rw [if_neg hstart, beq_eq_false_iff_ne.2 (Ne.symm hstart), if_neg Bool.false_ne_true]

theorem contains_iff : p.contains new = true ↔ new ∈ p.order := by
  rw [contains, order, Bool.or_eq_true, beq_iff_eq, List.contains_iff_mem, List.mem_cons]

theorem insertAfter?_cases (hq : p.insertAfter? anchor new = some q) :
    (p.contains new = true ∧ q = p) ∨
      (p.contains new = false ∧ ∃ k ≤ p.order.length, q.order = p.order.insertIdx k new) := by
  unfold insertAfter? at hq
  split at hq
  · next hnew => exact .inl ⟨hnew, (Option.some.inj hq).symm⟩
  · next hnew =>
    obtain ⟨i, hi, rfl⟩ := Option.map_eq_some_iff.1 hq
    have hlt : i < p.phases.length := (List.idxOf?_eq_some_iff.1 hi).1
    refine .inr ⟨Bool.eq_false_iff.2 hnew, i + 2, ?_, List.insertIdx_succ_cons.symm⟩
    rw [order, List.length_cons]
    omega

theorem earlier_insertAfter? (hq : p.insertAfter? anchor new = some q)
    (hfirst : p.contains first = true) (hsecond : p.contains second = true) :
    q.Earlier first second ↔ p.Earlier first second := by
  obtain ⟨-, rfl⟩ | ⟨hnew, k, -, horder⟩ := insertAfter?_cases hq
  · exact Iff.rfl
  · have hrank {phase : Phase} (hphase : p.contains phase = true) :
        q.rank? phase = (p.rank? phase).map (shift k) := by
      have hne : new ≠ phase := fun heq => Bool.eq_false_iff.1 hnew (heq ▸ hphase)
      rw [rank?_eq, rank?_eq, horder, idxOf?_insertIdx hne]
    obtain ⟨m, hm⟩ := exists_rank?_iff.2 hfirst
    obtain ⟨n, hn⟩ := exists_rank?_iff.2 hsecond
    simp [Earlier, hrank hfirst, hrank hsecond, hm, hn, shift_lt_iff]

/-- Pipelines that can be made. -/
inductive Built : Pipeline → Prop where
  | standard : Built .standard
  | insertAfter {p q : Pipeline} (anchor new : Phase) (h : Built p)
      (hq : p.insertAfter? anchor new = some q) : Built q

theorem Built.nodup (h : p.Built) : p.order.Nodup := by
  induction h with
  | standard => decide
  | insertAfter anchor new _ hq ih =>
    obtain ⟨-, rfl⟩ | ⟨hnew, k, hk, horder⟩ := insertAfter?_cases hq
    · exact ih
    · rw [horder, (List.perm_insertIdx new _ hk).nodup_iff]
      exact List.nodup_cons.2 ⟨fun hmem => Bool.eq_false_iff.1 hnew (contains_iff.2 hmem), ih⟩

theorem Built.pairwise (h : p.Built) : p.order.Pairwise p.Earlier := by
  refine List.pairwise_iff_getElem.2 fun i j hi hj hij => ⟨i, j, ?_, ?_, hij⟩
  · rw [rank?_eq, idxOf?_getElem h.nodup]
  · rw [rank?_eq, idxOf?_getElem h.nodup]

end Pipeline

/-! ### Constraints across phases -/

namespace Constraints

variable {nodes : List Constraints} {p q : Pipeline} {h gone : SystemHandle} {c : Constraints}
  {ok ok' : Phase → Prop} {k : Nat}

/-- The system with the handle is there, in a phase that will do. -/
def Stands (nodes : List Constraints) (ok : Phase → Prop) (h : SystemHandle) : Prop :=
  ∃ d, nodes.find? (fun d => d.handle == h) = some d ∧ ok d.phase

theorem Stands.imp (hstands : Stands nodes ok h) (himp : ∀ d ∈ nodes, ok d.phase → ok' d.phase) :
    Stands nodes ok' h := by
  obtain ⟨d, hd, hok⟩ := hstands
  exact ⟨d, hd, himp d (List.mem_of_find?_eq_some hd) hok⟩

theorem Stands.concat (hstands : Stands nodes ok h) (c : Constraints) :
    Stands (nodes ++ [c]) ok h := by
  obtain ⟨d, hd, hok⟩ := hstands
  exact ⟨d, by rw [List.find?_append, hd, Option.some_or], hok⟩

theorem find?_eraseIdx {α : Type} {f : α → Bool} {l : List α} {k : Nat}
    (hk : ∀ x, l[k]? = some x → f x = false) : (l.eraseIdx k).find? f = l.find? f := by
  induction l generalizing k with
  | nil => rfl
  | cons x l ih =>
    cases k with
    | zero => rw [List.eraseIdx_zero, List.tail_cons, List.find?_cons, hk x rfl]
    | succ k =>
      rw [List.eraseIdx_cons_succ, List.find?_cons, List.find?_cons, ih hk]

theorem Stands.release (hstands : Stands nodes ok h)
    (hk : ∀ c, nodes[k]? = some c → c.handle = gone) (hne : h ≠ gone) :
    Stands ((nodes.eraseIdx k).map (release gone)) ok h := by
  obtain ⟨d, hd, hok⟩ := hstands
  refine ⟨d.release gone, ?_, hok⟩
  have hkept : (nodes.eraseIdx k).find? (fun d => d.handle == h) = some d := by
    refine (find?_eraseIdx fun c hc => ?_).trans hd
    rw [hk c hc]
    exact beq_eq_false_iff_ne.2 (Ne.symm hne)
  rw [List.find?_map]
  exact congrArg (Option.map (Constraints.release gone)) hkept

structure Ranked (p : Pipeline) (nodes : List Constraints) : Prop where
  after : ∀ c ∈ nodes, ∀ h ∈ c.after, Stands nodes (fun phase => ¬ p.Earlier c.phase phase) h
  before : ∀ c ∈ nodes, ∀ h ∈ c.before, Stands nodes (fun phase => ¬ p.Earlier phase c.phase) h

theorem Ranked.concat (hr : Ranked p nodes)
    (hafter : ∀ h ∈ c.after, Stands nodes (fun phase => ¬ p.Earlier c.phase phase) h)
    (hbefore : ∀ h ∈ c.before, Stands nodes (fun phase => ¬ p.Earlier phase c.phase) h) :
    Ranked p (nodes ++ [c]) := by
  constructor
  · intro d hd h hh
    obtain hd | hd := List.mem_append.1 hd
    · exact (hr.after d hd h hh).concat c
    · cases List.mem_singleton.1 hd
      exact (hafter h hh).concat c
  · intro d hd h hh
    obtain hd | hd := List.mem_append.1 hd
    · exact (hr.before d hd h hh).concat c
    · cases List.mem_singleton.1 hd
      exact (hbefore h hh).concat c

theorem Ranked.release (hr : Ranked p nodes) (hk : ∀ c, nodes[k]? = some c → c.handle = gone) :
    Ranked p ((nodes.eraseIdx k).map (release gone)) := by
  constructor
  · intro c hc h hh
    obtain ⟨old, hold, rfl⟩ := List.mem_map.1 hc
    obtain ⟨hh, hne⟩ := List.mem_filter.1 hh
    exact (hr.after old (List.mem_of_mem_eraseIdx hold) h hh).release hk (of_decide_eq_true hne)
  · intro c hc h hh
    obtain ⟨old, hold, rfl⟩ := List.mem_map.1 hc
    obtain ⟨hh, hne⟩ := List.mem_filter.1 hh
    exact (hr.before old (List.mem_of_mem_eraseIdx hold) h hh).release hk (of_decide_eq_true hne)

/-- A system keeps a record that the first one of two comes before the second one. -/
def Recorded (nodes : List Constraints) (rule : SystemHandle × SystemHandle) : Prop :=
  (∃ c ∈ nodes, c.handle = rule.2 ∧ rule.1 ∈ c.after) ∨
    ∃ c ∈ nodes, c.handle = rule.1 ∧ rule.2 ∈ c.before

theorem Recorded.mono {nodes' : List Constraints} {rule : SystemHandle × SystemHandle}
    (hrec : Recorded nodes rule) (hsub : nodes ⊆ nodes') : Recorded nodes' rule :=
  hrec.imp (fun ⟨c, hc, hrest⟩ => ⟨c, hsub hc, hrest⟩) fun ⟨c, hc, hrest⟩ => ⟨c, hsub hc, hrest⟩

theorem Recorded.release {rule : SystemHandle × SystemHandle} (hrec : Recorded nodes rule)
    (hk : ∀ c, nodes[k]? = some c → c.handle = gone) (hfirst : rule.1 ≠ gone)
    (hsecond : rule.2 ≠ gone) : Recorded ((nodes.eraseIdx k).map (release gone)) rule := by
  have hmem {c : Constraints} (hc : c ∈ nodes) (hne : c.handle ≠ gone) :
      c.release gone ∈ (nodes.eraseIdx k).map (Constraints.release gone) := by
    obtain ⟨i, hi⟩ := List.mem_iff_getElem?.1 hc
    have hik : i ≠ k := fun heq => hne (hk c (heq ▸ hi))
    exact List.mem_map_of_mem (List.mem_eraseIdx_iff_getElem?.2 ⟨i, hik, hi⟩)
  obtain ⟨c, hc, hhandle, hin⟩ | ⟨c, hc, hhandle, hin⟩ := hrec
  · exact .inl ⟨_, hmem hc (hhandle ▸ hsecond), hhandle,
      List.mem_filter.2 ⟨hin, decide_eq_true hfirst⟩⟩
  · exact .inr ⟨_, hmem hc (hhandle ▸ hfirst), hhandle,
      List.mem_filter.2 ⟨hin, decide_eq_true hsecond⟩⟩

theorem Ranked.insertAfter? {anchor new : Phase} (hr : Ranked p nodes)
    (hplaced : ∀ c ∈ nodes, p.contains c.phase = true)
    (hq : p.insertAfter? anchor new = some q) : Ranked q nodes := by
  constructor
  · intro c hc h hh
    refine (hr.after c hc h hh).imp fun d hd => mt ?_
    exact (Pipeline.earlier_insertAfter? hq (hplaced c hc) (hplaced d hd)).1
  · intro c hc h hh
    refine (hr.before c hc h hh).imp fun d hd => mt ?_
    exact (Pipeline.earlier_insertAfter? hq (hplaced d hd) (hplaced c hc)).1

end Constraints

/-! ### Lives of schedulers -/

namespace Scheduler

variable {s : Scheduler Note} {w : World} {n : Nat} {x : SystemHandle}

theorem ran_runSystem (s : Scheduler Note) (w : World) (delta : UInt32) (i : Nat) :
    Ran s (s.runSystem w delta i).2.1 := by
  rw [runSystem_eq]
  split
  · exact .refl s
  · exact .after s i _

theorem ran_runSystems (delta : UInt32) (is : List Nat) (s : Scheduler Note) (w : World) :
    Ran s (runSystems delta s w is).2.1 := by
  induction is generalizing s w with
  | nil => exact .refl s
  | cons i rest ih => exact (s.ran_runSystem w delta i).trans (ih _ _)

theorem ran_runPhase (s : Scheduler Note) (w : World) (phase : Phase) (delta : UInt32) :
    Ran s (s.runPhase w phase delta).2.1 := by
  unfold runPhase
  split
  · exact .refl s
  · split
    · exact .refl s
    · exact ran_runSystems delta _ s w

theorem stands_iff {ok : Phase → Prop} :
    Constraints.Stands (s.systems.map System.constraints) ok x ↔
      ∃ sys, s.find? x = some sys ∧ ok sys.phase := by
  have hfind : (s.systems.map System.constraints).find? (fun c => c.handle == x) =
      (s.find? x).map System.constraints := List.find?_map
  rw [Constraints.Stands, hfind]
  constructor
  · intro hstands
    obtain ⟨d, hd, hok⟩ := hstands
    obtain ⟨sys, hsys, rfl⟩ := Option.map_eq_some_iff.1 hd
    exact ⟨sys, hsys, hok⟩
  · intro hstands
    obtain ⟨sys, hsys, hok⟩ := hstands
    exact ⟨sys.constraints, by rw [hsys, Option.map_some], hok⟩

def Call.frames : Call Note → Nat
  | .progress .. => 1
  | _ => 0

/-- The constraints between registered systems after a call, each as (earlier, later). -/
def rulesAfter (s : Scheduler Note) (rules : List (SystemHandle × SystemHandle)) :
    Call Note → List (SystemHandle × SystemHandle)
  | .register w b =>
    match (s.register w b).1 with
    | .ok x => rules ++ ((b.after.map fun y => (y, x)) ++ b.before.map fun y => (x, y))
    | .error _ => rules
  | .unregister x => rules.filter fun rule => rule.1 ≠ x ∧ rule.2 ≠ x
  | _ => rules

/-- Schedulers that calls lead to, with the number of frames and the constraints on the way. -/
inductive Lifetime : Nat → List (SystemHandle × SystemHandle) → Scheduler Note → Prop where
  | new (config : SchedulerConfig) {pipeline : Pipeline} (hp : pipeline.Built) :
      Lifetime 0 [] (.new config pipeline)
  | call {n : Nat} {rules : List (SystemHandle × SystemHandle)} {s : Scheduler Note} (c : Call Note)
      (h : Lifetime n rules s) : Lifetime (n + c.frames) (s.rulesAfter rules c) (s.call c)

def live (x : Nat × List (SystemHandle × SystemHandle) × Scheduler Note) (cs : List (Call Note)) :
    Nat × List (SystemHandle × SystemHandle) × Scheduler Note :=
  cs.foldl (fun x c => (x.1 + c.frames, x.2.2.rulesAfter x.2.1 c, x.2.2.call c)) x

theorem Lifetime.live {x : Nat × List (SystemHandle × SystemHandle) × Scheduler Note}
    (h : Lifetime x.1 x.2.1 x.2.2) (cs : List (Call Note)) :
    Lifetime (live x cs).1 (live x cs).2.1 (live x cs).2.2 := by
  induction cs generalizing x with
  | nil => exact h
  | cons c cs ih => exact ih (h.call c)

/-- What holds all along: plans are up to date, and what was recorded is kept on record and not
against the order of phases. -/
structure Kept (n : Nat) (rules : List (SystemHandle × SystemHandle)) (s : Scheduler Note) :
    Prop where
  consistent : Consistent s
  built : s.pipeline.Built
  ranked : Constraints.Ranked s.pipeline (s.systems.map System.constraints)
  recorded : ∀ rule ∈ rules, Constraints.Recorded (s.systems.map System.constraints) rule
  started : s.started = decide (n ≠ 0)

namespace Kept

variable {rules : List (SystemHandle × SystemHandle)}

theorem of_constraints (h : Kept n rules s) {s' : Scheduler Note} {m : Nat}
    (hconsistent : Consistent s') (hpipeline : s'.pipeline = s.pipeline)
    (hconstraints : s'.systems.map System.constraints = s.systems.map System.constraints)
    (hstarted : s'.started = decide (m ≠ 0)) : Kept m rules s' := by
  refine ⟨hconsistent, hpipeline ▸ h.built, ?_, ?_, hstarted⟩
  · rw [hpipeline, hconstraints]
    exact h.ranked
  · rw [hconstraints]
    exact h.recorded

theorem register (h : Kept n rules s) (w : World) (b : SystemBuilder Note) :
    Kept n (s.rulesAfter rules (.register w b)) (s.register w b).2 := by
  have hconsistent := h.consistent.register w b
  obtain ⟨e, he, -⟩ | ⟨sys, plan, hprepare, -, hok⟩ := s.register_cases w b
  · rwa [rulesAfter, he]
  · have hsat := (register_eq_ok_iff h.consistent.placed).1 ⟨sys.handle, congrArg Prod.fst hok⟩
    obtain ⟨rank, body, query, -, -, -, -, -, -, rfl⟩ := prepare_eq_ok_iff.1 hprepare
    rw [hok] at hconsistent
    rw [rulesAfter, hok]
    have hconstraints : (s.systems ++ [b.made ⟨s.nextHandle⟩ body query]).map System.constraints =
        s.systems.map System.constraints ++ [b.constraints ⟨s.nextHandle⟩] := List.map_append
    refine ⟨hconsistent, h.built, ?_, fun rule hrule => ?_, h.started⟩
    · rw [withSystem, hconstraints]
      refine h.ranked.concat (fun x hx => ?_) fun x hx => ?_
      · obtain ⟨other, hother⟩ := hsat.known x (List.mem_append_left _ hx)
        exact stands_iff.2 ⟨other, hother, hsat.after x hx other hother⟩
      · obtain ⟨other, hother⟩ := hsat.known x (List.mem_append_right _ hx)
        exact stands_iff.2 ⟨other, hother, hsat.before x hx other hother⟩
    · have hnew : b.constraints ⟨s.nextHandle⟩ ∈
          s.systems.map System.constraints ++ [b.constraints ⟨s.nextHandle⟩] :=
        List.mem_append_right _ (List.mem_singleton_self _)
      rw [withSystem, hconstraints]
      obtain hold | hrule := List.mem_append.1 hrule
      · exact (h.recorded rule hold).mono (List.subset_append_left _ _)
      · obtain hrule | hrule := List.mem_append.1 hrule
        · obtain ⟨y, hy, rfl⟩ := List.mem_map.1 hrule
          exact .inl ⟨_, hnew, rfl, hy⟩
        · obtain ⟨y, hy, rfl⟩ := List.mem_map.1 hrule
          exact .inr ⟨_, hnew, rfl, hy⟩

theorem unregister (h : Kept n rules s) (x : SystemHandle) :
    Kept n (s.rulesAfter rules (.unregister x)) (s.unregister x).2 := by
  have hconsistent := h.consistent.unregister x
  unfold Scheduler.unregister at hconsistent ⊢
  split
  · exact ⟨h.consistent, h.built, h.ranked,
      fun rule hrule => h.recorded rule (List.mem_filter.1 hrule).1, h.started⟩
  · next k hk =>
    have hgone := handle_of_findIdx? hk
    rw [hk] at hconsistent
    refine ⟨hconsistent, h.built, ?_, fun rule hrule => ?_, h.started⟩
    · rw [constraints_release]
      exact h.ranked.release hgone
    · obtain ⟨hold, hne⟩ := List.mem_filter.1 hrule
      obtain ⟨hfirst, hsecond⟩ := of_decide_eq_true hne
      rw [constraints_release]
      exact (h.recorded rule hold).release hgone hfirst hsecond

theorem insertPhaseAfter (h : Kept n rules s) (anchor new : Phase) :
    Kept n rules (s.insertPhaseAfter anchor new).2 := by
  have hconsistent := h.consistent.insertPhaseAfter anchor new
  unfold Scheduler.insertPhaseAfter at hconsistent ⊢
  split
  · next p hp =>
    rw [hp] at hconsistent
    refine ⟨hconsistent, .insertAfter anchor new h.built hp, h.ranked.insertAfter? ?_ hp,
      h.recorded, h.started⟩
    intro c hc
    obtain ⟨sys, hsys, rfl⟩ := List.mem_map.1 hc
    exact h.consistent.placed sys hsys
  · exact h

theorem setEnabled (h : Kept n rules s) (x : SystemHandle) (enabled : Bool) :
    Kept n rules (s.setEnabled x enabled).2 := by
  have hconsistent := h.consistent.like (like_setEnabled s x enabled)
  unfold Scheduler.setEnabled at hconsistent ⊢
  split
  · exact h
  · next k hk =>
    rw [hk] at hconsistent
    exact h.of_constraints hconsistent rfl (map_modify _ _ fun _ _ => rfl) h.started

theorem runPhase (h : Kept n rules s) (w : World) (phase : Phase) (delta : UInt32) :
    Kept n rules (s.runPhase w phase delta).2.1 := by
  have hran := s.ran_runPhase w phase delta
  exact h.of_constraints (h.consistent.like (like_runPhase s w phase delta)) hran.pipeline
    hran.constraints (hran.started.trans h.started)

theorem progress (h : Kept n rules s) (w : World) (delta : UInt32) :
    Kept (n + 1) rules (s.progress w delta).2.1 := by
  have hconsistent := h.consistent.like (like_progress s w delta)
  obtain ⟨reports, runs, s', v, hrun, hframed, -⟩ := exists_progress h.consistent.fresh w delta
  have hran := hframed.ran
  rw [hrun] at hconsistent ⊢
  exact h.of_constraints hconsistent hran.pipeline hran.constraints hran.started

theorem call (h : Kept n rules s) (c : Call Note) :
    Kept (n + c.frames) (s.rulesAfter rules c) (s.call c) := by
  cases c with
  | register w b => exact h.register w b
  | unregister x => exact h.unregister x
  | setEnabled x enabled => exact h.setEnabled x enabled
  | setPaused paused =>
    exact h.of_constraints (h.consistent.call (.setPaused paused)) rfl rfl h.started
  | insertPhaseAfter anchor phase => exact h.insertPhaseAfter anchor phase
  | runPhase w phase delta => exact h.runPhase w phase delta
  | progress w delta => exact h.progress w delta

end Kept

theorem Lifetime.kept {rules : List (SystemHandle × SystemHandle)} (h : Lifetime n rules s) :
    Kept n rules s := by
  induction h with
  | new config hp => exact ⟨consistent_new config _, hp, ⟨nofun, nofun⟩, nofun, rfl⟩
  | call c _ ih => exact ih.call c

end Scheduler
end EntityWorld
