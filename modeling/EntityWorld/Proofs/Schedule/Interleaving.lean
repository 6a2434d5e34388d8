import EntityWorld.Proofs.Schedule.Confined
import Mathlib.Data.List.Induction
set_option autoImplicit false

/-!
Systems on their run, one request at a time and in any order. Systems of which none writes what
another one may read do not notice each other: each of them ends as it would alone, and so does the
world, type by type.
-/
namespace EntityWorld

variable {Note : Type}

structure Observation where
  request : Request
  answer : request.Answer

/-- A system on its run: what it still has to do, what is its own, and what it has seen. -/
structure Task (Note : Type) where
  facts : SystemFacts
  program : SystemBody Note
  state : RunState Note
  seen : List Observation

namespace Task

variable {t : Task Note} {w v : World} {p : TypeHandle → Bool}

def step (t : Task Note) (w : World) : Task Note × World :=
  match t.program with
  | .done _ => (t, w)
  | .ask q next =>
    let (answer, state, w) := t.state.perform t.facts w q
    (⟨t.facts, next answer, state, t.seen ++ [⟨q, answer⟩]⟩, w)
  | .tell n next =>
    (⟨t.facts, next, { t.state with notes := t.state.notes ++ [n] }, t.seen⟩, w)

def Finished (t : Task Note) : Prop := ∃ result, t.program = .done result

instance (t : Task Note) : Decidable t.Finished :=
  match h : t.program with
  | .done result => .isTrue ⟨result, h⟩
  | .ask _ _ => .isFalse fun hf => nomatch h.symm.trans hf.choose_spec
  | .tell _ _ => .isFalse fun hf => nomatch h.symm.trans hf.choose_spec

theorem facts_step (t : Task Note) (w : World) : (t.step w).1.facts = t.facts := by
  unfold step
  split <;> rfl

theorem step_of_finished (h : t.Finished) (w : World) : t.step w = (t, w) := by
  obtain ⟨result, hdone⟩ := h
  simp only [step, hdone]

theorem step_agree (h : w.mask t.facts.access.canRead = v.mask t.facts.access.canRead) :
    (t.step w).1 = (t.step v).1 ∧
      (t.step w).2.mask t.facts.access.canRead = (t.step v).2.mask t.facts.access.canRead := by
  cases hp : t.program with
  | done result => simpa only [step, hp, true_and] using h
  | ask q next =>
    obtain ⟨hanswer, hstate, hworld⟩ := RunState.perform_agree h t.state q
    simp only [step, hp, hanswer, hstate]
    exact ⟨trivial, hworld⟩
  | tell n next => simpa only [step, hp, true_and] using h

theorem mask_step (hn : w.storage.Numbered)
    (hp : ∀ h, t.facts.access.canWrite h = true → p h = false) :
    (t.step w).2.mask p = w.mask p := by
  unfold step
  split
  · rfl
  · exact RunState.mask_perform hn hp t.state _
  · rfl

def alone (t : Task Note) (w : World) : Nat → Task Note × World
  | 0 => (t, w)
  | n + 1 => (t.alone w n).1.step (t.alone w n).2

theorem alone_succ (t : Task Note) (w : World) (n : Nat) :
    t.alone w (n + 1) = (t.step w).1.alone (t.step w).2 n := by
  induction n with
  | zero => rfl
  | succ n ih => exact congrArg (fun x : Task Note × World => x.1.step x.2) ih

theorem facts_alone (t : Task Note) (w : World) (n : Nat) : (t.alone w n).1.facts = t.facts := by
  induction n with
  | zero => rfl
  | succ n ih => exact (facts_step _ _).trans ih

theorem alone_add {n : Nat} (h : (t.alone w n).1.Finished) (k : Nat) :
    t.alone w (n + k) = t.alone w n := by
  induction k with
  | zero => rfl
  | succ k ih =>
    change (t.alone w (n + k)).1.step (t.alone w (n + k)).2 = _
    rw [ih, step_of_finished h]

theorem alone_eq {m n : Nat} (hm : (t.alone w m).1.Finished) (hn : (t.alone w n).1.Finished) :
    t.alone w m = t.alone w n := by
  obtain ⟨k, rfl⟩ | ⟨k, rfl⟩ := (Nat.le_total m n).imp Nat.exists_eq_add_of_le
    Nat.exists_eq_add_of_le
  · exact (alone_add hm k).symm
  · exact alone_add hn k

theorem finished_of_le {m n : Nat} (hmn : m ≤ n) (hm : (t.alone w m).1.Finished) :
    (t.alone w n).1.Finished := by
  obtain ⟨k, rfl⟩ := Nat.exists_eq_add_of_le hmn
  rwa [alone_add hm]

def complete (facts : SystemFacts) : SystemBody Note → RunState Note → List Observation → World →
    Task Note × World
  | .done result, st, seen, w => (⟨facts, .done result, st, seen⟩, w)
  | .ask q next, st, seen, w =>
    let (answer, st, w) := st.perform facts w q
    complete facts (next answer) st (seen ++ [⟨q, answer⟩]) w
  | .tell n next, st, seen, w => complete facts next { st with notes := st.notes ++ [n] } seen w

def finish (t : Task Note) (w : World) : Task Note × World :=
  complete t.facts t.program t.state t.seen w

theorem exists_alone_eq_finish (t : Task Note) (w : World) :
    ∃ n, t.alone w n = t.finish w ∧ (t.finish w).1.Finished := by
  obtain ⟨facts, program, st, seen⟩ := t
  induction program generalizing st seen w with
  | done result => exact ⟨0, rfl, result, rfl⟩
  | ask q next ih =>
    obtain ⟨n, hn, hend⟩ := ih (st.perform facts w q).1 (st.perform facts w q).2.2
      (st.perform facts w q).2.1 (seen ++ [⟨q, (st.perform facts w q).1⟩])
    exact ⟨n + 1, (alone_succ _ w n).trans hn, hend⟩
  | tell note next ih =>
    obtain ⟨n, hn, hend⟩ := ih w { st with notes := st.notes ++ [note] } seen
    exact ⟨n + 1, (alone_succ _ w n).trans hn, hend⟩

theorem numbered_alone (t : Task Note) (hw : w.storage.Numbered) (n : Nat) :
    (t.alone w n).2.storage.Numbered := by
  induction n with
  | zero => exact hw
  | succ n ih =>
    exact World.numbered_of_mask (mask_step ih (p := fun _ => false) fun _ _ => rfl).symm ih

theorem numbered_finish (t : Task Note) (hw : w.storage.Numbered) :
    (t.finish w).2.storage.Numbered := by
  obtain ⟨n, hn, -⟩ := t.exists_alone_eq_finish w
  rw [← hn]
  exact t.numbered_alone hw n

end Task

/-! ### Interleavings -/

def stepAt (x : List (Task Note) × World) (k : Nat) : List (Task Note) × World :=
  match x.1[k]? with
  | some t => (x.1.set k (t.step x.2).1, (t.step x.2).2)
  | none => x

/-- Let systems go on by one step each time that their position comes up. -/
def interleave (order : List Nat) (x : List (Task Note) × World) : List (Task Note) × World :=
  order.foldl stepAt x

def inTurn : List (Task Note) → World → List (Task Note) × World
  | [], w => ([], w)
  | t :: rest, w =>
    let (t, w) := t.finish w
    let (rest, w) := inTurn rest w
    (t :: rest, w)

/-- Of two systems neither writes what the other one may read. -/
def Independent (tasks : List (Task Note)) : Prop :=
  tasks.Pairwise fun t u => t.facts.access.Apart u.facts.access

variable {tasks : List (Task Note)} {w : World} {x : List (Task Note) × World}

theorem interleave_append (order later : List Nat) (x : List (Task Note) × World) :
    interleave (order ++ later) x = interleave later (interleave order x) := List.foldl_append

theorem interleave_replicate (t : Task Note) (w : World) (n : Nat) :
    interleave (List.replicate n 0) (t :: tasks, w) =
      ((t.alone w n).1 :: tasks, (t.alone w n).2) := by
  induction n with
  | zero => rfl
  | succ n ih =>
    rw [List.replicate_succ', interleave_append, ih]
    rfl

theorem interleave_succ (t : Task Note) (order : List Nat) (x : List (Task Note) × World) :
    interleave (order.map (· + 1)) (t :: x.1, x.2) =
      (t :: (interleave order x).1, (interleave order x).2) := by
  induction order generalizing x with
  | nil => rfl
  | cons k order ih =>
    have hstep : stepAt (t :: x.1, x.2) (k + 1) = (t :: (stepAt x k).1, (stepAt x k).2) := by
      simp only [stepAt, List.getElem?_cons_succ]
      split <;> rfl
    rw [List.map_cons]
    exact (congrArg (interleave _) hstep).trans (ih (stepAt x k))

theorem exists_interleave_eq_inTurn (tasks : List (Task Note)) (w : World) :
    ∃ order, interleave order (tasks, w) = inTurn tasks w := by
  induction tasks generalizing w with
  | nil => exact ⟨[], rfl⟩
  | cons t rest ih =>
    obtain ⟨n, hn, -⟩ := t.exists_alone_eq_finish w
    obtain ⟨order, horder⟩ := ih (t.finish w).2
    refine ⟨List.replicate n 0 ++ order.map (· + 1), ?_⟩
    rw [interleave_append, interleave_replicate, hn]
    refine (interleave_succ (t.finish w).1 order (rest, (t.finish w).2)).trans ?_
    rw [horder]
    rfl

theorem finished_inTurn (tasks : List (Task Note)) (w : World) :
    ∀ t ∈ (inTurn tasks w).1, t.Finished := by
  induction tasks generalizing w with
  | nil => exact fun t ht => absurd ht List.not_mem_nil
  | cons t rest ih =>
    intro u hu
    obtain rfl | hu := List.mem_cons.1 hu
    · obtain ⟨-, -, hend⟩ := t.exists_alone_eq_finish w
      exact hend
    · exact ih _ u hu

/-! ### What interleaving preserves -/

/-- Each system is where it would be alone after `n` steps, and so is the world for its eyes. -/
structure Progressed (tasks : List (Task Note)) (w : World) (n : Nat → Nat)
    (x : List (Task Note) × World) : Prop where
  length : x.1.length = tasks.length
  own : ∀ k (t : Task Note), tasks[k]? = some t → x.1[k]? = some (t.alone w (n k)).1
  view : ∀ k (t : Task Note), tasks[k]? = some t →
    x.2.mask t.facts.access.canRead = (t.alone w (n k)).2.mask t.facts.access.canRead
  rest : ∀ p : TypeHandle → Bool, (∀ t ∈ tasks, ∀ h, t.facts.access.canWrite h = true →
    p h = false) → x.2.mask p = w.mask p

namespace Progressed

variable {n : Nat → Nat}

theorem start (tasks : List (Task Note)) (w : World) :
    Progressed tasks w (fun _ => 0) (tasks, w) :=
  ⟨rfl, fun _ _ h => h, fun _ _ _ => rfl, fun _ _ => rfl⟩

theorem congr {n' : Nat → Nat} (h : Progressed tasks w n x)
    (hn : ∀ k < tasks.length, n' k = n k) : Progressed tasks w n' x := by
  refine ⟨h.length, fun k t ht => ?_, fun k t ht => ?_, h.rest⟩
  · rw [hn k (List.getElem?_eq_some_iff.1 ht).1]
    exact h.own k t ht
  · rw [hn k (List.getElem?_eq_some_iff.1 ht).1]
    exact h.view k t ht

theorem numbered (h : Progressed tasks w n x) (hw : w.storage.Numbered) : x.2.storage.Numbered :=
  World.numbered_of_mask (h.rest (fun _ => false) fun _ _ _ _ => rfl).symm hw

end Progressed

theorem Independent.apart (h : Independent tasks) {j k : Nat} (hjk : j ≠ k) {t u : Task Note}
    (ht : tasks[j]? = some t) (hu : tasks[k]? = some u) :
    t.facts.access.Apart u.facts.access := by
  obtain ⟨hj, rfl⟩ := List.getElem?_eq_some_iff.1 ht
  obtain ⟨hk, rfl⟩ := List.getElem?_eq_some_iff.1 hu
  obtain hlt | hgt := Nat.lt_or_gt_of_ne hjk
  · exact List.pairwise_iff_getElem.1 h j k hj hk hlt
  · exact (List.pairwise_iff_getElem.1 h k j hk hj hgt).symm

theorem Progressed.advance (hi : Independent tasks) (hw : w.storage.Numbered) {n : Nat → Nat}
    (h : Progressed tasks w n x) {k : Nat} {t u : Task Note} (ht : tasks[k]? = some t)
    (hu : x.1[k]? = some u) : Progressed tasks w (fun j => n j + [k].count j)
      (x.1.set k (u.step x.2).1, (u.step x.2).2) := by
  cases hu.symm.trans (h.own k t ht)
  have hfacts := t.facts_alone w (n k)
  have hview := h.view k t ht
  rw [← hfacts] at hview
  obtain ⟨hsame, hworld⟩ := Task.step_agree hview
  rw [hfacts] at hworld
  have hmask {p : TypeHandle → Bool} (hp : ∀ h, t.facts.access.canWrite h = true → p h = false) :
      ((t.alone w (n k)).1.step x.2).2.mask p = x.2.mask p :=
    Task.mask_step (h.numbered hw) (hfacts ▸ hp)
  refine ⟨List.length_set.trans h.length, fun j v hv => ?_, fun j v hv => ?_, fun p hp => ?_⟩
  · by_cases hjk : j = k
    · subst hjk
      cases ht.symm.trans hv
      rw [List.count_singleton_self, List.getElem?_set_self', h.own j t ht]
      exact congrArg some hsame
    · rw [List.count_cons_of_ne (Ne.symm hjk), List.getElem?_set_ne (Ne.symm hjk)]
      exact h.own j v hv
  · by_cases hjk : j = k
    · subst hjk
      cases ht.symm.trans hv
      rw [List.count_singleton_self]
      exact hworld
    · -- what the system at `j` may read is nothing that the one at `k` may write
      rw [List.count_cons_of_ne (Ne.symm hjk), hmask]
      · exact h.view j v hv
      · exact fun t' hwrite => (hi.apart (Ne.symm hjk) ht hv t').1 hwrite
  · exact (hmask (hp t (List.mem_of_getElem? ht))).trans (h.rest p hp)

theorem Progressed.stepAt (hi : Independent tasks) (hw : w.storage.Numbered) {n : Nat → Nat}
    (h : Progressed tasks w n x) (k : Nat) :
    Progressed tasks w (fun j => n j + [k].count j) (stepAt x k) := by
  cases ht : tasks[k]? with
  | none =>
    have hout := List.getElem?_eq_none_iff.1 ht
    have hnone : x.1[k]? = none := List.getElem?_eq_none (h.length ▸ hout)
    simp only [EntityWorld.stepAt, hnone]
    refine h.congr fun j hj => ?_
    exact congrArg (n j + ·)
      (List.count_cons_of_ne (Nat.ne_of_gt (Nat.lt_of_lt_of_le hj hout)))
  | some t =>
    simp only [EntityWorld.stepAt, h.own k t ht]
    exact h.advance hi hw ht (h.own k t ht)

theorem progressed_interleave (hi : Independent tasks) (hw : w.storage.Numbered)
    (order : List Nat) :
    Progressed tasks w (order.count ·) (interleave order (tasks, w)) := by
  induction order using List.reverseRecOn with
  | nil => exact .start tasks w
  | append_singleton order k ih =>
    rw [interleave_append]
    simp only [List.count_append]
    exact ih.stepAt hi hw k

/-! ### What every order ends with -/

theorem exists_alone_finished (tasks : List (Task Note)) (w : World) :
    ∃ n, ∀ t ∈ tasks, (t.alone w n).1.Finished := by
  induction tasks with
  | nil => exact ⟨0, fun t ht => absurd ht List.not_mem_nil⟩
  | cons t rest ih =>
    obtain ⟨n, hn⟩ := ih
    obtain ⟨m, hm, hend⟩ := t.exists_alone_eq_finish w
    refine ⟨max m n, fun u hu => ?_⟩
    obtain rfl | hu := List.mem_cons.1 hu
    · exact Task.finished_of_le (Nat.le_max_left m n) (hm ▸ hend)
    · exact Task.finished_of_le (Nat.le_max_right m n) (hn u hu)

theorem exists_finished (hi : Independent tasks) (hw : w.storage.Numbered) :
    ∃ n, ∀ order : List Nat, (∀ k < tasks.length, n ≤ order.count k) →
      ∀ t ∈ (interleave order (tasks, w)).1, t.Finished := by
  obtain ⟨n, hn⟩ := exists_alone_finished tasks w
  refine ⟨n, fun order horder t ht => ?_⟩
  have hprogressed := progressed_interleave hi hw order
  obtain ⟨k, hk, rfl⟩ := List.getElem_of_mem ht
  have hlt : k < tasks.length := hprogressed.length ▸ hk
  have hown := hprogressed.own k tasks[k] (List.getElem?_eq_getElem hlt)
  rw [List.getElem?_eq_getElem hk, Option.some_inj] at hown
  rw [hown]
  exact Task.finished_of_le (horder k hlt) (hn _ (List.getElem_mem hlt))

theorem interleave_agree (hi : Independent tasks) (hw : w.storage.Numbered)
    {order other : List Nat} (ho : ∀ t ∈ (interleave order (tasks, w)).1, t.Finished)
    (ho' : ∀ t ∈ (interleave other (tasks, w)).1, t.Finished) :
    (interleave order (tasks, w)).1 = (interleave other (tasks, w)).1 ∧
      { (interleave order (tasks, w)).2 with
        events := (interleave other (tasks, w)).2.events } = (interleave other (tasks, w)).2 := by
  have hx := progressed_interleave hi hw order
  have hy := progressed_interleave hi hw other
  have hsame {k : Nat} {t : Task Note} (ht : tasks[k]? = some t) :
      t.alone w (order.count k) = t.alone w (other.count k) :=
    Task.alone_eq (ho _ (List.mem_of_getElem? (hx.own k t ht)))
      (ho' _ (List.mem_of_getElem? (hy.own k t ht)))
  refine ⟨List.ext_getElem? fun k => ?_, World.eq_of_mask fun h => ?_⟩
  · cases ht : tasks[k]? with
    | none =>
      have hlen := List.getElem?_eq_none_iff.1 ht
      rw [List.getElem?_eq_none (hx.length ▸ hlen), List.getElem?_eq_none (hy.length ▸ hlen)]
    | some t => rw [hx.own k t ht, hy.own k t ht, hsame ht]
  · -- A type has at most one system that writes it, and that one reads it as well.
    by_cases hwrite : ∃ (k : Nat) (t : Task Note), tasks[k]? = some t ∧
        t.facts.access.canWrite h = true
    · obtain ⟨k, t, ht, hwrite⟩ := hwrite
      refine World.mask_congr (p := t.facts.access.canRead) (fun t' ht' => ?_) ?_
      · rw [eq_of_beq ht']
        exact AccessSet.canRead_of_canWrite hwrite
      · rw [hx.view k t ht, hy.view k t ht, hsame ht]
    · have hnone : ∀ t ∈ tasks, ∀ t', t.facts.access.canWrite t' = true → (t' == h) = false := by
        intro t ht t' ht'
        refine beq_eq_false_iff_ne.2 fun heq => hwrite ?_
        obtain ⟨k, hk⟩ := List.mem_iff_getElem?.1 ht
        exact ⟨k, t, hk, heq ▸ ht'⟩
      rw [hx.rest _ hnone, hy.rest _ hnone]

theorem interleave_eq_inTurn (hi : Independent tasks) (hw : w.storage.Numbered)
    {order : List Nat} (ho : ∀ t ∈ (interleave order (tasks, w)).1, t.Finished) :
    (interleave order (tasks, w)).1 = (inTurn tasks w).1 ∧
      { (interleave order (tasks, w)).2 with events := (inTurn tasks w).2.events } =
        (inTurn tasks w).2 := by
  obtain ⟨other, hother⟩ := exists_interleave_eq_inTurn tasks w
  have hends := finished_inTurn tasks w
  rw [← hother] at hends ⊢
  exact interleave_agree hi hw ho hends

end EntityWorld
