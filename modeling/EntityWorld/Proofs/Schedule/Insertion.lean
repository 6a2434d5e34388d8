import EntityWorld.Proofs.Schedule.Lifetime
set_option autoImplicit false

/-!
Putting phases into a pipeline. Ranks number the phases of every pipeline that can be made. A new
phase gets the rank after that of its anchor and moves no other phase past another, unless it is to
stand right after the start phase, which has a rank but is not in the list that is searched.
-/
namespace EntityWorld.Pipeline

variable {p q : Pipeline} {anchor new phase : Phase} {k : Nat}

def insert (p : Pipeline) (anchor new : Phase) : Pipeline := (p.insertAfter? anchor new).getD p

/-- What calls make of the standard pipeline; each puts the second phase after the first. -/
def made (calls : List (Phase × Phase)) : Pipeline :=
  calls.foldl (fun p call => p.insert call.1 call.2) standard

theorem Built.insert (h : p.Built) (anchor new : Phase) : (p.insert anchor new).Built := by
  unfold Pipeline.insert
  cases hq : p.insertAfter? anchor new with
  | none => exact h
  | some q => exact h.insertAfter anchor new hq

theorem built_made (calls : List (Phase × Phase)) : (made calls).Built := by
  induction calls using List.reverseRecOn with
  | nil => exact .standard
  | append_singleton calls call ih =>
    rw [made, List.foldl_concat]
    exact ih.insert call.1 call.2

/-! ### Which calls succeed -/

theorem insertAfter?_eq_none_iff : p.insertAfter? anchor new = none ↔
    p.contains new = false ∧ anchor ∉ p.phases := by
  unfold insertAfter?
  cases p.contains new with
  | true => simp
  | false => simp [List.idxOf?_eq_none_iff]

theorem Built.mem_phases_iff (h : p.Built) :
    phase ∈ p.phases ↔ p.contains phase = true ∧ phase ≠ Phase.onStart := by
  rw [contains_iff, order, List.mem_cons]
  constructor
  · intro hmem
    refine ⟨.inr hmem, fun hstart => ?_⟩
    obtain rfl := hstart
    exact (List.nodup_cons.1 h.nodup).1 hmem
  · intro hmem
    exact hmem.1.resolve_left hmem.2

theorem Built.insertAfter?_eq_none_iff (h : p.Built) : p.insertAfter? anchor new = none ↔
    p.contains new = false ∧ (anchor = Phase.onStart ∨ p.contains anchor = false) := by
  rw [Pipeline.insertAfter?_eq_none_iff, h.mem_phases_iff, not_and_or, not_not, Bool.not_eq_true,
    or_comm]

theorem insert_of_none (h : p.insertAfter? anchor new = none) : p.insert anchor new = p := by
  rw [insert, h, Option.getD_none]

theorem insert_of_contains (h : p.contains new = true) : p.insert anchor new = p := by
  rw [insert, insertAfter?_of_contains h, Option.getD_some]

/-! ### What a call does -/

theorem Built.rank?_eq_some_iff (h : p.Built) : p.rank? phase = some k ↔
    p.order[k]? = some phase := by
  rw [rank?_eq]
  constructor
  · intro hk
    obtain ⟨hlt, hget, -⟩ := List.idxOf?_eq_some_iff.1 hk
    rw [List.getElem?_eq_getElem hlt, hget]
  · intro hk
    obtain ⟨hlt, rfl⟩ := List.getElem?_eq_some_iff.1 hk
    exact idxOf?_getElem h.nodup hlt

theorem order_insertAfter? (hnew : p.contains new = false) (hanchor : anchor ∈ p.phases)
    (hstart : anchor ≠ Phase.onStart) : ∃ k q, p.rank? anchor = some k ∧ k + 1 ≤ p.order.length ∧
      p.insertAfter? anchor new = some q ∧ q.order = p.order.insertIdx (k + 1) new := by
  obtain ⟨i, hi⟩ := Option.isSome_iff_exists.1 (List.isSome_idxOf?.2 hanchor)
  have hlt : i < p.phases.length := (List.idxOf?_eq_some_iff.1 hi).1
  refine ⟨i + 1, ⟨p.phases.insertIdx (i + 1) new⟩, ?_, Nat.succ_lt_succ hlt, ?_,
    List.insertIdx_succ_cons.symm⟩
  · rw [rank?, if_neg hstart, hi, Option.map_some]
  · rw [insertAfter?, hnew, if_neg Bool.false_ne_true, hi, Option.map_some]

/-- `q` is `p` with a new phase right after `anchor`; it is a strict order in which no phase comes
twice. -/
structure Inserts (p : Pipeline) (anchor new : Phase) (q : Pipeline) : Prop where
  succeeds : p.insertAfter? anchor new = some q
  rank : ∃ k, p.rank? anchor = some k ∧ q.rank? new = some (k + 1)
  contains : ∀ phase, q.contains phase = true ↔ phase = new ∨ p.contains phase = true
  order : ∀ first second, p.contains first = true → p.contains second = true →
    (q.Earlier first second ↔ p.Earlier first second)
  once : q.order.Nodup
  numbered : ∀ phase k, q.rank? phase = some k ↔ q.order[k]? = some phase

theorem Built.inserts (h : p.Built) (hanchor : p.contains anchor = true)
    (hnew : p.contains new = false) (hstart : anchor ≠ Phase.onStart) :
    p.Inserts anchor new (p.insert anchor new) := by
  obtain ⟨k, q, hk, hlt, hq, horder⟩ :=
    order_insertAfter? hnew (h.mem_phases_iff.2 ⟨hanchor, hstart⟩) hstart
  have hqb : q.Built := h.insertAfter anchor new hq
  rw [Pipeline.insert, hq, Option.getD_some]
  refine ⟨hq, ⟨k, hk, hqb.rank?_eq_some_iff.2 ?_⟩, fun phase => ?_,
    fun _ _ => earlier_insertAfter? hq, hqb.nodup, fun _ _ => hqb.rank?_eq_some_iff⟩
  · rw [horder, List.getElem?_insertIdx_self, if_pos hlt]
  · rw [contains_iff, contains_iff, horder, List.mem_insertIdx hlt]

/-- A call goes as it has to: a new phase is put in after an anchor that is there, and nothing
happens otherwise. -/
structure InsertsOrderly (p : Pipeline) (anchor new : Phase) : Prop where
  inserts : p.contains anchor = true → p.contains new = false →
    p.Inserts anchor new (p.insert anchor new)
  unchanged : p.contains new = true ∨ p.contains anchor = false → p.insert anchor new = p

/-- After any calls, a call fails, and changes nothing, if there is no place for the new phase. It
goes as it has to unless a new phase is to stand right after the start phase: that one is there, and
the call fails all the same. -/
theorem made_insertsOrderly_iff (calls : List (Phase × Phase)) (anchor new : Phase) :
    ((made calls).insertAfter? anchor new = none ↔ (made calls).contains new = false ∧
      (anchor = Phase.onStart ∨ (made calls).contains anchor = false)) ∧
    ((made calls).insertAfter? anchor new = none → (made calls).insert anchor new = made calls) ∧
    ((made calls).InsertsOrderly anchor new ↔
      (anchor = Phase.onStart → (made calls).contains new = true)) := by
  have hbuilt := built_made calls
  refine ⟨hbuilt.insertAfter?_eq_none_iff, insert_of_none, fun horderly hstart => ?_,
    fun hknown => ⟨fun hanchor hnew => ?_, fun hidle => ?_⟩⟩
  · by_contra hnew
    rw [Bool.not_eq_true] at hnew
    have hcontains : (made calls).contains anchor = true := by
      rw [contains_iff, hstart]
      exact List.mem_cons_self
    have hnone := hbuilt.insertAfter?_eq_none_iff.2 ⟨hnew, .inl hstart⟩
    cases hnone.symm.trans (horderly.inserts hcontains hnew).succeeds
  · refine hbuilt.inserts hanchor hnew fun hstart => ?_
    cases hnew.symm.trans (hknown hstart)
  · cases hnew : (made calls).contains new with
    | true => exact insert_of_contains hnew
    | false =>
      obtain hthere | hgone := hidle
      · cases hnew.symm.trans hthere
      · exact insert_of_none (hbuilt.insertAfter?_eq_none_iff.2 ⟨hnew, .inr hgone⟩)

/-- The start phase is there and has a rank, and is said not to be when a phase is put after it. -/
theorem boot_not_insertsOrderly : (made []).contains Phase.onStart = true ∧
    (made []).rank? Phase.onStart = some 0 ∧ (made []).contains ⟨"Boot"⟩ = false ∧
    ((Scheduler.new {} (made []) : Scheduler Unit).insertPhaseAfter Phase.onStart ⟨"Boot"⟩).1 =
      .error (.unknownPhase Phase.onStart) ∧
    ¬ (made []).InsertsOrderly Phase.onStart ⟨"Boot"⟩ := by
  have hthere : (made []).contains Phase.onStart = true := by decide
  have hnew : (made []).contains ⟨"Boot"⟩ = false := by decide
  have hnone : (made []).insertAfter? Phase.onStart ⟨"Boot"⟩ = none := by decide
  refine ⟨hthere, by decide, hnew, by decide, fun horderly => ?_⟩
  cases hnone.symm.trans (horderly.inserts hthere hnew).succeeds

example : (made [(.onUpdate, ⟨"Late"⟩), (⟨"Late"⟩, ⟨"Last"⟩)]).rank? ⟨"Last"⟩ = some 6 := by decide

end EntityWorld.Pipeline
