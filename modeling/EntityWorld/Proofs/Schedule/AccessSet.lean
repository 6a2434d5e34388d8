import EntityWorld.Schedule.AccessSet
set_option autoImplicit false

/-!
Access sets say the same as the terms they were made from, and two of them do not clash exactly if
neither side writes what the other one may read.
-/
namespace EntityWorld.AccessSet

variable {a b : AccessSet} {barred acc hs : List TypeHandle} {terms : TermList} {h : TypeHandle}

theorem mem_collect : h ∈ collect barred acc hs ↔ h ∈ acc ∨ h ∈ hs ∧ h ∉ barred := by
  induction hs generalizing acc with
  | nil => simp [collect]
  | cons x hs ih =>
    unfold collect
    split
    · next hskip =>
      rw [ih, List.mem_cons]
      simp only [Bool.or_eq_true, List.contains_iff_mem] at hskip
      constructor
      · intro hold
        exact hold.imp_right fun hnew => ⟨.inr hnew.1, hnew.2⟩
      · intro hold
        obtain hacc | ⟨rfl | hhs, hfree⟩ := hold
        · exact .inl hacc
        · exact .inl (hskip.resolve_left hfree)
        · exact .inr ⟨hhs, hfree⟩
    · next hkeep =>
      simp only [Bool.or_eq_true, List.contains_iff_mem, not_or] at hkeep
      rw [ih, List.mem_append, List.mem_singleton, List.mem_cons]
      constructor
      · intro hold
        obtain (hacc | rfl) | hnew := hold
        · exact .inl hacc
        · exact .inr ⟨.inl rfl, hkeep.1⟩
        · exact .inr ⟨.inr hnew.1, hnew.2⟩
      · intro hold
        obtain hacc | ⟨rfl | hhs, hfree⟩ := hold
        · exact .inl (.inl hacc)
        · exact .inl (.inr rfl)
        · exact .inr ⟨hhs, hfree⟩

theorem canWrite_iff : a.canWrite h = true ↔ h ∈ a.writes := List.contains_iff_mem

theorem canRead_iff : a.canRead h = true ↔ h ∈ a.reads ∨ h ∈ a.writes := by
  simp [canRead, canWrite]

theorem canRead_of_canWrite (hw : a.canWrite h = true) : a.canRead h = true :=
  canRead_iff.2 (.inr (canWrite_iff.1 hw))

theorem canWrite_ofTerms : (ofTerms terms).canWrite h = true ↔ h ∈ terms.writes := by
  rw [canWrite_iff, ofTerms, mem_collect]
  simp

theorem canRead_ofTerms :
    (ofTerms terms).canRead h = true ↔ h ∈ terms.reads ∨ h ∈ terms.writes := by
  rw [canRead_iff, ← canWrite_iff, canWrite_ofTerms]
  by_cases hw : h ∈ terms.writes
  · simp [hw]
  · have hbar : h ∉ collect [] [] terms.writes := fun hin => hw (by simpa [mem_collect] using hin)
    simp [ofTerms, mem_collect, hbar]

/-- Neither side writes what the other one may read. -/
def Apart (a b : AccessSet) : Prop :=
  ∀ h, (a.canWrite h = true → b.canRead h = false) ∧ (b.canWrite h = true → a.canRead h = false)

theorem Apart.symm (h : Apart a b) : Apart b a := fun t => (h t).symm

theorem conflicts_eq_nil_iff : a.conflicts b = [] ↔ Apart a b := by
  simp only [conflicts, List.append_eq_nil_iff, List.filter_eq_nil_iff, Bool.or_eq_true,
    List.contains_iff_mem, Apart, canWrite_iff, ← Bool.not_eq_true, canRead_iff]
  constructor
  · intro hnone h
    exact ⟨fun hw hr => hnone.1 h hw hr.symm, fun hw hr =>
      hr.elim (hnone.2 h hw) fun hw' => hnone.1 h hw' (.inl hw)⟩
  · intro hapart
    exact ⟨fun h hw hr => (hapart h).1 hw hr.symm, fun h hw hr => (hapart h).2 hw (.inl hr)⟩

end EntityWorld.AccessSet
