import EntityWorld.Proofs.Schedule.AccessSet
import Mathlib.Data.List.Nodup
set_option autoImplicit false

/-!
The types over which two term lists clash. An access set names each component that its terms use
once, either among the reads or among the writes. Because of that the two halves of a list of
conflicts have nothing in common, and miss nothing: what is written on both sides is found among
the writes of the first.
-/
namespace EntityWorld

namespace TermList

variable {terms : TermList} {access : Access} {h : TypeHandle}

def Uses (terms : TermList) (access : Access) (h : TypeHandle) : Prop :=
  ⟨.component h, .required, access⟩ ∈ terms ∨ ⟨.component h, .optional, access⟩ ∈ terms

theorem mem_accessed : h ∈ terms.accessed access ↔ terms.Uses access h := by
  simp only [accessed, List.mem_filterMap]
  constructor
  · intro hex
    obtain ⟨⟨id, role, own⟩, ht, hsome⟩ := hex
    cases id with
    | pair relation target => simp at hsome
    | component k => cases role <;> simp_all [Uses]
  · intro huse
    obtain ht | ht := huse
    · exact ⟨_, ht, by simp⟩
    · exact ⟨_, ht, by simp⟩

/-- One of the two lists writes the component, and the other one reads or writes it. -/
def Clash (first second : TermList) (h : TypeHandle) : Prop :=
  first.Uses .write h ∧ (second.Uses .read h ∨ second.Uses .write h) ∨
    second.Uses .write h ∧ (first.Uses .read h ∨ first.Uses .write h)

theorem clash_comm {first second : TermList} : first.Clash second h ↔ second.Clash first h :=
  or_comm

end TermList

namespace AccessSet

variable {a b : AccessSet} {barred acc hs : List TypeHandle} {first second terms : TermList}
  {h : TypeHandle}

theorem nodup_collect (hacc : acc.Nodup) : (collect barred acc hs).Nodup := by
  induction hs generalizing acc with
  | nil => simpa [collect]
  | cons x hs ih =>
    unfold collect
    split
    · exact ih hacc
    · next hkeep =>
      simp only [Bool.or_eq_true, List.contains_iff_mem, not_or] at hkeep
      have hnext := hacc.concat hkeep.2
      rw [List.concat_eq_append] at hnext
      exact ih hnext

/-- The set names what the terms use, each component once and as written if some term writes it. -/
structure Tells (s : AccessSet) (terms : TermList) : Prop where
  disjoint : s.reads.Disjoint s.writes
  nodup_reads : s.reads.Nodup
  nodup_writes : s.writes.Nodup
  mem_iff : ∀ h, h ∈ s.reads ∨ h ∈ s.writes ↔ terms.Uses .read h ∨ terms.Uses .write h
  mem_writes_iff : ∀ h, h ∈ s.writes ↔ terms.Uses .write h

theorem tells_ofTerms (terms : TermList) : (ofTerms terms).Tells terms where
  disjoint := by
    intro h hread hwrite
    simp only [ofTerms, mem_collect] at hread hwrite
    simp_all
  nodup_reads := nodup_collect List.nodup_nil
  nodup_writes := nodup_collect List.nodup_nil
  mem_iff h := by
    rw [← canRead_iff, canRead_ofTerms]
    exact or_congr TermList.mem_accessed TermList.mem_accessed
  mem_writes_iff h := by
    rw [← canWrite_iff, canWrite_ofTerms]
    exact TermList.mem_accessed

theorem mem_conflicts : h ∈ a.conflicts b ↔
    h ∈ a.writes ∧ (h ∈ b.reads ∨ h ∈ b.writes) ∨ h ∈ b.writes ∧ h ∈ a.reads := by
  simp [conflicts, or_comm]

namespace Tells

theorem mem_conflicts_iff (ha : a.Tells first) (hb : b.Tells second) :
    h ∈ a.conflicts b ↔ first.Clash second h := by
  rw [mem_conflicts, TermList.Clash, ← ha.mem_iff, ← hb.mem_iff, ← ha.mem_writes_iff,
    ← hb.mem_writes_iff]
  tauto

/-- The halves have nothing in common: what `a` writes is not among its reads. -/
theorem nodup_conflicts (ha : a.Tells first) (hb : b.Tells second) : (a.conflicts b).Nodup := by
  refine List.nodup_append'.2 ⟨ha.nodup_writes.filter _, hb.nodup_writes.filter _, ?_⟩
  intro h hours htheirs
  simp only [List.mem_filter, List.contains_iff_mem] at hours htheirs
  exact ha.disjoint htheirs.2 hours.1

theorem conflicts_perm (ha : a.Tells first) (hb : b.Tells second) :
    (a.conflicts b).Perm (b.conflicts a) := by
  refine (List.perm_ext_iff_of_nodup (ha.nodup_conflicts hb) (hb.nodup_conflicts ha)).2 fun h => ?_
  rw [ha.mem_conflicts_iff hb, hb.mem_conflicts_iff ha, TermList.clash_comm]

end Tells

/-- The access sets of any two term lists tell what the terms use, and their conflicts are the
components over which the lists clash, each of them once, whichever of the two sets is asked. -/
theorem conflicts_ofTerms_exact (first second : TermList) :
    (ofTerms first).Tells first ∧ (ofTerms second).Tells second ∧
    ((ofTerms first).conflicts (ofTerms second)).Nodup ∧
    (∀ h, h ∈ (ofTerms first).conflicts (ofTerms second) ↔ first.Clash second h) ∧
    ((ofTerms first).conflicts (ofTerms second)).Perm
      ((ofTerms second).conflicts (ofTerms first)) := by
  have ha := tells_ofTerms first
  have hb := tells_ofTerms second
  exact ⟨ha, hb, ha.nodup_conflicts hb, fun _ => ha.mem_conflicts_iff hb, ha.conflicts_perm hb⟩

example : (ofTerms [.write ⟨1⟩, .write ⟨2⟩, .read ⟨3⟩]).conflicts
    (ofTerms [.write ⟨1⟩, .optionalWrite ⟨3⟩, .read ⟨2⟩, .read ⟨1⟩]) = [⟨1⟩, ⟨2⟩, ⟨3⟩] := by decide

end AccessSet
end EntityWorld
