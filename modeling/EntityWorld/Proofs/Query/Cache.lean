import EntityWorld.Proofs.Query.Matching
import EntityWorld.Proofs.World.Tables
set_option autoImplicit false

/-!
The tables that a query remembers. Whenever it was compiled and used, they are the ones that match
among those it has seen, because a table that was seen does not change its ids.
-/
namespace EntityWorld.Query

variable {w v : World} {source : TermList} {q : Query}

inductive Use where
  | refresh
  | iterate
  | rows
  | chunks
  | count

def use (q : Query) (w : World) : Use → Query
  | .refresh => q.refresh w
  | .iterate => (q.start w).1
  | .rows => (q.rows w).1
  | .chunks => (q.chunks w).1
  | .count => (q.count w).1

/-- A query that was compiled from `source` in a reachable world, and has been used in some of the
worlds between that one and `w`. -/
inductive Follows (source : TermList) : World → Query → Prop where
  | compile {w : World} {q : Query} : w.Reachable → compile w source = .ok q → Follows source w q
  | perform {w : World} {q : Query} (op : Operation) : Follows source w q → op ≠ .shutdown →
      (w.perform op).Fits → Follows source (w.perform op) q
  | use {w : World} {q : Query} (u : Use) : Follows source w q → Follows source w (q.use w u)

theorem use_cases (q : Query) (w : World) (u : Use) : q.use w u = q ∨ q.use w u = q.refresh w := by
  have hcandidates : (q.candidates w).1 = q ∨ (q.candidates w).1 = q.refresh w := by
    unfold candidates
    split
    · exact .inl rfl
    · exact .inr rfl
  cases u with
  | refresh => exact .inr rfl
  | iterate | rows | chunks | count => exact hcandidates

def admitsKey (q : Query) (k : ArchetypeId × List Id) : Bool := q.admits (Archetype.new k.1 k.2 [])

theorem map_id_filter_admits (q : Query) (tables : List Archetype) :
    (tables.filter q.admits).map Archetype.id =
      ((tables.map Archetype.key).filter q.admitsKey).map Prod.fst := by
  have hsame : q.admitsKey ∘ Archetype.key = q.admits := funext fun _ => admits_congr rfl
  rw [List.filter_map, hsame, List.map_map]
  rfl

/-- The query belongs to `source`, and remembers the tables that match among those it has seen. -/
structure Current (source : TermList) (w : World) (q : Query) : Prop where
  compiled : q.source = source
  terms : q.terms = source.map Term.compiled
  seen : q.seen ≤ w.storage.size
  matched : q.matched = ((w.storage.keys.take q.seen).filter q.admitsKey).map Prod.fst

namespace Current

theorem compile (h : compile w source = .ok q) : Current source w q := by
  obtain ⟨rfl, -⟩ := compile_eq_ok h
  exact ⟨rfl, rfl, Nat.zero_le _, by simp⟩

theorem keeps (h : Current source w q) (hw : w.storage.Numbered)
    (hkeeps : w.storage.Keeps v.storage) : Current source v q := by
  obtain ⟨-, later, hlater⟩ := hkeeps hw
  have hseen : q.seen ≤ w.storage.keys.length := w.storage.length_keys ▸ h.seen
  refine ⟨h.compiled, h.terms, ?_, ?_⟩
  · rw [← v.storage.length_keys, ← hlater, List.length_append]
    exact Nat.le_add_right_of_le hseen
  · rw [h.matched, ← hlater, List.take_append_of_le_length hseen]

theorem matched_eq (h : Current source w q) : q.matched =
    ((w.storage.archetypes.toList.take q.seen).filter q.admits).map Archetype.id := by
  rw [h.matched, map_id_filter_admits, Storage.keys, List.map_take]

theorem refresh_eq (h : Current source w q) : q.refresh w = { q with
    matched := (w.storage.archetypes.toList.filter q.admits).map Archetype.id
    seen := w.storage.size } := by
  have hall : w.storage.archetypes.toList.length = w.storage.size := by simp [Storage.size]
  unfold Query.refresh
  dsimp only
  split
  · next hseen =>
    have hmatched := h.matched_eq
    rw [List.take_of_length_le (by omega)] at hmatched
    rw [← hmatched, ← hseen]
  · have hle : ¬ q.seen > w.storage.size := Nat.not_lt.2 h.seen
    rw [if_neg hle, h.matched_eq, Storage.since, ← List.map_append, ← List.filter_append,
      List.take_append_drop]

theorem refresh (h : Current source w q) : Current source w (q.refresh w) := by
  rw [h.refresh_eq]
  refine ⟨h.compiled, h.terms, Nat.le_refl _, ?_⟩
  rw [map_id_filter_admits, List.take_of_length_le]
  · rfl
  · simp [Storage.keys, Storage.size]

theorem use (h : Current source w q) (u : Use) : Current source w (q.use w u) := by
  obtain hu | hu := use_cases q w u
  · rwa [hu]
  · rw [hu]
    exact h.refresh

end Current

namespace Follows

theorem reachable (h : Follows source w q) : w.Reachable := by
  induction h with
  | compile hw _ => exact hw
  | perform op _ _ hf ih => exact ih.step op hf
  | use _ _ ih => exact ih

theorem run {ops : List Operation} (h : Follows source w q) (hops : ∀ op ∈ ops, op ≠ .shutdown)
    (hf : w.FitsAlong ops) : Follows source (w.run ops) q := by
  induction ops generalizing w with
  | nil => exact h
  | cons op rest ih =>
    exact ih (h.perform op (hops op List.mem_cons_self) hf.1)
      (fun x hx => hops x (List.mem_cons_of_mem op hx)) hf.2

theorem current (h : Follows source w q) : Current source w q := by
  induction h with
  | compile _ hc => exact .compile hc
  | perform op hw hop _ ih =>
    exact ih.keeps hw.reachable.wellFormed.storage.numbered (World.perform_keeps _ hop)
  | use u _ ih => exact ih.use u

theorem fits (h : Follows source w q) : ∀ t ∈ source, t.id.Fits := by
  induction h with
  | compile hw hc => exact fun t ht => ((compile_eq_ok hc).2 t ht).fits hw.wellFormed hw.fits
  | perform _ _ _ _ ih => exact ih
  | use _ _ ih => exact ih

end Follows
end EntityWorld.Query
