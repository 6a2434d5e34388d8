import EntityWorld.FinMap
import Mathlib.Data.List.Nodup
import Mathlib.Data.List.Perm.Basic
import Mathlib.Data.Set.Card
set_option autoImplicit false

/-!
A finite map by its pairs: what it holds is what `get?` finds, and its size is how many there are.
-/
namespace EntityWorld
namespace FinMap

variable {κ ν : Type} {m : FinMap κ ν} {k : κ} {v : ν}

theorem nodup_entries (m : FinMap κ ν) : m.entries.Nodup := m.nodup_keys.of_map

theorem eq_of_entries {m m' : FinMap κ ν} (h : m.entries = m'.entries) : m = m' := by
  cases m
  cases m'
  congr

theorem size_sub_filter (m : FinMap κ ν) (p : κ → ν → Bool) :
    m.size - (m.filter p).size = (m.filter fun k v => !p k v).size := by
  have hsplit := List.length_eq_length_filter_add (l := m.entries) fun x => p x.1 x.2
  simp only [size, filter]
  omega

variable [DecidableEq κ]

theorem mem_entries_iff : (k, v) ∈ m.entries ↔ m.get? k = some v := by
  rw [get?, Option.map_eq_some_iff]
  constructor
  · intro hmem
    have hsome : ∃ x, m.entries.find? (fun e => e.1 = k) = some x :=
      Option.isSome_iff_exists.1 (List.find?_isSome.2 ⟨(k, v), hmem, decide_eq_true rfl⟩)
    obtain ⟨x, hfind⟩ := hsome
    refine ⟨x, hfind, ?_⟩
    have hkey : x.1 = k := of_decide_eq_true (List.find?_some (p := fun e : κ × ν => e.1 = k) hfind)
    rw [List.inj_on_of_nodup_map m.nodup_keys (List.mem_of_find?_eq_some hfind) hmem hkey]
  · intro hfind
    obtain ⟨⟨k', v'⟩, hfind, rfl⟩ := hfind
    have hkey : k' = k :=
      of_decide_eq_true (List.find?_some (p := fun e : κ × ν => e.1 = k) hfind)
    exact hkey ▸ List.mem_of_find?_eq_some hfind

theorem mem_keys_iff : k ∈ m.keys ↔ (m.get? k).isSome := by
  rw [keys, List.mem_map, Option.isSome_iff_exists]
  constructor
  · intro hex
    obtain ⟨x, hx, rfl⟩ := hex
    exact ⟨x.2, mem_entries_iff.1 hx⟩
  · intro hex
    obtain ⟨v, hv⟩ := hex
    exact ⟨(k, v), mem_entries_iff.2 hv, rfl⟩

theorem get?_of_erase {i : κ} (h : (m.erase i).get? k = some v) : m.get? k = some v := by
  rw [get?_erase] at h
  split at h
  · cases h
  · exact h

theorem erase_of_none (h : m.get? k = none) : m.erase k = m := by
  have hkept : (m.erase k).entries = m.entries := by
    refine List.filter_eq_self.2 fun x hx => decide_eq_true fun heq => ?_
    obtain rfl := heq
    rw [mem_entries_iff.1 hx] at h
    cases h
  exact eq_of_entries hkept

theorem entries_insert_of_none (h : m.get? k = none) (v : ν) :
    (m.insert k v).entries = (k, v) :: m.entries :=
  congrArg (fun kept => (k, v) :: entries kept) (erase_of_none h)

theorem insert_erase (m : FinMap κ ν) (k : κ) (v : ν) : (m.erase k).insert k v = m.insert k v := by
  have hnone : (m.erase k).get? k = none := by rw [get?_erase, if_pos rfl]
  exact eq_of_entries (entries_insert_of_none hnone v)

theorem get?_mapValues {μ : Type} (m : FinMap κ ν) (f : ν → μ) (k : κ) :
    (m.mapValues f).get? k = (m.get? k).map f := by
  simp [get?, mapValues, List.find?_map, Function.comp_def]

theorem get?_filter_eq_some {p : κ → ν → Bool} :
    (m.filter p).get? k = some v ↔ m.get? k = some v ∧ p k v = true := by
  rw [← mem_entries_iff, filter, List.mem_filter, mem_entries_iff]

theorem size_eq_ncard [DecidableEq ν] (m : FinMap κ ν) :
    m.size = {x : κ × ν | m.get? x.1 = some x.2}.ncard := by
  have hpairs : {x : κ × ν | m.get? x.1 = some x.2} = (m.entries.toFinset : Set (κ × ν)) := by
    ext x
    rw [Finset.mem_coe, List.mem_toFinset, Set.mem_ofPred_eq, ← mem_entries_iff]
  rw [hpairs, Set.ncard_coe_finset, List.toFinset_card_of_nodup m.nodup_entries, size]

end FinMap
end EntityWorld
