set_option autoImplicit false

/-!
Finite maps as lists of pairs with distinct keys. Every operation is described through `get?`.
-/
namespace EntityWorld

/-- A finite map; no key occurs twice. -/
structure FinMap (κ ν : Type) where
  entries : List (κ × ν)
  nodup_keys : (entries.map Prod.fst).Nodup

namespace FinMap

variable {κ ν : Type}

def empty : FinMap κ ν := ⟨[], List.nodup_nil⟩

instance : Inhabited (FinMap κ ν) := ⟨empty⟩

def size (m : FinMap κ ν) : Nat := m.entries.length

def isEmpty (m : FinMap κ ν) : Bool := m.entries.isEmpty

def keys (m : FinMap κ ν) : List κ := m.entries.map Prod.fst

def filter (m : FinMap κ ν) (p : κ → ν → Bool) : FinMap κ ν where
  entries := m.entries.filter fun e => p e.1 e.2
  nodup_keys := m.nodup_keys.sublist (List.filter_sublist.map _)

def mapValues {μ : Type} (m : FinMap κ ν) (f : ν → μ) : FinMap κ μ where
  entries := m.entries.map fun e => (e.1, f e.2)
  nodup_keys := by
    have h : (m.entries.map fun e => (e.1, f e.2)).map Prod.fst = m.entries.map Prod.fst := by
      simp [List.map_map, Function.comp_def]
    rw [h]
    exact m.nodup_keys

variable [DecidableEq κ]

def get? (m : FinMap κ ν) (k : κ) : Option ν := (m.entries.find? fun e => e.1 = k).map Prod.snd

def contains (m : FinMap κ ν) (k : κ) : Bool := (m.get? k).isSome

def erase (m : FinMap κ ν) (k : κ) : FinMap κ ν := m.filter fun k' _ => k' ≠ k

theorem not_mem_keys_erase (m : FinMap κ ν) (k : κ) : k ∉ (m.erase k).keys := by
  simp [erase, filter, keys]

def insert (m : FinMap κ ν) (k : κ) (v : ν) : FinMap κ ν where
  entries := (k, v) :: (m.erase k).entries
  nodup_keys := List.nodup_cons.2 ⟨m.not_mem_keys_erase k, (m.erase k).nodup_keys⟩

@[simp] theorem get?_empty (k : κ) : (empty : FinMap κ ν).get? k = none := rfl

theorem get?_erase (m : FinMap κ ν) (k k' : κ) :
    (m.erase k).get? k' = if k' = k then none else m.get? k' := by
  by_cases h : k' = k
  · simp [get?, erase, filter, List.find?_filter, h]
  · have hp : (fun e : κ × ν => decide (decide (e.1 ≠ k) = true ∧ decide (e.1 = k') = true)) =
        fun e => decide (e.1 = k') := by
      funext e
      by_cases he : e.1 = k' <;> simp [he, h]
    simp only [get?, erase, filter, List.find?_filter, hp, if_neg h]

theorem get?_insert (m : FinMap κ ν) (k k' : κ) (v : ν) :
    (m.insert k v).get? k' = if k' = k then some v else m.get? k' := by
  by_cases h : k' = k
  · simp [insert, get?, h]
  · have he := m.get?_erase k k'
    simp only [get?, h, if_false] at he
    simp [insert, get?, Ne.symm h, h, he]

end FinMap
end EntityWorld
