import EntityWorld.World.Value
set_option autoImplicit false

/-!
What the operations of a column do to its rows. Removing a row is the same operation on the
values of every column and on the entities of the table: the last element goes to the hole.
-/
namespace EntityWorld

/-- The array without the element at `row`, the last element in its place. -/
def swapRemoved {α : Type} (xs : Array α) (row : Nat) : Array α :=
  match xs.back? with
  | some last => if row + 1 < xs.size then (xs.setIfInBounds row last).pop else xs.pop
  | none => xs

theorem size_swapRemoved {α : Type} (xs : Array α) (row : Nat) :
    (swapRemoved xs row).size = xs.size - 1 := by
  unfold swapRemoved
  cases hb : xs.back? with
  | none => simp [Array.back?_eq_none_iff.1 hb]
  | some last => by_cases h : row + 1 < xs.size <;> simp [h]

theorem getElem?_swapRemoved {α : Type} {xs : Array α} {row : Nat} (h : row < xs.size) (i : Nat) :
    (swapRemoved xs row)[i]? =
      if i + 1 < xs.size then if i = row then xs[xs.size - 1]? else xs[i]? else none := by
  unfold swapRemoved
  rw [Array.back?_eq_getElem?]
  obtain ⟨last, hlast⟩ : ∃ x, xs[xs.size - 1]? = some x :=
    ⟨_, Array.getElem?_eq_getElem (by omega)⟩
  rw [hlast]
  by_cases hr : row + 1 < xs.size
  · simp only [hr, if_true, Array.getElem?_pop, Array.size_setIfInBounds,
      Array.getElem?_setIfInBounds, h]
    by_cases hi : i + 1 < xs.size
    · rw [if_pos (by omega), if_pos hi]
      simp only [eq_comm]
    · rw [if_neg (by omega), if_neg hi]
  · simp only [hr, if_false, Array.getElem?_pop]
    by_cases hi : i + 1 < xs.size
    · rw [if_pos (by omega), if_pos hi, if_neg (by omega)]
    · rw [if_neg (by omega), if_neg hi]

namespace Column

variable (c : Column) (row : Nat) (v : Value) (arrival : List HookEvent)

@[simp] theorem type_reserve (n : Nat) : (c.reserve n).1.type = c.type := by
  simp only [reserve]
  split <;> rfl

@[simp] theorem type_push : (c.push v arrival).1.type = c.type := by simp [push]

@[simp] theorem rows_push : (c.push v arrival).1.rows = c.rows.push v := by
  simp [push, rows_reserve]

@[simp] theorem type_assign : (c.assign row v arrival).1.type = c.type := by
  unfold assign
  split <;> rfl

@[simp] theorem rows_assign : (c.assign row v arrival).1.rows = c.rows.setIfInBounds row v := by
  unfold assign
  split
  · rfl
  · next h =>
    have hs : c.rows.size ≤ row := Array.getElem?_eq_none_iff.1 h
    simp [Array.setIfInBounds, Nat.not_lt.2 hs]

@[simp] theorem type_fillHole : (c.fillHole row).1.type = c.type := by
  unfold fillHole
  split
  · split <;> rfl
  · rfl

theorem rows_fillHole : (c.fillHole row).1.rows = swapRemoved c.rows row := by
  unfold fillHole swapRemoved
  cases c.rows.back? with
  | none => rfl
  | some last => by_cases h : row + 1 < c.rows.size <;> simp [size, h]

@[simp] theorem type_swapRemove : (c.swapRemove row).1.type = c.type := by
  unfold swapRemove
  split
  · simp
  · rfl

variable {row}

theorem rows_swapRemove (h : row < c.size) :
    (c.swapRemove row).1.rows = swapRemoved c.rows row := by
  obtain ⟨v, hv⟩ : ∃ v, c.rows[row]? = some v := ⟨_, Array.getElem?_eq_getElem h⟩
  simp only [swapRemove, hv, rows_fillHole]

theorem swapRemoveInto_fst (dst : Column) :
    (c.swapRemoveInto row dst).1 = (c.swapRemove row).1 := by
  unfold swapRemoveInto swapRemove
  cases c.rows[row]? <;> rfl

@[simp] theorem type_swapRemoveInto (dst : Column) :
    (c.swapRemoveInto row dst).2.1.type = dst.type := by
  unfold swapRemoveInto
  cases c.rows[row]? <;> simp [pushMove]

theorem rows_swapRemoveInto (dst : Column) :
    (c.swapRemoveInto row dst).2.1.rows =
      match c.rows[row]? with
      | some v => dst.rows.push v
      | none => dst.rows := by
  unfold swapRemoveInto
  cases c.rows[row]? <;> simp [pushMove]

@[simp] theorem type_pushDefault : c.pushDefault.2.1.type = c.type := by
  unfold pushDefault
  split <;> simp

theorem rows_pushDefault {events : List HookEvent} (h : c.type.default? = some (v, events)) :
    c.pushDefault.2.1.rows = c.rows.push v := by
  simp [pushDefault, h]

end Column

namespace Transfer

variable (how : Transfer) (c : Column) (v : Value)

@[simp] theorem type_push : (how.push c v).1.type = c.type := by
  cases how <;> simp [push, Column.pushMove, Column.pushCopy]

@[simp] theorem rows_push : (how.push c v).1.rows = c.rows.push v := by
  cases how <;> simp [push, Column.pushMove, Column.pushCopy]

@[simp] theorem type_assign (row : Nat) : (how.assign c row v).1.type = c.type := by
  cases how <;> simp [assign, Column.assignMove, Column.assignCopy]

@[simp] theorem rows_assign (row : Nat) :
    (how.assign c row v).1.rows = c.rows.setIfInBounds row v := by
  cases how <;> simp [assign, Column.assignMove, Column.assignCopy]

end Transfer
end EntityWorld
