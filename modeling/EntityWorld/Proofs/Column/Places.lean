import EntityWorld.Proofs.Column
import Mathlib.Logic.Function.Basic
set_option autoImplicit false

/-!
Columns in memory. A column keeps its rows in the first cells of a place; when they outgrow it, they
are carried to a larger place, one after the other. Cell by cell, every call of a column does what
it does on the array of rows: it reads no vacant cell, writes over no value, and gives up no place
that still has a value in it. A call that memory has no room for does not come back.
-/
namespace EntityWorld

def swapOut {α : Type} (xs : List α) (row : Nat) : List α :=
  match xs.getLast? with
  | some last => (xs.set row last).dropLast
  | none => []

theorem length_swapOut {α : Type} (xs : List α) (row : Nat) :
    (swapOut xs row).length = xs.length - 1 := by
  unfold swapOut
  cases h : xs.getLast? with
  | none => simp [List.getLast?_eq_none_iff.1 h]
  | some last => simp

theorem getElem?_swapOut {α : Type} {xs : List α} {row : Nat} (h : row < xs.length) (i : Nat) :
    (swapOut xs row)[i]? =
      if i + 1 < xs.length then if i = row then xs[xs.length - 1]? else xs[i]? else none := by
  unfold swapOut
  rw [List.getLast?_eq_getElem?]
  obtain ⟨last, hlast⟩ : ∃ x, xs[xs.length - 1]? = some x :=
    ⟨_, List.getElem?_eq_getElem (by omega)⟩
  rw [hlast]
  simp only [List.getElem?_dropLast, List.length_set, List.getElem?_set, h, if_true]
  by_cases hi : i + 1 < xs.length
  · rw [if_pos (by omega), if_pos hi]
    simp only [eq_comm]
  · rw [if_neg (by omega), if_neg hi]

theorem toList_swapRemoved {α : Type} {xs : Array α} {row : Nat} (h : row < xs.size) :
    (swapRemoved xs row).toList = swapOut xs.toList row := by
  refine List.ext_getElem? fun i => ?_
  rw [Array.getElem?_toList, getElem?_swapRemoved h, getElem?_swapOut (by simpa using h)]
  simp

/-- Why a call does not come back: there is no room for what it needs, or it used a cell that is
not in the state for that. -/
inductive Fault where
  | exhausted
  | misused
  deriving DecidableEq, Repr

/-- What becomes of a value: it is carried to the same row of a larger place, or a hook is called
on it. -/
inductive Deed where
  | carried (row : Nat) (v : Value)
  | called (event : HookEvent)

namespace Deed

def event? : Deed → Option HookEvent
  | carried _ _ => none
  | called event => some event

theorem filterMap_event?_called (events : List HookEvent) :
    (events.map called).filterMap event? = events := by
  rw [List.filterMap_map]
  exact List.filterMap_some

end Deed

structure Place where
  capacity : Nat
  cell : Nat → Option Value

namespace TypeDescriptor

/-- No place has more bytes than half of the address space. -/
def maxBytes : Nat := 0x7fffffffffffffff

def HasPlace (d : TypeDescriptor) (n : Nat) : Prop := d.size * n + (d.align - 1) ≤ maxBytes

instance (d : TypeDescriptor) (n : Nat) : Decidable (d.HasPlace n) := Nat.decLe _ _

def carrying (d : TypeDescriptor) (row : Nat) (v : Value) : List Deed :=
  .carried row v :: (d.moveEvents v).map .called

theorem filterMap_event?_carrying (d : TypeDescriptor) (row : Nat) (v : Value) :
    (d.carrying row v).filterMap Deed.event? = d.moveEvents v := by
  rw [carrying, List.filterMap_cons_none rfl, Deed.filterMap_event?_called]

end TypeDescriptor

namespace Place

def vacant (capacity : Nat) : Place := ⟨capacity, fun _ => none⟩

/-- The rows are in the first cells, and the other cells are vacant. -/
def ofRows (capacity : Nat) (rows : List Value) : Place := ⟨capacity, fun i => rows[i]?⟩

@[simp] theorem capacity_ofRows (n : Nat) (rows : List Value) : (ofRows n rows).capacity = n := rfl

theorem ofRows_nil (n : Nat) : ofRows n [] = vacant n := by simp [vacant, ofRows]

def take (p : Place) (i : Nat) : Except Fault (Value × Place) :=
  match p.cell i with
  | some v =>
    if i < p.capacity then .ok (v, { p with cell := Function.update p.cell i none })
    else .error .misused
  | none => .error .misused

def put (p : Place) (i : Nat) (v : Value) : Except Fault Place :=
  if i < p.capacity ∧ p.cell i = none then
    .ok { p with cell := Function.update p.cell i (some v) }
  else .error .misused

/-- A place is given up only when all of its values are gone. -/
def giveUp (p : Place) : Except Fault Unit :=
  if ∀ i < p.capacity, p.cell i = none then .ok () else .error .misused

def carry (d : TypeDescriptor) : List Nat → Place → Place → Except Fault (Place × Place × List Deed)
  | [], old, new => .ok (old, new, [])
  | row :: rows, old, new => do
    let (v, old) ← old.take row
    let new ← new.put row v
    let (old, new, deeds) ← carry d rows old new
    return (old, new, d.carrying row v ++ deeds)

def drop (d : TypeDescriptor) : List Nat → Place → Except Fault (Place × List HookEvent)
  | [], p => .ok (p, [])
  | row :: rows, p => do
    let (v, p) ← p.take row
    let (p, events) ← drop d rows p
    return (p, d.dropEvents v ++ events)

variable {p : Place} {d : TypeDescriptor} {done rest rows : List Value} {i m n : Nat} {v : Value}

theorem take_eq (hi : i < p.capacity) (hv : p.cell i = some v) :
    p.take i = .ok (v, { p with cell := Function.update p.cell i none }) := by
  simp [take, hi, hv]

theorem put_eq (hi : i < p.capacity) (hv : p.cell i = none) :
    p.put i v = .ok { p with cell := Function.update p.cell i (some v) } := by
  simp [put, hi, hv]

@[simp] theorem giveUp_vacant (n : Nat) : (vacant n).giveUp = .ok () := by simp [giveUp, vacant]

def without (capacity done : Nat) (rows : List Value) : Place :=
  ⟨capacity, fun i => if i < done then none else rows[i]?⟩

theorem without_zero (n : Nat) (rows : List Value) : without n 0 rows = ofRows n rows := by
  simp [without, ofRows]

theorem without_length (n : Nat) (rows : List Value) : without n rows.length rows = vacant n := by
  simp only [without, vacant, Place.mk.injEq, true_and]
  funext i
  by_cases hi : i < rows.length <;> simp [hi]

theorem take_without (hn : (done ++ v :: rest).length ≤ n) :
    (without n done.length (done ++ v :: rest)).take done.length =
      .ok (v, without n (done ++ [v]).length (done ++ [v] ++ rest)) := by
  simp only [List.length_append, List.length_cons] at hn
  rw [take_eq (v := v) (show done.length < n by omega) (by simp [without])]
  simp only [without, Except.ok.injEq, Prod.mk.injEq, Place.mk.injEq, true_and]
  funext i
  by_cases hi : i = done.length
  · simp [hi]
  · have hlt : i < done.length + 1 ↔ i < done.length := by omega
    simp [hi, hlt]

theorem put_ofRows (hn : rows.length < n) :
    (ofRows n rows).put rows.length v = .ok (ofRows n (rows ++ [v])) := by
  rw [put_eq hn (by simp [ofRows])]
  simp only [ofRows, Except.ok.injEq, Place.mk.injEq, true_and]
  funext i
  by_cases hi : i = rows.length
  · simp [hi]
  · obtain hlt | hlt := Nat.lt_or_gt_of_ne hi
    · simp [hi, List.getElem?_append_left hlt]
    · rw [Function.update_of_ne hi, List.getElem?_eq_none (by omega),
        List.getElem?_eq_none (by simp; omega)]

/-- Every row is carried once, in row order. The rows in `done` are there already. -/
theorem carry_without (d : TypeDescriptor) (done : List Value) (hm : (done ++ rest).length ≤ m)
    (hn : (done ++ rest).length ≤ n) :
    carry d (List.range' done.length rest.length) (without m done.length (done ++ rest))
        (ofRows n done) =
      .ok (vacant m, ofRows n (done ++ rest),
        (rest.zipIdx done.length).flatMap fun x => d.carrying x.2 x.1) := by
  induction rest generalizing done with
  | nil => simp [carry, without_length]
  | cons v rest ih =>
    have hput : done.length < n := by
      simp only [List.length_append, List.length_cons] at hn
      omega
    have hrest := ih (done ++ [v]) (by simpa using hm) (by simpa using hn)
    rw [List.length_append, List.length_singleton] at hrest
    rw [List.length_cons, List.range'_succ, carry, take_without hm]
    simp only [bind, Except.bind, put_ofRows hput, List.length_append, List.length_singleton, hrest]
    simp [pure, Except.pure, List.zipIdx_cons]

theorem drop_without (d : TypeDescriptor) (done : List Value) (hn : (done ++ rest).length ≤ n) :
    drop d (List.range' done.length rest.length) (without n done.length (done ++ rest)) =
      .ok (vacant n, rest.flatMap d.dropEvents) := by
  induction rest generalizing done with
  | nil => simp [drop, without_length]
  | cons v rest ih =>
    have hrest := ih (done ++ [v]) (by simpa using hn)
    rw [List.length_append, List.length_singleton] at hrest
    rw [List.length_cons, List.range'_succ, drop, take_without hn]
    simp only [bind, Except.bind, List.length_append, List.length_singleton, hrest]
    simp [pure, Except.pure]

theorem carry_ofRows (d : TypeDescriptor) (hm : rows.length ≤ m) (hn : rows.length ≤ n) :
    carry d (List.range rows.length) (ofRows m rows) (vacant n) =
      .ok (vacant m, ofRows n rows, rows.zipIdx.flatMap fun x => d.carrying x.2 x.1) := by
  rw [List.range_eq_range', ← without_zero, ← ofRows_nil]
  exact carry_without d [] hm hn

theorem drop_ofRows (d : TypeDescriptor) (hn : rows.length ≤ n) :
    drop d (List.range rows.length) (ofRows n rows) =
      .ok (vacant n, rows.flatMap d.dropEvents) := by
  rw [List.range_eq_range', ← without_zero]
  exact drop_without d [] hn

/-! ### A cell without its value -/

def hole (capacity row : Nat) (rows : List Value) : Place :=
  ⟨capacity, Function.update (fun i => rows[i]?) row none⟩

theorem take_ofRows (hn : rows.length ≤ n) (hv : rows[i]? = some v) :
    (ofRows n rows).take i = .ok (v, hole n i rows) := by
  have hi : i < rows.length := (List.getElem?_eq_some_iff.1 hv).1
  exact take_eq (Nat.lt_of_lt_of_le hi hn) hv

theorem put_hole (hn : rows.length ≤ n) (hi : i < rows.length) :
    (hole n i rows).put i v = .ok (ofRows n (rows.set i v)) := by
  rw [put_eq (Nat.lt_of_lt_of_le hi hn) (by simp [hole])]
  simp only [hole, ofRows, Function.update_idem, Except.ok.injEq, Place.mk.injEq, true_and]
  funext j
  by_cases hj : j = i
  · simp [hj, hi]
  · simp [hj, List.getElem?_set_ne (Ne.symm hj)]

theorem take_hole {row : Nat} (hn : rows.length ≤ n) (hrow : row < rows.length - 1)
    (hv : rows[rows.length - 1]? = some v) :
    ∃ p, (hole n row rows).take (rows.length - 1) = .ok (v, p) ∧
      p.put row v = .ok (ofRows n (swapOut rows row)) := by
  have hne : rows.length - 1 ≠ row := by omega
  refine ⟨_, take_eq (v := v) (show rows.length - 1 < n by omega) (by simp [hole, hne, hv]), ?_⟩
  rw [put_eq (show row < n by omega) (by simp [hole, hne.symm])]
  simp only [hole, ofRows, Except.ok.injEq, Place.mk.injEq, true_and]
  funext j
  rw [getElem?_swapOut (by omega)]
  by_cases hj : j = row
  · subst hj
    rw [Function.update_self, if_pos (by omega), if_pos rfl, hv]
  · rw [Function.update_of_ne hj, if_neg hj]
    by_cases hlast : j = rows.length - 1
    · rw [hlast, Function.update_self, if_neg (by omega)]
    · rw [Function.update_of_ne hlast, Function.update_of_ne hj]
      split
      · rfl
      · exact List.getElem?_eq_none (by omega)

theorem hole_last {row : Nat} (hrow : row + 1 = rows.length) :
    hole n row rows = ofRows n (swapOut rows row) := by
  simp only [hole, ofRows, Place.mk.injEq, true_and]
  funext j
  rw [getElem?_swapOut (by omega)]
  by_cases hj : j = row
  · rw [hj, Function.update_self, if_neg (by omega)]
  · rw [Function.update_of_ne hj, if_neg hj]
    split
    · rfl
    · exact List.getElem?_eq_none (by omega)

end Place
end EntityWorld
