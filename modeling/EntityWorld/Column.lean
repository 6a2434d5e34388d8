import EntityWorld.Schema.Descriptor
set_option autoImplicit false

/-!
Columns: the values of one type for the rows of a table. A column is a list of values with a
capacity; outgrowing the capacity moves every value to a larger place.
-/
namespace EntityWorld

structure Column where
  type : TypeDescriptor
  rows : Array Value
  capacity : Nat

namespace Column

/-- The largest capacity; values of size zero need no place and have it from the start. -/
def maxCapacity : Nat := 0xffffffffffffffff

def new (d : TypeDescriptor) : Column := ⟨d, #[], if d.size = 0 then maxCapacity else 0⟩

def size (c : Column) : Nat := c.rows.size

def grownCapacity (capacity required : Nat) : Nat :=
  max (max (min (2 * capacity) maxCapacity) required) 4

/-- Make room for `additional` more values; if that takes a larger place, every row moves. -/
def reserve (c : Column) (additional : Nat) : Column × List HookEvent :=
  let required := min (c.size + additional) maxCapacity
  if required > c.capacity then
    ({ c with capacity := grownCapacity c.capacity required },
      c.rows.toList.flatMap c.type.moveEvents)
  else (c, [])

/-- Put `v` at the end; `arrival` tells how it came there. -/
def push (c : Column) (v : Value) (arrival : List HookEvent) : Column × List HookEvent :=
  let (c, growth) := c.reserve 1
  ({ c with rows := c.rows.push v }, growth ++ arrival)

def pushCopy (c : Column) (v : Value) : Column × List HookEvent := c.push v (c.type.copyEvents v)

def pushMove (c : Column) (v : Value) : Column × List HookEvent := c.push v (c.type.moveEvents v)

/-- Room is made before it is known whether the type has a default. -/
def pushDefault (c : Column) : Except SchemaError Unit × Column × List HookEvent :=
  match c.type.default? with
  | some (v, arrival) => (.ok (), c.push v arrival)
  | none => (.error (.noDefault c.type.path), c.reserve 1)

/-- Destroy the value in `row` and put `v` in its place. -/
def assign (c : Column) (row : Nat) (v : Value) (arrival : List HookEvent) :
    Column × List HookEvent :=
  match c.rows[row]? with
  | some old => ({ c with rows := c.rows.setIfInBounds row v }, c.type.dropEvents old ++ arrival)
  | none => (c, [])

def assignCopy (c : Column) (row : Nat) (v : Value) : Column × List HookEvent :=
  c.assign row v (c.type.copyEvents v)

def assignMove (c : Column) (row : Nat) (v : Value) : Column × List HookEvent :=
  c.assign row v (c.type.moveEvents v)

/-- Shorten the column by one and fill `row`, whose value is gone, with the last value. -/
def fillHole (c : Column) (row : Nat) : Column × List HookEvent :=
  match c.rows.back? with
  | some last =>
    if row + 1 < c.size then
      ({ c with rows := (c.rows.setIfInBounds row last).pop }, c.type.moveEvents last)
    else ({ c with rows := c.rows.pop }, [])
  | none => (c, [])

def swapRemove (c : Column) (row : Nat) : Column × List HookEvent :=
  match c.rows[row]? with
  | some old =>
    let (c', filling) := c.fillHole row
    (c', c.type.dropEvents old ++ filling)
  | none => (c, [])

def swapRemoveInto (c : Column) (row : Nat) (dst : Column) : Column × Column × List HookEvent :=
  match c.rows[row]? with
  | some v =>
    let (dst, arrival) := dst.pushMove v
    let (c, filling) := c.fillHole row
    (c, dst, arrival ++ filling)
  | none => (c, dst, [])

def clear (c : Column) : Column × List HookEvent :=
  ({ c with rows := #[] }, c.rows.toList.flatMap c.type.dropEvents)

def inspect (c : Column) : String :=
  s!"Column \x7b type: {Text.quote c.type.path}, len: {c.size}, capacity: {c.capacity} \x7d"

theorem toList_push (c : Column) (v : Value) (arrival : List HookEvent) :
    (c.push v arrival).1.rows.toList = c.rows.toList ++ [v] := by
  simp only [push, reserve]
  split <;> simp

theorem rows_reserve (c : Column) (n : Nat) : (c.reserve n).1.rows = c.rows := by
  simp only [reserve]
  split <;> rfl

end Column
end EntityWorld
