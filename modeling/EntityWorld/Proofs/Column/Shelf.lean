import EntityWorld.Proofs.Column.Places
set_option autoImplicit false

/-!
What the calls of a column do to its place, and that it is the same as what they do to its rows. A
column with as many cells as it says it has outgrows its place only when more rows than that are
needed. The rows are carried then, and in no other case.
-/
namespace EntityWorld

namespace Column

variable {c : Column} {additional : Nat}

def needed (c : Column) (additional : Nat) : Nat := min (c.size + additional) maxCapacity

def Outgrown (c : Column) (additional : Nat) : Prop := c.capacity < c.needed additional

instance (c : Column) (additional : Nat) : Decidable (c.Outgrown additional) := Nat.decLt _ _

def HasRoom (c : Column) (additional : Nat) : Prop :=
  c.Outgrown additional → c.type.HasPlace (grownCapacity c.capacity (c.needed additional))

instance (c : Column) (additional : Nat) : Decidable (c.HasRoom additional) :=
  inferInstanceAs (Decidable (_ → _))

def growth (c : Column) (additional : Nat) : List Deed :=
  if c.Outgrown additional then
    c.rows.toList.zipIdx.flatMap fun x => c.type.carrying x.2 x.1
  else []

theorem filterMap_event?_flatMap (d : TypeDescriptor) (rows : List Value) (start : Nat) :
    ((rows.zipIdx start).flatMap fun x => d.carrying x.2 x.1).filterMap Deed.event? =
      rows.flatMap d.moveEvents := by
  induction rows generalizing start with
  | nil => rfl
  | cons v rows ih =>
    rw [List.zipIdx_cons, List.flatMap_cons, List.flatMap_cons, List.filterMap_append, ih,
      TypeDescriptor.filterMap_event?_carrying]

theorem reserve_eq (c : Column) (additional : Nat) : c.reserve additional =
    ({ c with capacity := if c.Outgrown additional then
        grownCapacity c.capacity (c.needed additional) else c.capacity },
      (c.growth additional).filterMap Deed.event?) := by
  by_cases h : c.Outgrown additional
  · simp only [growth, if_pos h, filterMap_event?_flatMap]
    exact if_pos h
  · simp only [growth, if_neg h, List.filterMap_nil]
    exact if_neg h

theorem push_snd (c : Column) (v : Value) (arrival : List HookEvent) :
    (c.push v arrival).2 = (c.growth 1).filterMap Deed.event? ++ arrival := by
  simp only [push, reserve_eq]

@[simp] theorem capacity_assign (c : Column) (row : Nat) (v : Value) (arrival : List HookEvent) :
    (c.assign row v arrival).1.capacity = c.capacity := by
  unfold assign
  split <;> rfl

@[simp] theorem capacity_fillHole (c : Column) (row : Nat) :
    (c.fillHole row).1.capacity = c.capacity := by
  unfold fillHole
  split
  · split <;> rfl
  · rfl

@[simp] theorem capacity_swapRemove (c : Column) (row : Nat) :
    (c.swapRemove row).1.capacity = c.capacity := by
  unfold swapRemove
  split
  · exact capacity_fillHole c row
  · rfl

theorem needed_le_capacity (c : Column) (additional : Nat) :
    c.needed additional ≤ (c.reserve additional).1.capacity := by
  rw [reserve_eq]
  by_cases h : c.Outgrown additional
  · simp only [if_pos h, grownCapacity]
    omega
  · simp only [if_neg h]
    exact Nat.le_of_not_lt h

/-! ### Columns that have the place they say they have -/

/-- The rows are no more than the cells of a place that memory can have; values of size zero need
no memory and have all the cells that can be numbered. -/
structure Housed (c : Column) : Prop where
  size_le : c.size ≤ c.capacity
  place : c.type.size = 0 ∧ c.capacity = maxCapacity ∨
    0 < c.type.size ∧ (c.capacity = 0 ∨ c.type.HasPlace c.capacity)

theorem housed_new (d : TypeDescriptor) : (new d).Housed := by
  refine ⟨Nat.zero_le _, ?_⟩
  by_cases hd : d.size = 0
  · exact .inl ⟨hd, if_pos hd⟩
  · exact .inr ⟨Nat.pos_of_ne_zero hd, .inl (if_neg hd)⟩

theorem le_maxBytes_of_hasPlace {d : TypeDescriptor} {n : Nat} (hd : 0 < d.size)
    (h : d.HasPlace n) : n ≤ TypeDescriptor.maxBytes :=
  calc n ≤ d.size * n := Nat.le_mul_of_pos_left n hd
    _ ≤ TypeDescriptor.maxBytes := Nat.le_trans (Nat.le_add_right _ _) h

namespace Housed

theorem capacity_cases (h : c.Housed) : c.type.size = 0 ∧ c.capacity = maxCapacity ∨
    0 < c.type.size ∧ 2 * c.capacity ≤ maxCapacity := by
  obtain hzero | ⟨hsize, hnone | hplace⟩ := h.place
  · exact .inl hzero
  · exact .inr ⟨hsize, by simp [hnone]⟩
  · have hle := le_maxBytes_of_hasPlace hsize hplace
    simp only [TypeDescriptor.maxBytes] at hle
    exact .inr ⟨hsize, by simp only [maxCapacity]; omega⟩

theorem size_le_maxCapacity (h : c.Housed) : c.size ≤ maxCapacity := by
  have hle := h.size_le
  obtain ⟨-, hmax⟩ | ⟨-, hdouble⟩ := h.capacity_cases <;> omega

theorem size_pos_of_outgrown (h : c.Housed) (ho : c.Outgrown additional) : 0 < c.type.size := by
  obtain ⟨-, hmax⟩ | ⟨hsize, -⟩ := h.capacity_cases
  · have hle : c.needed additional ≤ maxCapacity := Nat.min_le_right _ _
    simp only [Outgrown, hmax] at ho
    omega
  · exact hsize

theorem not_outgrown_zero (h : c.Housed) : ¬ c.Outgrown 0 := by
  have hle := h.size_le
  simp only [Outgrown, needed]
  omega

theorem reserve_zero (h : c.Housed) : c.reserve 0 = (c, []) := if_neg h.not_outgrown_zero

theorem growth_zero (h : c.Housed) : c.growth 0 = [] := if_neg h.not_outgrown_zero

theorem grownCapacity_eq (h : c.Housed) (ho : c.Outgrown additional) :
    grownCapacity c.capacity (c.needed additional) =
      max (max (2 * c.capacity) (c.needed additional)) 4 := by
  obtain ⟨hzero, -⟩ | ⟨-, hle⟩ := h.capacity_cases
  · exact absurd hzero (Nat.ne_of_gt (h.size_pos_of_outgrown ho))
  · rw [grownCapacity, Nat.min_eq_left hle]

theorem reserve (h : c.Housed) (hroom : c.HasRoom additional) :
    (c.reserve additional).1.Housed := by
  rw [reserve_eq]
  by_cases ho : c.Outgrown additional
  · have hle := h.size_le
    refine ⟨?_, .inr ⟨h.size_pos_of_outgrown ho, .inr ?_⟩⟩
    · simp only [if_pos ho, grownCapacity, size] at hle ⊢
      simp only [Outgrown] at ho
      omega
    · simpa [ho] using hroom ho
  · simpa [ho] using h

end Housed
end Column

/-! ### The calls, cell by cell -/

structure Shelf where
  type : TypeDescriptor
  place : Place
  size : Nat

namespace Shelf

def grow (s : Shelf) (required : Nat) : Except Fault (Shelf × List Deed) :=
  let capacity := Column.grownCapacity s.place.capacity required
  if s.type.HasPlace capacity then do
    let (old, new, deeds) ← Place.carry s.type (List.range s.size) s.place (.vacant capacity)
    old.giveUp
    return ({ s with place := new }, deeds)
  else .error .exhausted

def reserve (s : Shelf) (additional : Nat) : Except Fault (Shelf × List Deed) :=
  let required := min (s.size + additional) Column.maxCapacity
  if required > s.place.capacity then s.grow required else .ok (s, [])

def append (s : Shelf) (v : Value) (arrival : List HookEvent) : Except Fault (Shelf × List Deed) :=
  if s.size < Column.maxCapacity then do
    let place ← s.place.put s.size v
    return ({ s with place, size := s.size + 1 }, arrival.map .called)
  else .error .exhausted

def push (s : Shelf) (v : Value) (arrival : List HookEvent) : Except Fault (Shelf × List Deed) := do
  let (s, growth) ← s.reserve 1
  let (s, deeds) ← s.append v arrival
  return (s, growth ++ deeds)

def pushDefault (s : Shelf) : Except Fault (Except SchemaError Unit × Shelf × List Deed) := do
  let (s, growth) ← s.reserve 1
  match s.type.default? with
  | some (v, arrival) =>
    let (s, deeds) ← s.append v arrival
    return (.ok (), s, growth ++ deeds)
  | none => return (.error (.noDefault s.type.path), s, growth)

def assign (s : Shelf) (row : Nat) (v : Value) (arrival : List HookEvent) :
    Except Fault (Shelf × List Deed) := do
  let (old, place) ← s.place.take row
  let place ← place.put row v
  return ({ s with place }, (s.type.dropEvents old ++ arrival).map .called)

def fillHole (s : Shelf) (row : Nat) : Except Fault (Shelf × List Deed) :=
  let last := s.size - 1
  if row < last then do
    let (v, place) ← s.place.take last
    let place ← place.put row v
    return ({ s with place, size := last }, (s.type.moveEvents v).map .called)
  else .ok ({ s with size := last }, [])

def swapRemove (s : Shelf) (row : Nat) : Except Fault (Shelf × List Deed) := do
  let (old, place) ← s.place.take row
  let (s, filling) ← { s with place }.fillHole row
  return (s, (s.type.dropEvents old).map .called ++ filling)

def swapRemoveInto (s : Shelf) (row : Nat) (dst : Shelf) :
    Except Fault (Shelf × Shelf × List Deed) := do
  let (dst, growth) ← dst.reserve 1
  let (v, place) ← s.place.take row
  let (dst, arrival) ← dst.append v (dst.type.moveEvents v)
  let (s, filling) ← { s with place }.fillHole row
  return (s, dst, growth ++ arrival ++ filling)

def clear (s : Shelf) : Except Fault (Shelf × List Deed) := do
  let (place, events) ← Place.drop s.type (List.range s.size) s.place
  return ({ s with place, size := 0 }, events.map .called)

end Shelf

namespace Column

variable {c dst : Column} {additional row : Nat} {v : Value} {arrival : List HookEvent}

def shelf (c : Column) : Shelf := ⟨c.type, .ofRows c.capacity c.rows.toList, c.size⟩

theorem grow_shelf {required : Nat} (hsize : c.size ≤ c.capacity) (hmore : c.size ≤ required)
    (hplace : c.type.HasPlace (grownCapacity c.capacity required)) :
    c.shelf.grow required =
      .ok ({ c with capacity := grownCapacity c.capacity required }.shelf,
        c.rows.toList.zipIdx.flatMap fun x => c.type.carrying x.2 x.1) := by
  have hlarge : c.size ≤ grownCapacity c.capacity required := by
    simp only [grownCapacity]
    omega
  have hcarry : Place.carry c.type (List.range c.size) (.ofRows c.capacity c.rows.toList) _ = _ :=
    Place.carry_ofRows c.type hsize hlarge
  simp only [Shelf.grow, shelf, Place.capacity_ofRows, if_pos hplace, hcarry, bind, Except.bind,
    Place.giveUp_vacant]
  rfl

theorem reserve_shelf (h : c.Housed) (hroom : c.HasRoom additional) :
    c.shelf.reserve additional = .ok ((c.reserve additional).1.shelf, c.growth additional) := by
  rw [reserve_eq, growth]
  by_cases ho : c.Outgrown additional
  · have hmore : c.size ≤ c.needed additional := Nat.le_trans h.size_le (Nat.le_of_lt ho)
    rw [if_pos ho, if_pos ho]
    exact (if_pos ho).trans (grow_shelf h.size_le hmore (hroom ho))
  · rw [if_neg ho, if_neg ho]
    exact if_neg ho

theorem reserve_exhausted (hroom : ¬ c.HasRoom additional) :
    c.shelf.reserve additional = .error .exhausted := by
  obtain ⟨ho, hplace⟩ := Classical.not_imp.1 hroom
  exact (if_pos ho).trans (if_neg hplace)

theorem append_shelf (hcell : c.size < c.capacity) (hcount : c.size < maxCapacity) :
    c.shelf.append v arrival =
      .ok ({ c with rows := c.rows.push v }.shelf, arrival.map .called) := by
  have hput : (Place.ofRows c.capacity c.rows.toList).put c.size v = .ok _ :=
    Place.put_ofRows hcell
  simp only [Shelf.append, shelf, if_pos hcount, hput, bind, Except.bind]
  simp [pure, Except.pure, size]

theorem append_exhausted (hcount : ¬ c.size < maxCapacity) :
    c.shelf.append v arrival = .error .exhausted := if_neg hcount

theorem append_reserve (hcount : c.size < maxCapacity) :
    (c.reserve 1).1.shelf.append v arrival =
      .ok ((c.push v arrival).1.shelf, arrival.map .called) := by
  have hneeded := c.needed_le_capacity 1
  rw [needed, Nat.min_eq_left hcount] at hneeded
  have hsize : (c.reserve 1).1.size = c.size := congrArg Array.size (c.rows_reserve 1)
  rw [← hsize] at hneeded hcount
  exact append_shelf hneeded hcount

theorem append_reserve_exhausted (hcount : ¬ c.size < maxCapacity) :
    (c.reserve 1).1.shelf.append v arrival = .error .exhausted := by
  have hsize : (c.reserve 1).1.size = c.size := congrArg Array.size (c.rows_reserve 1)
  rw [← hsize] at hcount
  exact append_exhausted hcount

theorem push_shelf (h : c.Housed) (hroom : c.HasRoom 1) (hcount : c.size < maxCapacity) :
    c.shelf.push v arrival =
      .ok ((c.push v arrival).1.shelf, c.growth 1 ++ arrival.map .called) := by
  rw [Shelf.push, reserve_shelf h hroom]
  simp only [bind, Except.bind, append_reserve hcount]
  rfl

theorem push_exhausted (h : c.Housed) (hno : ¬ (c.HasRoom 1 ∧ c.size < maxCapacity)) :
    c.shelf.push v arrival = .error .exhausted := by
  by_cases hroom : c.HasRoom 1
  · have hcount : ¬ c.size < maxCapacity := fun hcount => hno ⟨hroom, hcount⟩
    rw [Shelf.push, reserve_shelf h hroom]
    simp only [bind, Except.bind, append_reserve_exhausted hcount]
  · rw [Shelf.push, reserve_exhausted hroom]
    rfl

theorem pushDefault_shelf (h : c.Housed) (hroom : c.HasRoom 1) (hcount : c.size < maxCapacity) :
    ∃ own, c.shelf.pushDefault = .ok (c.pushDefault.1, c.pushDefault.2.1.shelf,
        c.growth 1 ++ own.map .called) ∧
      c.pushDefault.2.2 = (c.growth 1).filterMap Deed.event? ++ own := by
  have htype : (c.reserve 1).1.shelf.type = c.type := type_reserve c 1
  simp only [Shelf.pushDefault, reserve_shelf h hroom, htype, bind, Except.bind, pushDefault]
  cases c.type.default? with
  | some made =>
    obtain ⟨v, arrival⟩ := made
    refine ⟨arrival, ?_, push_snd c v arrival⟩
    simp only [append_reserve hcount]
    rfl
  | none =>
    refine ⟨[], ?_, (congrArg Prod.snd (reserve_eq c 1)).trans (List.append_nil _).symm⟩
    rw [List.map_nil, List.append_nil]
    rfl

theorem size_pos_of_default?_eq_none {d : TypeDescriptor} (hd : d.default? = none) :
    0 < d.size := by
  unfold TypeDescriptor.default? TypeDescriptor.canDefault at hd
  cases hdefault : d.hooks.default with
  | some v => simp [hdefault] at hd
  | none =>
    simp only [hdefault, Option.isSome_none, Bool.false_or, ite_eq_right_iff, reduceCtorEq,
      imp_false, Bool.or_eq_true, beq_iff_eq, not_or] at hd
    exact Nat.pos_of_ne_zero hd.2

theorem pushDefault_exhausted (h : c.Housed) (hno : ¬ (c.HasRoom 1 ∧ c.size < maxCapacity)) :
    c.shelf.pushDefault = .error .exhausted := by
  by_cases hroom : c.HasRoom 1
  · have hcount : ¬ c.size < maxCapacity := fun hcount => hno ⟨hroom, hcount⟩
    have htype : (c.reserve 1).1.shelf.type = c.type := type_reserve c 1
    simp only [Shelf.pushDefault, reserve_shelf h hroom, htype, bind, Except.bind]
    cases hd : c.type.default? with
    | some made => simp only [append_reserve_exhausted hcount]
    | none =>
      -- such a column cannot be full: its values have a size, so it runs out of bytes first
      have hpos := size_pos_of_default?_eq_none hd
      have hle := h.size_le
      have hcases := h.capacity_cases
      simp only [maxCapacity] at hcount hcases
      omega
  · rw [Shelf.pushDefault, reserve_exhausted hroom]
    rfl

theorem assign_shelf (h : c.Housed) (hrow : row < c.size) :
    c.shelf.assign row v arrival =
      .ok ((c.assign row v arrival).1.shelf, (c.assign row v arrival).2.map .called) := by
  obtain ⟨old, hold⟩ : ∃ v, c.rows[row]? = some v := ⟨_, Array.getElem?_eq_getElem hrow⟩
  have htake := Place.take_ofRows h.size_le (Array.getElem?_toList.trans hold)
  simp only [Shelf.assign, shelf, htake, Place.put_hole h.size_le hrow, bind, Except.bind, assign,
    hold, pure, Except.pure]
  simp [size]

theorem fillHole_eq {last : Value} (hlast : c.rows[c.rows.size - 1]? = some last) :
    c.fillHole row = ({ c with rows := swapRemoved c.rows row },
      if row < c.size - 1 then c.type.moveEvents last else []) := by
  have hback : c.rows.back? = some last := Array.back?_eq_getElem?.trans hlast
  have hend : row < c.size - 1 ↔ row + 1 < c.size := Nat.lt_sub_iff_add_lt
  rw [fillHole, swapRemoved, hback]
  by_cases hr : row + 1 < c.size
  · rw [if_pos (hend.2 hr)]
    exact (if_pos hr).trans (congrArg (fun rows => (Column.mk _ rows _, _)) (if_pos hr).symm)
  · rw [if_neg (mt hend.1 hr)]
    exact (if_neg hr).trans (congrArg (fun rows => (Column.mk _ rows _, _)) (if_neg hr).symm)

theorem take_shelf (h : c.Housed) (hrow : c.rows[row]? = some v) :
    c.shelf.place.take row = .ok (v, .hole c.capacity row c.rows.toList) :=
  Place.take_ofRows h.size_le (Array.getElem?_toList.trans hrow)

theorem fillHole_hole (h : c.Housed) (hrow : row < c.size) :
    Shelf.fillHole { c.shelf with place := .hole c.capacity row c.rows.toList } row =
      .ok ((c.fillHole row).1.shelf, (c.fillHole row).2.map .called) := by
  obtain ⟨last, hlast⟩ : ∃ v, c.rows[c.rows.size - 1]? = some v :=
    ⟨_, Array.getElem?_eq_getElem (show c.size - 1 < c.size by omega)⟩
  have hshelf : (c.fillHole row).1.shelf =
      ⟨c.type, .ofRows c.capacity (swapOut c.rows.toList row), c.size - 1⟩ := by
    simp only [fillHole_eq hlast, shelf, size, toList_swapRemoved hrow, size_swapRemoved]
  rw [hshelf, fillHole_eq hlast]
  by_cases hr : row < c.size - 1
  · obtain ⟨p, htake, hput⟩ := Place.take_hole h.size_le hr (Array.getElem?_toList.trans hlast)
    have htake' : Place.take _ (c.shelf.size - 1) = .ok (last, p) := htake
    have hr' : row < c.shelf.size - 1 := hr
    simp only [Shelf.fillHole, if_pos hr', htake', hput, bind, Except.bind, if_pos hr]
    rfl
  · have hend : row + 1 = c.rows.toList.length := by
      simp only [size] at hr hrow
      rw [Array.length_toList]
      omega
    have hr' : ¬ row < c.shelf.size - 1 := hr
    simp only [Shelf.fillHole, if_neg hr', if_neg hr, Place.hole_last hend]
    rfl

theorem swapRemove_shelf (h : c.Housed) (hrow : row < c.size) :
    c.shelf.swapRemove row =
      .ok ((c.swapRemove row).1.shelf, (c.swapRemove row).2.map .called) := by
  obtain ⟨old, hold⟩ : ∃ v, c.rows[row]? = some v := ⟨_, Array.getElem?_eq_getElem hrow⟩
  simp only [Shelf.swapRemove, take_shelf h hold, bind, Except.bind, fillHole_hole h hrow]
  simp [swapRemove, hold, pure, Except.pure, shelf]

theorem swapRemoveInto_shelf (h : c.Housed) (hrow : c.rows[row]? = some v)
    (hdst : dst.Housed) (hroom : dst.HasRoom 1) (hcount : dst.size < maxCapacity) :
    c.shelf.swapRemoveInto row dst.shelf = .ok ((c.swapRemoveInto row dst).1.shelf,
      (c.swapRemoveInto row dst).2.1.shelf,
      dst.growth 1 ++ (dst.type.moveEvents v ++ (c.fillHole row).2).map .called) := by
  have hlt : row < c.size := (Array.getElem?_eq_some_iff.1 hrow).1
  have htype : (dst.reserve 1).1.shelf.type = dst.type := type_reserve dst 1
  simp only [Shelf.swapRemoveInto, reserve_shelf hdst hroom, take_shelf h hrow, htype,
    append_reserve hcount, fillHole_hole h hlt, bind, Except.bind]
  simp [swapRemoveInto, hrow, pure, Except.pure, pushMove, shelf]

theorem swapRemoveInto_exhausted (h : c.Housed) (hrow : row < c.size) (hdst : dst.Housed)
    (hno : ¬ (dst.HasRoom 1 ∧ dst.size < maxCapacity)) :
    c.shelf.swapRemoveInto row dst.shelf = .error .exhausted := by
  by_cases hroom : dst.HasRoom 1
  · have hcount : ¬ dst.size < maxCapacity := fun hcount => hno ⟨hroom, hcount⟩
    obtain ⟨v, hv⟩ : ∃ v, c.rows[row]? = some v := ⟨_, Array.getElem?_eq_getElem hrow⟩
    simp only [Shelf.swapRemoveInto, reserve_shelf hdst hroom, take_shelf h hv,
      append_reserve_exhausted hcount, bind, Except.bind]
  · rw [Shelf.swapRemoveInto, reserve_exhausted hroom]
    rfl

theorem clear_shelf (h : c.Housed) :
    c.shelf.clear = .ok (c.clear.1.shelf, c.clear.2.map .called) := by
  have hdrop : Place.drop c.shelf.type (List.range c.shelf.size) c.shelf.place = _ :=
    Place.drop_ofRows c.type h.size_le
  simp only [Shelf.clear, hdrop, bind, Except.bind, ← Place.ofRows_nil]
  rfl

end Column
end EntityWorld
