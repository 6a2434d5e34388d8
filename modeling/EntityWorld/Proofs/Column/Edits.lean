import EntityWorld.Proofs.Column.Shelf
set_option autoImplicit false

/-!
A column is a list. As long as memory has room, a call does on the rows what it does on a list, and
in memory it comes to the same, cell by cell; if there is no room, the call does not come back.
-/
namespace EntityWorld.Column

inductive Edit where
  | pushDefault
  | pushCopy (v : Value)
  | pushMove (v : Value)
  | assignCopy (row : Nat) (v : Value)
  | assignMove (row : Nat) (v : Value)
  | swapRemove (row : Nat)
  | reserve (additional : Nat)
  | clear
  deriving DecidableEq, Repr

namespace Edit

def run : Edit → Column → Except SchemaError Unit × Column × List HookEvent
  | pushDefault, c => c.pushDefault
  | pushCopy v, c => (.ok (), c.pushCopy v)
  | pushMove v, c => (.ok (), c.pushMove v)
  | assignCopy row v, c => (.ok (), c.assignCopy row v)
  | assignMove row v, c => (.ok (), c.assignMove row v)
  | swapRemove row, c => (.ok (), c.swapRemove row)
  | reserve additional, c => (.ok (), c.reserve additional)
  | clear, c => (.ok (), c.clear)

def perform : Edit → Shelf → Except Fault (Except SchemaError Unit × Shelf × List Deed)
  | pushDefault, s => s.pushDefault
  | pushCopy v, s => return (.ok (), ← s.push v (s.type.copyEvents v))
  | pushMove v, s => return (.ok (), ← s.push v (s.type.moveEvents v))
  | assignCopy row v, s => return (.ok (), ← s.assign row v (s.type.copyEvents v))
  | assignMove row v, s => return (.ok (), ← s.assign row v (s.type.moveEvents v))
  | swapRemove row, s => return (.ok (), ← s.swapRemove row)
  | reserve additional, s => return (.ok (), ← s.reserve additional)
  | clear, s => return (.ok (), ← s.clear)

def edit (d : TypeDescriptor) : Edit → List Value → List Value
  | pushDefault, rows =>
    match d.default? with
    | some (v, _) => rows ++ [v]
    | none => rows
  | pushCopy v, rows | pushMove v, rows => rows ++ [v]
  | assignCopy row v, rows | assignMove row v, rows => rows.set row v
  | swapRemove row, rows => swapOut rows row
  | reserve _, rows => rows
  | clear, _ => []

def answer (d : TypeDescriptor) : Edit → Except SchemaError Unit
  | pushDefault => if d.default?.isSome then .ok () else .error (.noDefault d.path)
  | _ => .ok ()

/-- For how many more rows the call makes room. -/
def demand : Edit → Nat
  | pushDefault | pushCopy _ | pushMove _ => 1
  | reserve additional => additional
  | _ => 0

def added : Edit → Nat
  | pushDefault | pushCopy _ | pushMove _ => 1
  | _ => 0

def InRange : Edit → Column → Prop
  | assignCopy row _, c | assignMove row _, c | swapRemove row, c => row < c.size
  | _, _ => True

instance : (e : Edit) → (c : Column) → Decidable (e.InRange c)
  | assignCopy _ _, _ | assignMove _ _, _ | swapRemove _, _ => Nat.decLt _ _
  | pushDefault, _ | pushCopy _, _ | pushMove _, _ | reserve _, _ | clear, _ => .isTrue trivial

def Fits (e : Edit) (c : Column) : Prop :=
  c.HasRoom e.demand ∧ c.size + e.added ≤ maxCapacity

instance (e : Edit) (c : Column) : Decidable (e.Fits c) := inferInstanceAs (Decidable (_ ∧ _))

variable {e : Edit} {c : Column} {d : TypeDescriptor} {v : Value} {row additional : Nat}

theorem answer_run (e : Edit) (c : Column) : (e.run c).1 = e.answer c.type := by
  cases e with
  | pushDefault =>
    simp only [run, answer, Column.pushDefault]
    cases c.type.default? <;> rfl
  | _ => rfl

theorem type_run (e : Edit) (c : Column) : (e.run c).2.1.type = c.type := by
  cases e <;> simp [run, Column.pushCopy, Column.pushMove, Column.assignCopy, Column.assignMove,
    Column.clear]

theorem toList_rows_run (hr : e.InRange c) :
    (e.run c).2.1.rows.toList = e.edit c.type c.rows.toList := by
  cases e with
  | pushDefault =>
    simp only [run, edit, Column.pushDefault]
    cases c.type.default? with
    | some made => exact toList_push c _ _
    | none => exact congrArg Array.toList (rows_reserve c 1)
  | pushCopy v => exact toList_push c v _
  | pushMove v => exact toList_push c v _
  | assignCopy row v => simp [run, edit, Column.assignCopy]
  | assignMove row v => simp [run, edit, Column.assignMove]
  | swapRemove row =>
    simp only [run, edit, rows_swapRemove c hr]
    exact toList_swapRemoved hr
  | reserve additional => exact congrArg Array.toList (rows_reserve c additional)
  | clear => rfl

theorem capacity_run (h : c.Housed) (e : Edit) :
    (e.run c).2.1.capacity = (c.reserve e.demand).1.capacity := by
  have hzero : c.capacity = (c.reserve 0).1.capacity := by rw [h.reserve_zero]
  cases e with
  | pushDefault =>
    simp only [run, demand, Column.pushDefault]
    cases c.type.default? <;> rfl
  | pushCopy v => rfl
  | pushMove v => rfl
  | reserve additional => rfl
  | assignCopy row v => exact (capacity_assign c row v _).trans hzero
  | assignMove row v => exact (capacity_assign c row v _).trans hzero
  | swapRemove row => exact (capacity_swapRemove c row).trans hzero
  | clear => exact hzero

theorem length_edit_le (d : TypeDescriptor) (e : Edit) (rows : List Value) :
    (e.edit d rows).length ≤ rows.length + e.added := by
  cases e with
  | pushDefault =>
    simp only [edit, added]
    cases d.default? <;> simp
  | swapRemove row =>
    simp only [edit, length_swapOut]
    omega
  | _ => simp [edit, added]

theorem added_le_demand (e : Edit) : e.added ≤ e.demand := by
  cases e <;> simp [added, demand]

theorem size_run_le (h : c.Housed) (hr : e.InRange c) (hf : e.Fits c) :
    (e.run c).2.1.size ≤ (e.run c).2.1.capacity := by
  have hcount := hf.2
  have hlength := length_edit_le c.type e c.rows.toList
  rw [← toList_rows_run hr] at hlength
  have hadded := e.added_le_demand
  rw [capacity_run h]
  refine Nat.le_trans (Nat.le_trans hlength ?_) (c.needed_le_capacity e.demand)
  simp only [needed, size] at hcount ⊢
  rw [Array.length_toList]
  omega

theorem housed_run (h : c.Housed) (hr : e.InRange c) (hf : e.Fits c) : (e.run c).2.1.Housed := by
  refine ⟨size_run_le h hr hf, ?_⟩
  rw [type_run, capacity_run h]
  have hplace := (h.reserve hf.1).place
  rwa [type_reserve] at hplace

/-- What a call does in memory: the rows are carried first if they have to be, and all else that
happens is hook calls. -/
structure Stored (e : Edit) (c : Column) (own : List HookEvent) : Prop where
  perform : e.perform c.shelf =
    .ok ((e.run c).1, (e.run c).2.1.shelf, c.growth e.demand ++ own.map .called)
  events : (e.run c).2.2 = (c.growth e.demand).filterMap Deed.event? ++ own

theorem perform_eq {call : Except Fault (Shelf × List Deed)} {s : Shelf} {deeds : List Deed}
    (hcall : call = .ok (s, deeds)) :
    (return (.ok (), ← call) : Except Fault (Except SchemaError Unit × Shelf × List Deed)) =
      .ok (.ok (), s, deeds) := by
  rw [hcall]
  rfl

theorem Stored.of_demand_eq_zero (h : c.Housed) (hdemand : e.demand = 0)
    (hperform : e.perform c.shelf =
      .ok ((e.run c).1, (e.run c).2.1.shelf, (e.run c).2.2.map .called)) :
    e.Stored c (e.run c).2.2 := by
  constructor
  · rwa [hdemand, h.growth_zero]
  · rw [hdemand, h.growth_zero]
    rfl

theorem stored (h : c.Housed) (hr : e.InRange c) (hf : e.Fits c) : ∃ own, e.Stored c own := by
  obtain ⟨hroom, hcount⟩ := hf
  cases e with
  | pushDefault =>
    obtain ⟨own, hperform, hevents⟩ := pushDefault_shelf h hroom hcount
    exact ⟨own, hperform, hevents⟩
  | pushCopy v => exact ⟨_, perform_eq (push_shelf h hroom hcount), push_snd c v _⟩
  | pushMove v => exact ⟨_, perform_eq (push_shelf h hroom hcount), push_snd c v _⟩
  | assignCopy row v => exact ⟨_, .of_demand_eq_zero h rfl (perform_eq (assign_shelf h hr))⟩
  | assignMove row v => exact ⟨_, .of_demand_eq_zero h rfl (perform_eq (assign_shelf h hr))⟩
  | swapRemove row => exact ⟨_, .of_demand_eq_zero h rfl (perform_eq (swapRemove_shelf h hr))⟩
  | reserve additional =>
    refine ⟨[], ?_, ?_⟩
    · rw [List.map_nil, List.append_nil]
      exact perform_eq (reserve_shelf h hroom)
    · rw [List.append_nil]
      exact congrArg Prod.snd (reserve_eq c additional)
  | clear => exact ⟨_, .of_demand_eq_zero h rfl (perform_eq (clear_shelf h))⟩

theorem fits_of_demand_eq_zero (h : c.Housed) (hdemand : e.demand = 0) : e.Fits c := by
  have hadded : e.added = 0 := Nat.le_zero.1 (hdemand ▸ e.added_le_demand)
  refine ⟨fun ho => ?_, ?_⟩
  · rw [hdemand] at ho
    exact absurd ho h.not_outgrown_zero
  · rw [hadded]
    exact h.size_le_maxCapacity

theorem perform_error {call : Except Fault (Shelf × List Deed)} (hcall : call = .error .exhausted) :
    (return (.ok (), ← call) : Except Fault (Except SchemaError Unit × Shelf × List Deed)) =
      .error .exhausted := by
  rw [hcall]
  rfl

theorem exhausted (h : c.Housed) (hf : ¬ e.Fits c) : e.perform c.shelf = .error .exhausted := by
  cases e with
  | pushDefault => exact pushDefault_exhausted h hf
  | pushCopy v => exact perform_error (push_exhausted h hf)
  | pushMove v => exact perform_error (push_exhausted h hf)
  | reserve additional =>
    refine perform_error (reserve_exhausted fun hroom => hf ⟨hroom, h.size_le_maxCapacity⟩)
  | _ => exact absurd (fits_of_demand_eq_zero h rfl) hf

end Edit

end EntityWorld.Column
