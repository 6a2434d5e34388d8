import EntityWorld.Proofs.Column.Edits
set_option autoImplicit false

/-!
Columns of one type are used by any calls in a row, each on one of them or from one into another.
Each of them remains a list: no column ever has more rows than cells or fewer cells than before,
and what is carried when rows outgrow their place are the rows, each of them once and in order. The
only way for a call not to come back is that there is no room.
-/
namespace EntityWorld.Column

/-- A call on one of several columns, or one that moves a row from one to another. -/
inductive Call where
  | edit (i : Nat) (e : Edit)
  | move (src dst row : Nat)
  deriving DecidableEq, Repr

namespace Call

def run : Call → (Nat → Column) → Except SchemaError Unit × (Nat → Column) × List HookEvent
  | edit i e, s =>
    let (answer, c, events) := e.run (s i)
    (answer, Function.update s i c, events)
  | move src dst row, s =>
    let (c, other, events) := (s src).swapRemoveInto row (s dst)
    (.ok (), Function.update (Function.update s src c) dst other, events)

def next (k : Call) (s : Nat → Column) : Nat → Column := (k.run s).2.1

def perform :
    Call → (Nat → Shelf) → Except Fault (Except SchemaError Unit × (Nat → Shelf) × List Deed)
  | edit i e, s => do
    let (answer, c, deeds) ← e.perform (s i)
    return (answer, Function.update s i c, deeds)
  | move src dst row, s => do
    let (c, other, deeds) ← (s src).swapRemoveInto row (s dst)
    return (.ok (), Function.update (Function.update s src c) dst other, deeds)

def edits (d : TypeDescriptor) : Call → (Nat → List Value) → Nat → List Value
  | edit i e, l => Function.update l i (e.edit d (l i))
  | move src dst row, l => Function.update (Function.update l src (swapOut (l src) row)) dst
      (l dst ++ (l src)[row]?.toList)

def answer (d : TypeDescriptor) : Call → Except SchemaError Unit
  | edit _ e => e.answer d
  | move _ _ _ => .ok ()

def receiver : Call → Nat
  | edit i _ => i
  | move _ dst _ => dst

def demand : Call → Nat
  | edit _ e => e.demand
  | move _ _ _ => 1

def InRange : Call → (Nat → Column) → Prop
  | edit i e, s => e.InRange (s i)
  | move src dst row, s => src ≠ dst ∧ row < (s src).size

instance : (k : Call) → (s : Nat → Column) → Decidable (k.InRange s)
  | edit i e, s => inferInstanceAs (Decidable (e.InRange (s i)))
  | move _ _ _, _ => inferInstanceAs (Decidable (_ ∧ _))

def Fits : Call → (Nat → Column) → Prop
  | edit i e, s => e.Fits (s i)
  | move _ dst _, s => (s dst).HasRoom 1 ∧ (s dst).size < maxCapacity

instance : (k : Call) → (s : Nat → Column) → Decidable (k.Fits s)
  | edit i e, s => inferInstanceAs (Decidable (e.Fits (s i)))
  | move _ _ _, _ => inferInstanceAs (Decidable (_ ∧ _))

variable {k : Call} {s : Nat → Column} {d : TypeDescriptor} {n : Nat}

/-! ### What a call does to the rows -/

def lists (s : Nat → Column) (n : Nat) : List Value := (s n).rows.toList

theorem type_next (k : Call) (s : Nat → Column) (n : Nat) : (k.next s n).type = (s n).type := by
  cases k with
  | edit i e =>
    by_cases hn : n = i
    · subst hn
      simp [next, run, Edit.type_run]
    · simp [next, run, hn]
  | move src dst row =>
    by_cases hdst : n = dst
    · subst hdst
      simp [next, run]
    · by_cases hsrc : n = src
      · subst hsrc
        simp [next, run, hdst, swapRemoveInto_fst]
      · simp [next, run, hdst, hsrc]

theorem lists_next (ht : ∀ n, (s n).type = d) (hr : k.InRange s) :
    lists (k.next s) = k.edits d (lists s) := by
  funext n
  cases k with
  | edit i e =>
    by_cases hn : n = i
    · subst hn
      simpa [lists, next, run, edits, ht n] using Edit.toList_rows_run hr
    · simp [lists, next, run, edits, hn]
  | move src dst row =>
    obtain ⟨hne, hrow⟩ := hr
    by_cases hdst : n = dst
    · subst hdst
      simp [lists, next, run, edits, rows_swapRemoveInto, Array.getElem?_eq_getElem hrow]
    · by_cases hsrc : n = src
      · subst hsrc
        simp [lists, next, run, edits, hdst, swapRemoveInto_fst, rows_swapRemove _ hrow,
          toList_swapRemoved hrow]
      · simp [lists, next, run, edits, hdst, hsrc]

/-! ### What a call does to the places -/

/-- For column `n` the call comes to the call `e` on it alone. -/
structure Part (k : Call) (s : Nat → Column) (n : Nat) (e : Edit) : Prop where
  inRange : e.InRange (s n)
  fits : k.Fits s → e.Fits (s n)
  demand : e.demand = if n = k.receiver then k.demand else 0
  next : k.next s n = (e.run (s n)).2.1

theorem Part.idle (h : (s n).Housed) (hn : n ≠ k.receiver) (hnext : k.next s n = s n) :
    Part k s n (.reserve 0) where
  inRange := trivial
  fits _ := Edit.fits_of_demand_eq_zero h rfl
  demand := by rw [if_neg hn]; rfl
  next := by rw [hnext, Edit.run, h.reserve_zero]

theorem exists_part (hs : ∀ n, (s n).Housed) (hr : k.InRange s) (n : Nat) : ∃ e, Part k s n e := by
  cases k with
  | edit i e =>
    by_cases hn : n = i
    · subst hn
      exact ⟨e, hr, id, (if_pos rfl).symm, by simp [next, run]⟩
    · exact ⟨_, .idle (hs n) hn (by simp [next, run, hn])⟩
  | move src dst row =>
    obtain ⟨hne, hrow⟩ := hr
    by_cases hdst : n = dst
    · subst hdst
      refine ⟨.pushMove (s src).rows[row], trivial, id, (if_pos rfl).symm, ?_⟩
      simp [next, run, Edit.run, Column.swapRemoveInto, Array.getElem?_eq_getElem hrow]
    · by_cases hsrc : n = src
      · subst hsrc
        refine ⟨.swapRemove row, hrow, fun _ => Edit.fits_of_demand_eq_zero (hs n) rfl,
          (if_neg hdst).symm, ?_⟩
        simp [next, run, Edit.run, swapRemoveInto_fst, hdst]
      · -- a column that is neither left nor entered
        exact ⟨_, .idle (hs n) hdst (by simp [next, run, hdst, hsrc])⟩

/-- All columns have the type, and the place they say they have. -/
def Ready (d : TypeDescriptor) (s : Nat → Column) : Prop := ∀ n, (s n).type = d ∧ (s n).Housed

def shelves (s : Nat → Column) (n : Nat) : Shelf := (s n).shelf

/-- The columns are lists of rows for the call, and in memory it comes to the same. -/
structure ActsOnLists (d : TypeDescriptor) (s : Nat → Column) (k : Call) : Prop where
  answer : (k.run s).1 = k.answer d
  rows : lists (k.next s) = k.edits d (lists s)
  size_le : ∀ n, (k.next s n).size ≤ (k.next s n).capacity
  capacity_le : ∀ n, (s n).capacity ≤ (k.next s n).capacity
  /-- Rows that outgrow their place get the larger of twice that place, what is needed, and 4. -/
  capacity : ∀ n, (k.next s n).capacity =
    if n = k.receiver ∧ (s n).Outgrown k.demand then
      max (max (2 * (s n).capacity) ((s n).needed k.demand)) 4
    else (s n).capacity
  /-- In memory all of them are carried there first, once and in order, and then come the hook
  calls that do not depend on that. -/
  stored : ∃ own, k.perform (shelves s) =
      .ok ((k.run s).1, shelves (k.next s), (s k.receiver).growth k.demand ++ own.map .called) ∧
    (k.run s).2.2 = ((s k.receiver).growth k.demand).filterMap Deed.event? ++ own

theorem Ready.next (h : Ready d s) (hr : k.InRange s) (hf : k.Fits s) : Ready d (k.next s) := by
  intro n
  obtain ⟨e, he⟩ := exists_part (fun n => (h n).2) hr n
  refine ⟨(type_next k s n).trans (h n).1, ?_⟩
  rw [he.next]
  exact Edit.housed_run (h n).2 he.inRange (he.fits hf)

theorem capacity_next (h : Ready d s) (hr : k.InRange s) (n : Nat) :
    (k.next s n).capacity = if n = k.receiver ∧ (s n).Outgrown k.demand then
      max (max (2 * (s n).capacity) ((s n).needed k.demand)) 4 else (s n).capacity := by
  obtain ⟨e, he⟩ := exists_part (fun n => (h n).2) hr n
  rw [he.next, Edit.capacity_run (h n).2, he.demand]
  by_cases hn : n = k.receiver
  · rw [if_pos hn, reserve_eq]
    by_cases ho : (s n).Outgrown k.demand
    · simp only [if_pos ho, if_pos (And.intro hn ho), (h n).2.grownCapacity_eq ho]
    · have hno : ¬ (n = k.receiver ∧ (s n).Outgrown k.demand) := fun hand => ho hand.2
      simp only [if_neg ho, if_neg hno]
  · have hno : ¬ (n = k.receiver ∧ (s n).Outgrown k.demand) := fun hand => hn hand.1
    rw [if_neg hn, (h n).2.reserve_zero, if_neg hno]

theorem answer_run (h : Ready d s) (k : Call) : (k.run s).1 = k.answer d := by
  cases k with
  | edit i e => exact (Edit.answer_run e (s i)).trans (congrArg e.answer (h i).1)
  | move src dst row => rfl

theorem shelves_update (s : Nat → Column) (i : Nat) (c : Column) :
    shelves (Function.update s i c) = Function.update (shelves s) i c.shelf :=
  Function.comp_update Column.shelf s i c

theorem stored (h : Ready d s) (hr : k.InRange s) (hf : k.Fits s) : ∃ own,
    k.perform (shelves s) =
      .ok ((k.run s).1, shelves (k.next s), (s k.receiver).growth k.demand ++ own.map .called) ∧
    (k.run s).2.2 = ((s k.receiver).growth k.demand).filterMap Deed.event? ++ own := by
  cases k with
  | edit i e =>
    obtain ⟨own, hstored⟩ := Edit.stored (h i).2 hr hf
    refine ⟨own, ?_, hstored.events⟩
    have hperform : e.perform (shelves s i) = _ := hstored.perform
    simp only [perform, hperform, next, run, shelves_update, bind, Except.bind]
    rfl
  | move src dst row =>
    obtain ⟨v, hv⟩ : ∃ v, (s src).rows[row]? = some v := ⟨_, Array.getElem?_eq_getElem hr.2⟩
    refine ⟨(s dst).type.moveEvents v ++ ((s src).fillHole row).2, ?_, ?_⟩
    · have hmove : (shelves s src).swapRemoveInto row (shelves s dst) = _ :=
        swapRemoveInto_shelf (h src).2 hv (h dst).2 hf.1 hf.2
      simp only [perform, hmove, next, run, shelves_update, bind, Except.bind]
      rfl
    · simp only [run, Column.swapRemoveInto, hv, Column.pushMove, push_snd, List.append_assoc]
      rfl

theorem exhausted (h : Ready d s) (hr : k.InRange s) (hf : ¬ k.Fits s) :
    k.perform (shelves s) = .error .exhausted := by
  cases k with
  | edit i e =>
    have hperform : e.perform (shelves s i) = _ := Edit.exhausted (h i).2 hf
    simp only [perform, hperform, bind, Except.bind]
  | move src dst row =>
    have hmove : (shelves s src).swapRemoveInto row (shelves s dst) = _ :=
      swapRemoveInto_exhausted (h src).2 hr.2 (h dst).2 hf
    simp only [perform, hmove, bind, Except.bind]

theorem actsOnLists (h : Ready d s) (hr : k.InRange s) (hf : k.Fits s) : ActsOnLists d s k where
  answer := answer_run h k
  rows := lists_next (fun n => (h n).1) hr
  size_le n := (h.next hr hf n).2.size_le
  capacity_le n := by
    rw [capacity_next h hr]
    split
    · omega
    · exact Nat.le_refl _
  capacity := capacity_next h hr
  stored := Call.stored h hr hf

/-! ### Any calls in a row -/

def runAll (calls : List Call) (s : Nat → Column) : Nat → Column :=
  calls.foldl (fun s k => k.next s) s

def performAll : List Call → (Nat → Shelf) → Except Fault (Nat → Shelf)
  | [], t => .ok t
  | k :: calls, t => do
    let (_, t, _) ← k.perform t
    performAll calls t

def editsAll (d : TypeDescriptor) (calls : List Call) (l : Nat → List Value) : Nat → List Value :=
  calls.foldl (fun l k => k.edits d l) l

def AtCalls (P : (Nat → Column) → Call → Prop) : List Call → (Nat → Column) → Prop
  | [], _ => True
  | k :: calls, s => P s k ∧ AtCalls P calls (k.next s)

instance decidableAtCalls (P : (Nat → Column) → Call → Prop) [∀ s k, Decidable (P s k)] :
    (calls : List Call) → (s : Nat → Column) → Decidable (AtCalls P calls s)
  | [], _ => .isTrue trivial
  | k :: calls, s =>
    have := decidableAtCalls P calls (k.next s)
    inferInstanceAs (Decidable (_ ∧ _))

def Ranged (calls : List Call) (s : Nat → Column) : Prop := AtCalls (fun s k => k.InRange s) calls s

def Roomy (calls : List Call) (s : Nat → Column) : Prop := AtCalls (fun s k => k.Fits s) calls s

variable {calls : List Call}

theorem lists_runAll (ht : ∀ n, (s n).type = d) (hrange : Ranged calls s) :
    lists (runAll calls s) = editsAll d calls (lists s) := by
  induction calls generalizing s with
  | nil => rfl
  | cons k calls ih =>
    have hrest := ih (fun n => (type_next k s n).trans (ht n)) hrange.2
    rw [lists_next ht hrange.1] at hrest
    exact hrest

theorem Ready.runAll (h : Ready d s) (hrange : Ranged calls s) (hroom : Roomy calls s) :
    AtCalls (ActsOnLists d) calls s ∧
      performAll calls (shelves s) = .ok (shelves (runAll calls s)) := by
  induction calls generalizing s with
  | nil => exact ⟨trivial, rfl⟩
  | cons k calls ih =>
    obtain ⟨hr, hrange⟩ := hrange
    obtain ⟨hf, hroom⟩ := hroom
    have hacts := actsOnLists h hr hf
    obtain ⟨hall, hperform⟩ := ih (h.next hr hf) hrange hroom
    obtain ⟨own, hstored, -⟩ := hacts.stored
    refine ⟨⟨hacts, hall⟩, ?_⟩
    simp only [performAll, hstored, bind, Except.bind]
    exact hperform

theorem Ready.exhausted (h : Ready d s) (hrange : Ranged calls s) (hroom : ¬ Roomy calls s) :
    performAll calls (shelves s) = .error .exhausted := by
  induction calls generalizing s with
  | nil => exact absurd trivial hroom
  | cons k calls ih =>
    obtain ⟨hr, hrange⟩ := hrange
    by_cases hf : k.Fits s
    · obtain ⟨own, hstored, -⟩ := Call.stored h hr hf
      simp only [performAll, hstored, bind, Except.bind]
      exact ih (h.next hr hf) hrange fun hrest => hroom ⟨hf, hrest⟩
    · simp only [performAll, Call.exhausted h hr hf, bind, Except.bind]

theorem ready_new (d : TypeDescriptor) : Ready d fun _ => .new d := fun _ => ⟨rfl, housed_new d⟩

/-- Whatever is called on new columns with rows that are there, their rows are those of the lists.
If memory has room, every call acts on the columns as on lists, and in memory all of them in a row
come to the same; if not, a call that there is no room for does not come back, and nothing else goes
wrong. -/
theorem actsOnLists_along (d : TypeDescriptor) (calls : List Call)
    (hrange : Ranged calls fun _ => .new d) :
    lists (runAll calls fun _ => .new d) = editsAll d calls (fun _ => []) ∧
    (Roomy calls (fun _ => .new d) → AtCalls (ActsOnLists d) calls (fun _ => .new d) ∧
      performAll calls (shelves fun _ => .new d) = .ok (shelves (runAll calls fun _ => .new d))) ∧
    (¬ Roomy calls (fun _ => .new d) →
      performAll calls (shelves fun _ => .new d) = .error .exhausted) :=
  ⟨lists_runAll (fun _ => rfl) hrange, (ready_new d).runAll hrange,
    (ready_new d).exhausted hrange⟩

/-- Swords have no default, and to be moved they are copied and then destroyed. -/
def sword : TypeDescriptor :=
  Registry.freeze ⟨"Game.Sword", 8, 8, .data, { copy := true, drop := true }, {}, [], none, none,
    .remove⟩ ⟨1⟩

/-- Five swords; two of them change hands and one is forged anew. -/
def armoury : List Call :=
  (List.range 5).map (fun n => .edit 0 (.pushMove (.ofNat 8 n))) ++
    [.move 0 1 1, .move 0 1 3, .edit 1 (.assignCopy 0 (.ofNat 8 7)), .edit 0 (.swapRemove 0),
      .edit 1 .pushDefault, .edit 1 (.reserve 12)]

theorem actsOnLists_along_armoury :
    Ranged armoury (fun _ => .new sword) ∧
    AtCalls (ActsOnLists sword) armoury (fun _ => .new sword) ∧
    lists (runAll armoury fun _ => .new sword) 0 = [.ofNat 8 2, .ofNat 8 4] ∧
    (runAll armoury (fun _ => .new sword) 0).capacity = 8 ∧
    lists (runAll armoury fun _ => .new sword) 1 = [.ofNat 8 7, .ofNat 8 3] ∧
    (runAll armoury (fun _ => .new sword) 1).capacity = 14 := by
  have hrange : Ranged armoury fun _ => .new sword := by
    unfold Ranged
    decide +kernel
  have hroom : Roomy armoury fun _ => .new sword := by
    unfold Roomy
    decide +kernel
  obtain ⟨hrows, hall, -⟩ := actsOnLists_along sword armoury hrange
  refine ⟨hrange, (hall hroom).1, (congrFun hrows 0).trans ?_, ?_,
    (congrFun hrows 1).trans ?_, ?_⟩ <;> decide +kernel

end Call
end EntityWorld.Column
