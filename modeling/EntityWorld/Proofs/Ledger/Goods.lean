import EntityWorld.Proofs.Column
import Mathlib.Algebra.BigOperators.Group.Multiset.Basic
import Mathlib.Tactic.Abel
set_option autoImplicit false

/-!
Accounts of values. Events account for a change if what they destroy together with what is left is
what was there and what they make. Those of every operation of a column do.
-/
namespace EntityWorld

/-- How many values of each type there are. -/
abbrev Goods := Multiset (TypeDescriptor × Value)

namespace TypeDescriptor

variable (d : TypeDescriptor) (v : Value)

/-- Copies of a value are made by a hook, and it is destroyed by a hook. -/
def managed : Bool := d.hooks.copy && d.hooks.drop

/-- One value, if its type is managed; of other types no account is kept. -/
def item : Goods := if d.managed then {(d, v)} else 0

theorem item_eq_item_iff {d d' : TypeDescriptor} {v : Value} :
    d.item v = d'.item v ↔ (d.managed = true ∨ d'.managed = true → d = d') := by
  unfold item
  by_cases hd : d.managed = true <;> by_cases hd' : d'.managed = true <;> simp [hd, hd']
  all_goals
    intro heq
    simp_all

theorem mem_item {d : TypeDescriptor} {v : Value} {i : TypeDescriptor × Value}
    (hi : i ∈ d.item v) : i = (d, v) := by
  unfold item at hi
  split at hi
  · exact Multiset.mem_singleton.1 hi
  · cases hi

end TypeDescriptor

def HookEvent.making (e : HookEvent) : Goods :=
  match e.kind with
  | .constructed | .zeroed | .copied => e.type.item e.value
  | .moved | .dropped => 0

def HookEvent.ending (e : HookEvent) : Goods :=
  match e.kind with
  | .dropped => e.type.item e.value
  | _ => 0

namespace Goods

def made (events : List HookEvent) : Goods := (events.map HookEvent.making).sum

def gone (events : List HookEvent) : Goods := (events.map HookEvent.ending).sum

@[simp] theorem made_nil : made [] = 0 := rfl

@[simp] theorem gone_nil : gone [] = 0 := rfl

@[simp] theorem made_append (xs ys : List HookEvent) : made (xs ++ ys) = made xs + made ys := by
  simp [made]

@[simp] theorem gone_append (xs ys : List HookEvent) : gone (xs ++ ys) = gone xs + gone ys := by
  simp [gone]

end Goods

open Goods

/-- The events account for going from `before` and what comes in to `after`. -/
def Accounts (events : List HookEvent) (before taken after : Goods) : Prop :=
  gone events + after = before + taken + made events

namespace Accounts

variable {events more : List HookEvent} {before taken taken' middle after rest : Goods}

theorem nil (g : Goods) : Accounts [] g 0 g := by simp [Accounts]

theorem append (h₁ : Accounts events before taken middle) (h₂ : Accounts more middle taken' after) :
    Accounts (events ++ more) before (taken + taken') after := by
  unfold Accounts at h₁ h₂ ⊢
  calc gone (events ++ more) + after
      = gone events + (gone more + after) := by rw [gone_append]; abel
    _ = (gone events + middle) + taken' + made more := by rw [h₂]; abel
    _ = before + (taken + taken') + made (events ++ more) := by rw [h₁, made_append]; abel

theorem then_quiet (h₁ : Accounts events before taken middle) (h₂ : Accounts more middle 0 after) :
    Accounts (events ++ more) before taken after := by
  simpa using h₁.append h₂

theorem after_quiet (h₁ : Accounts events before 0 middle) (h₂ : Accounts more middle taken after) :
    Accounts (events ++ more) before taken after := by
  simpa using h₁.append h₂

theorem frame (h : Accounts events before taken after) (rest : Goods) :
    Accounts events (before + rest) taken (after + rest) := by
  unfold Accounts at h ⊢
  calc gone events + (after + rest) = (gone events + after) + rest := by abel
    _ = before + rest + taken + made events := by rw [h]; abel

theorem of_eq {before' after' : Goods} (h : Accounts events before taken after)
    (hb : before' = before) (ha : after' = after) : Accounts events before' taken after' := by
  rw [hb, ha]
  exact h

theorem frame_left (h : Accounts events before taken after) (rest : Goods) :
    Accounts events (rest + before) taken (rest + after) := by
  rw [add_comm rest, add_comm rest]
  exact h.frame rest

theorem flatMap {α : Type} {goods : α → Goods} {drop : α → List HookEvent}
    (h : ∀ x, Accounts (drop x) (goods x) 0 0) (xs : List α) :
    Accounts (xs.flatMap drop) (xs.map goods).sum 0 0 := by
  induction xs with
  | nil => exact .nil 0
  | cons x xs ih =>
    have hx := (h x).frame (xs.map goods).sum
    rw [zero_add] at hx
    rw [List.flatMap_cons, List.map_cons, List.sum_cons]
    exact hx.then_quiet ih

end Accounts

/-! ### Values -/

namespace TypeDescriptor

variable (d : TypeDescriptor) (v : Value)

theorem copyEvents_accounts : Accounts (d.copyEvents v) 0 0 (d.item v) := by
  unfold copyEvents
  split
  · simp [Accounts, made, gone, event, HookEvent.making, HookEvent.ending]
  · next h =>
    have hitem : d.item v = 0 := by simp [item, managed, h]
    rw [hitem]
    exact .nil 0

theorem dropEvents_accounts : Accounts (d.dropEvents v) (d.item v) 0 0 := by
  unfold dropEvents
  split
  · simp [Accounts, made, gone, event, HookEvent.making, HookEvent.ending]
  · next h =>
    have hitem : d.item v = 0 := by simp [item, managed, h]
    rw [hitem]
    exact .nil 0

theorem moveEvents_accounts (g : Goods) : Accounts (d.moveEvents v) g 0 g := by
  unfold moveEvents
  split
  · simp [Accounts, made, gone, event, HookEvent.making, HookEvent.ending]
  · split
    · exact .nil g
    · simpa using ((d.copyEvents_accounts v).then_quiet (d.dropEvents_accounts v)).frame g

theorem moveEvents_brings : Accounts (d.moveEvents v) 0 (d.item v) (d.item v) := by
  simpa [Accounts] using d.moveEvents_accounts v (d.item v)

variable {d v}

theorem default?_accounts {arrival : List HookEvent} (h : d.default? = some (v, arrival)) :
    Accounts arrival 0 0 (d.item v) := by
  unfold default? at h
  split at h
  · cases h
    simp [Accounts, made, gone, event, HookEvent.making, HookEvent.ending]
  · split at h
    · cases h
      simp [Accounts, made, gone, event, HookEvent.making, HookEvent.ending]
    · cases h

end TypeDescriptor

/-! ### Sums -/

theorem exists_sum_set {α : Type} (f : α → Goods) {l : List α} {i : Nat} {x : α}
    (h : l[i]? = some x) : ∃ rest, (l.map f).sum = f x + rest ∧
      ∀ y, ((l.set i y).map f).sum = f y + rest := by
  induction l generalizing i with
  | nil => simp at h
  | cons a l ih =>
    cases i with
    | zero =>
      cases h
      exact ⟨(l.map f).sum, by simp, fun y => by simp⟩
    | succ i =>
      obtain ⟨rest, hsum, hset⟩ := ih h
      refine ⟨f a + rest, ?_, fun y => ?_⟩
      · rw [List.map_cons, List.sum_cons, hsum]
        abel
      · rw [List.set_cons_succ, List.map_cons, List.sum_cons, hset]
        abel

theorem sum_swapRemoved {α : Type} (f : α → Goods) {xs : Array α} {row : Nat} {x : α}
    (h : xs[row]? = some x) :
    (xs.toList.map f).sum = f x + ((swapRemoved xs row).toList.map f).sum := by
  obtain ⟨hlt, -⟩ := Array.getElem?_eq_some_iff.1 h
  rw [← Array.getElem?_toList] at h
  obtain ⟨last, hback⟩ : ∃ last, xs.back? = some last := by
    rw [Array.back?_eq_getElem?]
    exact ⟨_, Array.getElem?_eq_getElem (by omega)⟩
  obtain ⟨ys, hys⟩ := List.getLast?_eq_some_iff.1 ((Array.getLast?_toList xs).trans hback)
  have hsize : xs.size = ys.length + 1 := by
    rw [← Array.length_toList, hys, List.length_append, List.length_singleton]
  rw [hys] at h
  unfold swapRemoved
  rw [hback]
  by_cases hrow : row + 1 < xs.size
  · have hrow' : row < ys.length := by omega
    rw [List.getElem?_append_left hrow'] at h
    obtain ⟨rest, hsum, hset⟩ := exists_sum_set f h
    have hrest : (((xs.setIfInBounds row last).pop).toList.map f).sum = f last + rest := by
      rw [Array.toList_pop, Array.toList_setIfInBounds, hys, List.set_append_left _ _ hrow',
        List.dropLast_concat, hset]
    simp only [hrow, if_true, hrest, hys, List.map_append, List.sum_append, hsum, List.map_cons,
      List.map_nil, List.sum_singleton]
    abel
  · have hrow' : row = ys.length := by omega
    have hx : last = x := by
      rw [hrow', List.getElem?_concat_length] at h
      exact Option.some.inj h
    simp only [hrow, if_false, Array.toList_pop, hys, List.dropLast_concat, List.map_append,
      List.sum_append, List.map_cons, List.map_nil, List.sum_singleton, hx]
    abel

/-! ### Columns -/

namespace Column

variable (c : Column) (row : Nat) (v : Value)

def goods : Goods := (c.rows.toList.map c.type.item).sum

theorem goods_new (d : TypeDescriptor) : (new d).goods = 0 := rfl

theorem goods_of_rows {c c' : Column} (htype : c'.type = c.type) (hrows : c'.rows = c.rows) :
    c'.goods = c.goods := by
  rw [goods, goods, htype, hrows]

theorem moves_accounts (vs : List Value) (g : Goods) :
    Accounts (vs.flatMap c.type.moveEvents) g 0 g := by
  induction vs with
  | nil => exact .nil g
  | cons v vs ih =>
    rw [List.flatMap_cons]
    exact (c.type.moveEvents_accounts v g).then_quiet ih

theorem reserve_accounts (n : Nat) : Accounts (c.reserve n).2 c.goods 0 (c.reserve n).1.goods := by
  rw [goods_of_rows (c.type_reserve n) (c.rows_reserve n)]
  simp only [reserve]
  split
  · exact c.moves_accounts _ _
  · exact .nil _

variable {arrival : List HookEvent} {taken : Goods} {v}

theorem push_accounts (h : Accounts arrival 0 taken (c.type.item v)) :
    Accounts (c.push v arrival).2 c.goods taken (c.push v arrival).1.goods := by
  have hgoods : (c.push v arrival).1.goods = c.goods + c.type.item v := by
    simp [goods]
  have harrive : Accounts arrival c.goods taken (c.goods + c.type.item v) := by
    simpa using h.frame_left c.goods
  have hreserve := c.reserve_accounts 1
  rw [goods_of_rows (c.type_reserve 1) (c.rows_reserve 1)] at hreserve
  rw [hgoods]
  exact hreserve.after_quiet harrive

theorem pushDefault_accounts : Accounts c.pushDefault.2.2 c.goods 0 c.pushDefault.2.1.goods := by
  unfold pushDefault
  split
  · next hd => exact c.push_accounts (TypeDescriptor.default?_accounts hd)
  · exact c.reserve_accounts 1

variable {row}

theorem assign_accounts (h : Accounts arrival 0 taken (c.type.item v)) (hrow : row < c.size) :
    Accounts (c.assign row v arrival).2 c.goods taken (c.assign row v arrival).1.goods := by
  obtain ⟨old, hold⟩ : ∃ old, c.rows[row]? = some old := ⟨_, Array.getElem?_eq_getElem hrow⟩
  obtain ⟨rest, hsum, hset⟩ :=
    exists_sum_set c.type.item (l := c.rows.toList) (by rw [Array.getElem?_toList, hold])
  have hgoods : c.goods = c.type.item old + rest := hsum
  have hgoods' : (c.assign row v arrival).1.goods = c.type.item v + rest := by
    rw [goods, type_assign, rows_assign, Array.toList_setIfInBounds, hset]
  rw [hgoods, hgoods']
  unfold assign
  rw [hold]
  exact ((c.type.dropEvents_accounts old).after_quiet h).frame rest

variable (row)

theorem fillHole_accounts (g : Goods) : Accounts (c.fillHole row).2 g 0 g := by
  unfold fillHole
  split
  · next last _ =>
    split
    · exact c.type.moveEvents_accounts last g
    · exact .nil g
  · exact .nil g

theorem goods_fillHole {old : Value} (h : c.rows[row]? = some old) :
    c.goods = c.type.item old + (c.fillHole row).1.goods := by
  rw [goods, goods, type_fillHole, rows_fillHole]
  exact sum_swapRemoved c.type.item h

theorem swapRemove_accounts :
    Accounts (c.swapRemove row).2 c.goods 0 (c.swapRemove row).1.goods := by
  unfold swapRemove
  split
  · next old hold =>
    rw [c.goods_fillHole row hold]
    have hdrop := (c.type.dropEvents_accounts old).frame (c.fillHole row).1.goods
    rw [zero_add] at hdrop
    exact hdrop.then_quiet (c.fillHole_accounts row _)
  · exact .nil _

theorem swapRemoveInto_accounts {dst : Column} (htype : dst.type = c.type) :
    Accounts (c.swapRemoveInto row dst).2.2 (c.goods + dst.goods) 0
      ((c.swapRemoveInto row dst).1.goods + (c.swapRemoveInto row dst).2.1.goods) := by
  unfold swapRemoveInto
  split
  · next v hv =>
    rw [c.goods_fillHole row hv]
    have hpush := dst.push_accounts (dst.type.moveEvents_brings v)
    rw [htype] at hpush
    have harrive := hpush.frame_left (c.fillHole row).1.goods
    refine Accounts.then_quiet ?_ (c.fillHole_accounts row _)
    unfold Accounts at harrive ⊢
    rw [show (dst.pushMove v) = dst.push v (c.type.moveEvents v) by rw [pushMove, htype], harrive]
    abel
  · exact .nil _

theorem clear_accounts : Accounts c.clear.2 c.goods 0 0 :=
  Accounts.flatMap c.type.dropEvents_accounts c.rows.toList

end Column

namespace Transfer

/-- What has to be taken from elsewhere to put a value into a column. -/
def taking (how : Transfer) (g : Goods) : Goods :=
  match how with
  | .move => g
  | .copy => 0

variable (how : Transfer) (c : Column) (v : Value)

theorem push_accounts :
    Accounts (how.push c v).2 c.goods (how.taking (c.type.item v)) (how.push c v).1.goods := by
  cases how with
  | move => exact c.push_accounts (c.type.moveEvents_brings v)
  | copy => exact c.push_accounts (c.type.copyEvents_accounts v)

theorem assign_accounts {row : Nat} (hrow : row < c.size) :
    Accounts (how.assign c row v).2 c.goods (how.taking (c.type.item v))
      (how.assign c row v).1.goods := by
  cases how with
  | move => exact c.assign_accounts (c.type.moveEvents_brings v) hrow
  | copy => exact c.assign_accounts (c.type.copyEvents_accounts v) hrow

end Transfer
end EntityWorld
