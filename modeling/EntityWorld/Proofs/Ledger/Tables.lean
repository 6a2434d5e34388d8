import EntityWorld.Proofs.Ledger.Goods
import EntityWorld.Proofs.World.Tables
set_option autoImplicit false

/-!
Accounts of tables. The hook calls account for moving a row to another table, for taking it out and
for dropping everything; finding or creating a table changes nothing.
-/
namespace EntityWorld

open Goods

namespace Archetype

variable {a b dst : Archetype} {id : Id} {row : Nat} {taken : Goods}

def goods (a : Archetype) : Goods := (a.columns.map Column.goods).sum

theorem goods_new (i : ArchetypeId) (ids : List Id) (types : List TypeDescriptor) :
    (new i ids types).goods = 0 := by
  rw [goods, new, List.map_map]
  refine List.sum_eq_zero fun g hg => ?_
  obtain ⟨d, -, rfl⟩ := List.mem_map.1 hg
  exact Column.goods_new d

theorem updateColumn_accounts {f : Column → Column × List HookEvent} {c : Column}
    (hc : a.column? id = some c) (h : Accounts (f c).2 c.goods taken (f c).1.goods) :
    Accounts (a.updateColumn id f).2 a.goods taken (a.updateColumn id f).1.goods := by
  unfold column? at hc
  unfold updateColumn
  split at hc
  · next i hi =>
    obtain ⟨rest, hsum, hset⟩ := exists_sum_set Column.goods hc
    simp only [hi, hc]
    exact (h.frame rest).of_eq hsum (hset _)
  · cases hc

theorem dropRow_accounts (row : Nat) (cs : List Column) :
    Accounts (dropRow row cs).2 (cs.map Column.goods).sum 0
      ((dropRow row cs).1.map Column.goods).sum := by
  induction cs with
  | nil => exact .nil 0
  | cons c cs ih =>
    simp only [dropRow, List.map_cons, List.sum_cons]
    exact ((c.swapRemove_accounts row).frame _).then_quiet (ih.frame_left _)

theorem type_column?_congr (hids : b.ids = a.ids)
    (htypes : b.columns.map Column.type = a.columns.map Column.type) (id : Id) :
    (b.column? id).map Column.type = (a.column? id).map Column.type := by
  unfold column? columnIndex?
  rw [hids]
  cases lastIndexOf? id a.ids with
  | none => rfl
  | some i =>
    show b.columns[i]?.map Column.type = a.columns[i]?.map Column.type
    rw [← List.getElem?_map, ← List.getElem?_map, htypes]

theorem takeRow_accounts (row : Nat) (l : List (Id × Column)) (dst : Archetype)
    (htypes : ∀ p ∈ l, ∀ t, (dst.column? p.1).map Column.type = some t → t = p.2.type) :
    Accounts (takeRow row l dst).2.2 ((l.map fun p => p.2.goods).sum + dst.goods) 0
      (((takeRow row l dst).1.map Column.goods).sum + (takeRow row l dst).2.1.goods) := by
  induction l generalizing dst with
  | nil => exact .nil _
  | cons p rest ih =>
    obtain ⟨id, c⟩ := p
    have hrest : ∀ p ∈ rest, ∀ t, (dst.column? p.1).map Column.type = some t → t = p.2.type :=
      fun p hp => htypes p (List.mem_cons_of_mem _ hp)
    rw [takeRow, List.map_cons, List.sum_cons, add_assoc]
    cases hi : dst.columnIndex? id with
    | none =>
      simp only [List.map_cons, List.sum_cons, add_assoc]
      exact ((c.swapRemove_accounts row).frame _).then_quiet ((ih dst hrest).frame_left _)
    | some i =>
      cases hd : dst.columns[i]? with
      | none =>
        simp only [hd, List.map_cons, List.sum_cons, add_assoc]
        exact (ih dst hrest).frame_left _
      | some d =>
        have hcol : dst.column? id = some d := by
          unfold column?
          rw [hi]
          exact hd
        have htype : d.type = c.type :=
          htypes (id, c) List.mem_cons_self d.type (by rw [hcol, Option.map_some])
        obtain ⟨others, hsum, hset⟩ := exists_sum_set Column.goods hd
        have hdst : dst.goods = d.goods + others := hsum
        -- the table for the remaining ids has the same types
        let dst' : Archetype :=
          { dst with columns := dst.columns.set i (c.swapRemoveInto row d).2.1 }
        have hdst' : dst'.goods = (c.swapRemoveInto row d).2.1.goods + others := hset _
        have hupdate : dst' =
            (dst.updateColumn id fun d => ((c.swapRemoveInto row d).2.1, [])).1 := by
          simp only [updateColumn, hi, hd, dst']
        have htypes' : dst'.columns.map Column.type = dst.columns.map Column.type := by
          rw [hupdate]
          exact types_updateColumn _ fun d => c.type_swapRemoveInto d
        have hmove := (c.swapRemoveInto_accounts row htype).frame
          ((rest.map fun p => p.2.goods).sum + others)
        have hrest' : ∀ p ∈ rest, ∀ t, (dst'.column? p.1).map Column.type = some t →
            t = p.2.type := fun p hp t ht =>
          hrest p hp t (by rw [← type_column?_congr (a := dst) (b := dst') rfl htypes', ht])
        have hmore := (ih dst' hrest').frame_left (c.swapRemoveInto row d).1.goods
        simp only [hd, List.map_cons, List.sum_cons, add_assoc]
        refine (hmove.of_eq ?_ ?_).then_quiet hmore
        · rw [hdst]
          abel
        · rw [hdst']
          abel

theorem dropAll_accounts (a : Archetype) : Accounts a.dropAll a.goods 0 0 :=
  Accounts.flatMap Column.clear_accounts a.columns

end Archetype

namespace Storage

variable {s s' : Storage} {r : Registry} {a b t : Archetype} {i j : ArchetypeId} {id : Id}
variable {events : List HookEvent} {taken : Goods} {row : Nat} {e : Entity} {m : RowMove}

def goods (s : Storage) : Goods := (s.archetypes.toList.map Archetype.goods).sum

theorem exists_goods_set (ha : s.get? i = some a) : ∃ rest, s.goods = a.goods + rest ∧
    ∀ t, t.id = i → (s.set t).goods = t.goods + rest := by
  obtain ⟨rest, hsum, hset⟩ := exists_sum_set Archetype.goods (l := s.archetypes.toList)
    (i := i.raw.toNat) (x := a) (by rw [Array.getElem?_toList]; exact ha)
  refine ⟨rest, hsum, fun t ht => ?_⟩
  rw [goods, set, ht, Array.toList_setIfInBounds, hset]

theorem set_accounts (ha : s.get? i = some a) (ht : t.id = i)
    (h : Accounts events a.goods taken t.goods) :
    Accounts events s.goods taken (s.set t).goods := by
  obtain ⟨rest, hsum, hset⟩ := exists_goods_set ha
  exact (h.frame rest).of_eq hsum (hset t ht)

theorem goods_set (ha : s.get? i = some a) (ht : t.id = i) (hcols : t.columns = a.columns) :
    (s.set t).goods = s.goods := by
  obtain ⟨rest, hsum, hset⟩ := exists_goods_set ha
  rw [hset t ht, hsum, Archetype.goods, hcols]
  rfl

theorem goods_push (s : Storage) (ids : List Id) (types : List TypeDescriptor) :
    (s.push ids types).goods = s.goods := by
  simp [goods, push, Archetype.goods_new]

theorem Numbered.goods_prepared (hs : s.Numbered) (h : s.Prepared s') : s'.goods = s.goods := by
  induction h with
  | refl => rfl
  | push ids types _ ih => rw [goods_push, ih]
  | remember hu ha ht ih =>
    have hid := (hu.keeps hs).1 _ _ ha
    rw [goods_set ha (by rw [ht]; exact hid) (by rw [ht]), ih]

theorem get?_set_of_ne (s : Storage) (hne : j ≠ t.id) : (s.set t).get? j = s.get? j := by
  have hraw : t.id.raw.toNat ≠ j.raw.toNat := fun h => hne (toNat_raw_inj.1 h).symm
  rw [get?, get?, set, Array.getElem?_setIfInBounds, if_neg hraw]

theorem WellFormed.types_agree (h : s.WellFormed r) (ha : s.get? i = some a)
    (hb : s.get? j = some b) : ∀ p ∈ a.ids.zip a.columns, ∀ t,
      (b.column? p.1).map Column.type = some t → t = p.2.type := by
  intro p hp t ht
  obtain ⟨n, hn⟩ := List.mem_iff_getElem?.1 hp
  obtain ⟨hid, hc⟩ := List.getElem?_zip_eq_some.1 hn
  have hshaped := h.shaped i a ha
  have hpa := hshaped.descriptor?_of_column?
    ((Archetype.column?_eq_some_iff hshaped.nodup).2 ⟨n, hid, hc⟩)
  obtain ⟨d, hd, rfl⟩ := Option.map_eq_some_iff.1 ht
  have hpb := (h.shaped j b hb).descriptor?_of_column? hd
  exact Option.some.inj (hpb.symm.trans hpa)

theorem WellFormed.moveRow_accounts (h : s.WellFormed r) (ha : s.get? i = some a)
    (hb : s.get? j = some b) (hne : j ≠ i) (hm : s.moveRow e i row j = some m) :
    Accounts m.events s.goods 0 m.storage.goods := by
  have hagree := h.types_agree ha hb
  have htake := Archetype.takeRow_accounts row (a.ids.zip a.columns) (b.pushEntity e) hagree
  have hsrc : ((a.ids.zip a.columns).map fun p => p.2.goods).sum = a.goods := by
    have hsnd := List.map_snd_zip (Nat.le_of_eq (h.shaped i a ha).length_columns)
    rw [Archetype.goods]
    conv_rhs => rw [← hsnd, List.map_map]
    rfl
  have hdst : (b.pushEntity e).goods = b.goods := rfl
  rw [hsrc, hdst] at htake
  simp only [moveRow, ha, hb, Archetype.swapRemoveEntity_snd, Option.some.injEq] at hm
  subst hm
  set taken := Archetype.takeRow row (a.ids.zip a.columns) (b.pushEntity e)
  let a' : Archetype := { a with columns := taken.1, entities := swapRemoved a.entities row }
  have haid : a'.id = i := h.numbered i a ha
  have hbid : taken.2.1.id = j := by
    rw [Archetype.takeRow_snd]
    exact h.numbered j b hb
  obtain ⟨rest, hsum, hset⟩ := exists_goods_set ha
  have hb' : (s.set a').get? j = some b := by
    rw [get?_set_of_ne s (haid ▸ hne), hb]
  obtain ⟨rest', hsum', hset'⟩ := exists_goods_set hb'
  -- both rests contain the tables that are neither the old nor the new one
  have hrests : a'.goods + rest = b.goods + rest' := (hset a' haid).symm.trans hsum'
  unfold Accounts at htake ⊢
  refine add_left_cancel (a := a'.goods) ?_
  calc a'.goods + (gone taken.2.2 + ((s.set a').set taken.2.1).goods)
      = (gone taken.2.2 + (a'.goods + taken.2.1.goods)) + rest' := by rw [hset' _ hbid]; abel
    _ = (a.goods + b.goods + 0 + made taken.2.2) + rest' := congrArg (· + rest') htake
    _ = a.goods + made taken.2.2 + (a'.goods + rest) := by rw [hrests]; abel
    _ = a'.goods + (s.goods + 0 + made taken.2.2) := by rw [hsum]; abel

theorem dropAll_accounts (s : Storage) : Accounts s.dropAll s.goods 0 0 :=
  Accounts.flatMap Archetype.dropAll_accounts s.archetypes.toList

end Storage
end EntityWorld
