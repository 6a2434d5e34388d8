import EntityWorld.Proofs.Replication.Arrival
import EntityWorld.Proofs.Replication.NetworkIds
import EntityWorld.Proofs.World.Survival
set_option autoImplicit false

/-!
What a replicator remembers of an entity: the payloads sent last, local writes, a network id. Every
call is described by the entities that it adds to those remembered.
-/
namespace EntityWorld

/-! ### Network ids -/

namespace NetworkIds

variable {m : NetworkIds} {e x : Entity}

def Names (m : NetworkIds) (e : Entity) : Prop :=
  (∃ n, m.entity? n = some e) ∨ ∃ n, m.networkId? e = some n

theorem not_names_empty : ¬empty.Names e := by
  intro h
  obtain ⟨n, hn⟩ | ⟨n, hn⟩ := h <;> cases hn

theorem Names.of_le {m' : NetworkIds} (he : ∀ n, m'.entity? n = some e → m.entity? n = some e)
    (hn : ∀ n, m'.networkId? e = some n → m.networkId? e = some n) (h : m'.Names e) : m.Names e :=
  h.imp (fun ⟨n, h⟩ => ⟨n, he n h⟩) fun ⟨n, h⟩ => ⟨n, hn n h⟩

theorem names_unbindEntity (h : (m.unbindEntity e).2.Names x) : m.Names x := by
  unfold unbindEntity at h
  split at h
  · exact h
  · refine Names.of_le (fun k hk => ?_) (fun k hk => ?_) h
    · exact FinMap.get?_of_erase hk
    · exact FinMap.get?_of_erase hk

theorem names_unbind {n : NetworkId} (h : (m.unbind n).2.Names x) : m.Names x := by
  unfold unbind at h
  split at h
  · exact h
  · refine Names.of_le (fun k hk => ?_) (fun k hk => ?_) h
    · exact FinMap.get?_of_erase hk
    · exact FinMap.get?_of_erase hk

theorem names_bind {n : NetworkId} (h : (m.bind n e).2.Names x) : m.Names x ∨ x = e := by
  rw [bind_eq] at h
  refine or_iff_not_imp_right.2 fun hx => ?_
  have hrest : ((m.unbindEntity e).2.unbind n).2.Names x := by
    refine h.of_le (fun k hk => ?_) fun k hk => ?_
    · rw [entity?, FinMap.get?_insert] at hk
      split at hk
      · exact absurd (Option.some.inj hk).symm hx
      · exact hk
    · rwa [networkId?, FinMap.get?_insert, if_neg hx] at hk
  exact names_unbindEntity (names_unbind hrest)

theorem names_allocate (h : (m.allocate e).2.Names x) : m.Names x ∨ x = e := by
  unfold allocate at h
  split at h
  · exact .inl h
  · exact names_bind (m := { m with next := _ }) h

theorem names_retainAlive {w : World} :
    (m.retainAlive w).2.Names x ↔ m.Names x ∧ w.isAlive x = true := by
  simp only [Names, retainAlive, entity?, networkId?, FinMap.get?_filter_eq_some,
    exists_and_right, or_and_right]

def Call.bound? : Call → Option Entity
  | .allocate e | .bind _ e => some e
  | .unbind _ | .unbindEntity _ | .retainAlive _ => none

theorem names_call {c : Call} (h : (m.call c).Names x) : m.Names x ∨ c.bound? = some x := by
  cases c with
  | allocate e => exact (names_allocate h).imp_right fun hx => congrArg some hx.symm
  | bind n e => exact (names_bind h).imp_right fun hx => congrArg some hx.symm
  | unbind n => exact .inl (names_unbind h)
  | unbindEntity e => exact .inl (names_unbindEntity h)
  | retainAlive w => exact .inl (names_retainAlive.1 h).1

end NetworkIds

/-! ### Collecting -/

namespace World.Furnishing

variable {R : World → World → Prop} (h : Furnishing R)
include h

theorem payload (w : World) (e : Entity) (d : TypeDescriptor) : R w (w.payload e d).2 := by
  have hread := h.readValue w e (Id.component d.handle)
  unfold World.payload
  split
  · exact h.refl w
  · split
    · next hr =>
      rw [hr] at hread
      exact hread
    · next hr =>
      rw [hr] at hread
      split <;> exact h.trans hread (h.events _ _)

theorem collectFrom (e : Entity) (handles : List TypeHandle) (w : World) (done : List Record) :
    R w (World.collectFrom e w done handles).2 := by
  induction handles generalizing w done with
  | nil => exact h.refl w
  | cons k rest ih =>
    unfold World.collectFrom
    split
    · exact h.refl w
    · next d _ =>
      have hpayload := h.payload w e d
      split
      · exact ih _ _
      · split
        · exact ih _ _
        · split
          · next hr =>
            rw [hr] at hpayload
            exact hpayload
          · next hr =>
            rw [hr] at hpayload
            exact h.trans hpayload (ih _ _)

theorem collect (w : World) (e : Entity) (handles : List TypeHandle) :
    R w (w.collect e handles).2 := by
  unfold World.collect
  split
  · exact h.collectFrom e handles w []
  · exact h.refl w

theorem snapshot (w : World) (e : Entity) (handles : List TypeHandle) :
    R w (Replicator.snapshot w e handles).2 := by
  have hcollect := h.collect w e handles
  unfold Replicator.snapshot
  split <;>
  · next hr =>
    rw [hr] at hcollect
    exact hcollect

theorem snapshotDelta (p : Replicator) (w : World) (e : Entity) :
    R w (p.snapshotDelta w e).2.2 := by
  have hcollect := h.collect w e w.replicableTypes
  unfold Replicator.snapshotDelta
  split <;>
  · next hr =>
    rw [hr] at hcollect
    exact hcollect

theorem writeLocal (p : Replicator) (w : World) (e : Entity) (k : TypeHandle) (t : HostType)
    (x : Value) : R w (p.writeLocal w e k t x).2.2 := by
  have hwrite := h.putTyped w e k t x .move
  unfold Replicator.writeLocal World.write
  split <;>
  · next hr =>
    rw [hr] at hwrite
    exact hwrite

theorem apply (p : Replicator) (w : World) (e : Entity) (bytes : Bytes) :
    R w (p.apply w e bytes).2.2 := by
  unfold Replicator.apply
  split
  · exact h.refl w
  · split
    · exact h.applyRecords e _ p w {}
    · exact h.refl w

end World.Furnishing

theorem World.isAlive_of_putTyped {w v : World} {e : Entity} {k : TypeHandle} {t : HostType}
    {x : Value} {how : Transfer} (hr : w.putTyped e k t x how = (.ok (), v)) :
    w.isAlive e = true := by
  refine Bool.of_not_eq_false fun he => ?_
  unfold putTyped put at hr
  rw [place_of_not_isAlive he] at hr
  split at hr
  · cases hr
  · split at hr <;> cases hr

/-! ### Everything that is remembered -/

namespace Replicator

variable {p : Replicator} {w : World} {e x : Entity}

inductive Remembers (p : Replicator) (e : Entity) : Prop where
  | baseline {b : Baseline} : p.baselines.get? e = some b → Remembers p e
  | localWrite {h : TypeHandle} : p.hasLocalWrite e h = true → Remembers p e
  | networkId : p.ids.Names e → Remembers p e

theorem not_remembers_new (role : NetRole) (policy : AuthorityPolicy) :
    ¬(new role policy).Remembers e := by
  intro h
  cases h with
  | baseline hb => cases hb
  | localWrite hw => cases hw
  | networkId hn => exact NetworkIds.not_names_empty hn

theorem hasLocalWrite_iff {h : TypeHandle} :
    p.hasLocalWrite e h = true ↔ ∃ u, p.localWrites.get? (e, h) = some u := by
  rw [hasLocalWrite, FinMap.contains, Option.isSome_iff_exists]

theorem remembers_retainAlive :
    (p.retainAlive w).2.Remembers x ↔ p.Remembers x ∧ w.isAlive x = true := by
  have hmark (h : TypeHandle) : (p.retainAlive w).2.hasLocalWrite x h = true ↔
      p.hasLocalWrite x h = true ∧ w.isAlive x = true := by
    rw [hasLocalWrite_iff, hasLocalWrite_iff, ← exists_and_right]
    exact exists_congr fun u => FinMap.get?_filter_eq_some
  constructor
  · intro h
    cases h with
    | baseline hb =>
      obtain ⟨hb, hx⟩ := FinMap.get?_filter_eq_some.1 hb
      exact ⟨.baseline hb, hx⟩
    | localWrite hw => exact ⟨.localWrite ((hmark _).1 hw).1, ((hmark _).1 hw).2⟩
    | networkId hn =>
      obtain ⟨hn, hx⟩ := NetworkIds.names_retainAlive.1 hn
      exact ⟨.networkId hn, hx⟩
  · intro h
    obtain ⟨h, hx⟩ := h
    cases h with
    | baseline hb => exact .baseline (FinMap.get?_filter_eq_some.2 ⟨hb, hx⟩)
    | localWrite hw => exact .localWrite ((hmark _).2 ⟨hw, hx⟩)
    | networkId hn => exact .networkId (NetworkIds.names_retainAlive.2 ⟨hn, hx⟩)

theorem remembers_forget (h : (p.forget e).Remembers x) : p.Remembers x := by
  cases h with
  | baseline hb => exact .baseline (FinMap.get?_of_erase hb)
  | localWrite hw =>
    obtain ⟨u, hu⟩ := hasLocalWrite_iff.1 hw
    exact .localWrite (hasLocalWrite_iff.2 ⟨u, (FinMap.get?_filter_eq_some.1 hu).1⟩)
  | networkId hn => exact .networkId (NetworkIds.names_unbindEntity hn)

theorem remembers_markLocalWrite {h : TypeHandle} (hx : (p.markLocalWrite e h).Remembers x) :
    p.Remembers x ∨ x = e := by
  cases hx with
  | baseline hb => exact .inl (.baseline hb)
  | localWrite hw =>
    obtain ⟨u, hu⟩ := hasLocalWrite_iff.1 hw
    rw [markLocalWrite, FinMap.get?_insert] at hu
    split at hu
    · next heq => exact .inr (Prod.mk.inj heq).1
    · exact .inl (.localWrite (hasLocalWrite_iff.2 ⟨u, hu⟩))
  | networkId hn => exact .inl (.networkId hn)

theorem remembers_writeLocal {h : TypeHandle} {t : HostType} {v : Value}
    (hx : (p.writeLocal w e h t v).2.1.Remembers x) :
    p.Remembers x ∨ x = e ∧ w.isAlive e = true := by
  unfold writeLocal at hx
  split at hx
  · next hr =>
    have he := World.isAlive_of_putTyped hr
    exact (remembers_markLocalWrite hx).imp_right fun hxe => ⟨hxe, he⟩
  · exact .inl hx

theorem remembers_call {c : NetworkIds.Call} (h : { p with ids := p.ids.call c }.Remembers x) :
    p.Remembers x ∨ c.bound? = some x := by
  cases h with
  | baseline hb => exact .inl (.baseline hb)
  | localWrite hw => exact .inl (.localWrite hw)
  | networkId hn => exact (NetworkIds.names_call hn).imp_left .networkId

theorem remembers_snapshotDelta (h : (p.snapshotDelta w e).2.1.Remembers x) :
    p.Remembers x ∨ x = e ∧ w.isAlive e = true := by
  by_cases he : w.isAlive e = true
  · refine (em (x = e)).symm.imp (fun hx => ?_) fun hx => ⟨hx, he⟩
    unfold snapshotDelta at h
    split at h
    · exact h
    · cases h with
      | baseline hb =>
        rw [FinMap.get?_insert, if_neg hx] at hb
        exact .baseline hb
      | localWrite hw => exact .localWrite hw
      | networkId hn => exact .networkId hn
  · rw [snapshotDelta, World.collect, if_neg he] at h
    exact .inl h

theorem remembers_applyRecord {report : ApplyReport} {r : Record}
    (h : (p.applyRecord w e report r).2.1.Remembers x) : p.Remembers x := by
  obtain heq | ⟨k, heq⟩ := (World.applyRecord_frame p w e report r).1
  · exact heq ▸ h
  · rw [heq] at h
    cases h with
    | baseline hb => exact .baseline hb
    | localWrite hw =>
      obtain ⟨u, hu⟩ := hasLocalWrite_iff.1 hw
      exact .localWrite (hasLocalWrite_iff.2 ⟨u, FinMap.get?_of_erase hu⟩)
    | networkId hn => exact .networkId hn

theorem remembers_applyRecords (records : List Record) {p : Replicator} {w : World}
    {report : ApplyReport} (h : (applyRecords e p w report records).2.1.Remembers x) :
    p.Remembers x := by
  induction records generalizing p w report with
  | nil => exact h
  | cons r rest ih => exact remembers_applyRecord (ih h)

theorem remembers_apply {bytes : Bytes} (h : (p.apply w e bytes).2.1.Remembers x) :
    p.Remembers x := by
  unfold apply at h
  split at h
  · exact h
  · split at h
    · exact remembers_applyRecords _ h
    · exact h

end Replicator
end EntityWorld
