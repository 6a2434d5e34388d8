import EntityWorld.Proofs.Replication.Account
set_option autoImplicit false

/-!
Records that are passed over. They leave the component of their type as it is. But the local write
of the component is forgotten before the payload is looked at, so a record that brings nothing takes
it away unless the policy keeps the record out.
-/
namespace EntityWorld

theorem ApplyReport.mem_skipped_iff {l : List (Record × Fate)} {s : SkippedRecord} :
    s ∈ (ofFates l).skipped ↔
      ∃ r reason, (r, .skipped reason) ∈ l ∧ s = ⟨r.typeId, r.wireSize, reason⟩ := by
  rw [ofFates, List.mem_filterMap]
  constructor
  · intro hex
    obtain ⟨⟨r, f⟩, hmem, hf⟩ := hex
    cases f with
    | applied => cases hf
    | keptLocal => cases hf
    | skipped reason => exact ⟨r, reason, hmem, (Option.some.inj hf).symm⟩
  · intro hex
    obtain ⟨r, reason, hmem, rfl⟩ := hex
    exact ⟨_, hmem, rfl⟩

theorem TypeDescriptor.Refuses.not_brings {d : TypeDescriptor} {payload : Bytes}
    {reason : SkipReason} {x : Option Value} (h : d.Refuses payload reason) :
    ¬ d.Brings payload x := by
  intro hx
  cases hx with
  | tag htag => cases h with
    | mute hno => cases htag.symm.trans hno
    | garbled hno => cases htag.symm.trans hno
  | value _ hc hx => cases h with
    | mute _ hnone => cases hc.symm.trans hnone
    | garbled _ hc' herr =>
      obtain rfl := Option.some.inj (hc.symm.trans hc')
      cases hx.symm.trans herr

namespace World

variable {w v : World} {e : Entity} {r : Record} {d : TypeDescriptor} {reason : SkipReason}
variable {p p' : Replicator} {bytes : Bytes} {records : List Record} {l : List (Record × Fate)}

/-- The entity has of the type `d` what it had, and a local write counts for the next record as if
nothing had come. -/
structure Unmoved (w : World) (p : Replicator) (e : Entity) (d : TypeDescriptor) (p' : Replicator)
    (v : World) : Prop where
  component : v.peek e (Id.component d.handle) = w.peek e (Id.component d.handle)
  mark : p'.hasLocalWrite e d.handle = p.hasLocalWrite e d.handle
  decision : ∀ policy,
    { p' with policy := policy }.Keeps e d ↔ { p with policy := policy }.Keeps e d

/-- The snapshot is applied, and the types of the records that are reported as skipped are left as
they were. -/
def SkipsCleanly (w : World) (p : Replicator) (e : Entity) (bytes : Bytes) : Prop :=
  ∃ report p' v, p.apply w e bytes = (.ok report, p', v) ∧
    ∀ s ∈ report.skipped, ∀ d, w.descriptor? d.handle = some d → s.typeId = d.stableId →
      w.Unmoved p e d p' v

namespace Accounts

variable (h : w.Accounts p e bytes records l p' v)
include h

theorem fate_unique (hn : (records.map Record.typeId).Nodup) {r s : Record} {f g : Fate}
    (hr : (r, f) ∈ l) (hs : (s, g) ∈ l) (hid : r.typeId = s.typeId) : f = g := by
  have hn' : (l.map fun x => x.1.typeId).Nodup := by
    rw [← h.order, List.map_map] at hn
    exact hn
  exact congrArg Prod.snd (List.inj_on_of_nodup_map hn' hr hs hid)

theorem component (hn : (records.map Record.typeId).Nodup) (hr : (r, .skipped reason) ∈ l)
    (hd : w.registry.Knows r d) :
    v.peek e (Id.component d.handle) = w.peek e (Id.component d.handle) := by
  refine h.others e _ fun _ k hk heq => ?_
  obtain ⟨s, hs⟩ := ApplyReport.mem_applied.1 hk
  obtain ⟨d', u, hacc, rfl, -⟩ := h.applied _ hs _ rfl
  obtain rfl := hd.eq_of_handle hacc.knows (Id.component_inj heq)
  cases h.fate_unique hn hr hs (hd.typeId.trans hacc.typeId.symm)

theorem mark_iff (hr : r ∈ records) (hd : w.registry.Knows r d) :
    p'.hasLocalWrite e d.handle = p.hasLocalWrite e d.handle ↔
      (p.hasLocalWrite e d.handle = true → d.flags.replicable = false) := by
  have hreached : w.registry.Reaches records d.handle ↔ d.flags.replicable = true := by
    constructor
    · intro hex
      obtain ⟨s, -, d', hd', hyes, heq⟩ := hex
      rwa [hd.eq_of_handle hd' heq.symm]
    · intro hyes
      exact ⟨r, hr, d, hd, hyes, rfl⟩
  rw [Bool.eq_iff_iff, h.spends.marks, hreached, ← Bool.not_eq_true]
  simp

theorem unmoved_iff (hn : (records.map Record.typeId).Nodup) (hr : (r, .skipped reason) ∈ l)
    (hd : w.registry.Knows r d) : w.Unmoved p e d p' v ↔
      (p.hasLocalWrite e d.handle = true → d.flags.replicable = false) := by
  rw [← h.mark_iff (h.order ▸ List.mem_map_of_mem hr) hd]
  refine ⟨Unmoved.mark, fun hmark => ⟨h.component hn hr hd, hmark, fun policy => ?_⟩⟩
  have hrole : p'.role = p.role := by rw [h.spends.frame]
  show p'.hasLocalWrite e d.handle = true ∧ policy ⟨e, d.handle, d.path, p'.role⟩ = .keepLocal ↔
    p.hasLocalWrite e d.handle = true ∧ policy ⟨e, d.handle, d.path, p.role⟩ = .keepLocal
  rw [hmark, hrole]

theorem skipped_of_refuses (hi : w.registry.Indexed) (hr : r ∈ records)
    (hd : w.registry.Knows r d) (hkeep : ¬ p.Keeps e d)
    (hno : d.Refuses r.payload reason) : ∃ reason, (r, .skipped reason) ∈ l := by
  rw [← h.order] at hr
  obtain ⟨⟨r, f⟩, hmem, rfl⟩ := List.mem_map.1 hr
  cases h.meets _ hmem with
  | unknown | withheld | refused => exact ⟨_, hmem⟩
  | kept hd' _ hkeep' => exact absurd (hd.unique hd' hi ▸ hkeep') hkeep
  | applied hacc =>
    obtain rfl := hd.unique hacc.knows hi
    exact absurd hacc.brings hno.not_brings

end Accounts

/-- A record that is skipped leaves the component as it is. It leaves the local write too, unless
the type is replicable and refuses the payload: then the mark is gone. So all is well just if each
such payload, where there is a local write, is kept out by the policy. -/
theorem Reachable.skipsCleanly_iff (hw : w.Reachable) (he : w.isAlive e = true)
    (hdecode : Wire.decode bytes = .ok records) (hf : (p.apply w e bytes).2.2.Fits) :
    (∃ report p' v, p.apply w e bytes = (.ok report, p', v) ∧
      ∀ s ∈ report.skipped, ∀ d, w.descriptor? d.handle = some d → s.typeId = d.stableId →
        v.peek e (Id.component d.handle) = w.peek e (Id.component d.handle) ∧
        (w.Unmoved p e d p' v ↔
          (p.hasLocalWrite e d.handle = true → d.flags.replicable = false))) ∧
    (w.SkipsCleanly p e bytes ↔ ∀ r ∈ records, ∀ d reason, w.registry.Knows r d →
      d.flags.replicable = true → p.hasLocalWrite e d.handle = true → d.Refuses r.payload reason →
      p.policy ⟨e, d.handle, d.path, p.role⟩ = .keepLocal) := by
  obtain ⟨hn, l, p', v, happly, haccounts⟩ := hw.accounts_of_decode he hdecode hf
  refine ⟨⟨_, p', v, happly, fun s hs d hd hid => ?_⟩, ?_, ?_⟩
  · obtain ⟨r, reason, hr, rfl⟩ := ApplyReport.mem_skipped_iff.1 hs
    exact ⟨haccounts.component hn hr ⟨hd, hid⟩, haccounts.unmoved_iff hn hr ⟨hd, hid⟩⟩
  · intro hclean r hr d reason hd hyes hmark hno
    by_contra hpolicy
    obtain ⟨reason', hskip⟩ := haccounts.skipped_of_refuses hw.typed.indexed hr hd
      (fun hkeep => hpolicy hkeep.2) hno
    obtain ⟨report, p'', v', happly', hunmoved⟩ := hclean
    cases happly.symm.trans happly'
    have hreported := ApplyReport.mem_skipped_iff.2 ⟨r, reason', hskip, rfl⟩
    have hleft := hunmoved _ hreported d hd.type hd.typeId
    cases hyes.symm.trans ((haccounts.unmoved_iff hn hskip hd).1 hleft hmark)
  · intro hall
    refine ⟨_, p', v, happly, fun s hs d hd hid => ?_⟩
    obtain ⟨r, reason, hr, rfl⟩ := ApplyReport.mem_skipped_iff.1 hs
    have hknows : w.registry.Knows r d := ⟨hd, hid⟩
    refine (haccounts.unmoved_iff hn hr hknows).2 fun hmark => ?_
    have hmem : r ∈ records := haccounts.order ▸ List.mem_map_of_mem hr
    cases haccounts.meets _ hr with
    | unknown hno => exact absurd hknows (hno d)
    | withheld hd' hno => rwa [hknows.unique hd' hw.typed.indexed]
    | refused hd' hyes hkeep hno =>
      obtain rfl := hknows.unique hd' hw.typed.indexed
      exact absurd ⟨hmark, hall r hmem _ _ hknows hyes hmark hno⟩ hkeep

def vassal : Replicator :=
  (Replicator.new .client AuthorityMode.serverAuthoritative.policy).markLocalWrite ⟨0, 0⟩ ⟨1⟩

def garbled : List Record := [⟨0x91df0ad, [9]⟩, ⟨0x8aee8f12, []⟩]

theorem decode_garbled : Wire.decode (Wire.written garbled) = .ok garbled :=
  Wire.decode_eq_ok_iff.2 ⟨⟨by decide, by decide⟩, by unfold Wire.Ascending; decide, rfl⟩

theorem skipsCleanly_iff_duel : duel.Reachable ∧ duel.isAlive ⟨0, 0⟩ = true ∧
    (vassal.apply duel ⟨0, 0⟩ (Wire.written garbled)).2.2.Fits ∧
    (∃ report p' v, vassal.apply duel ⟨0, 0⟩ (Wire.written garbled) = (.ok report, p', v) ∧
      ∀ s ∈ report.skipped, ∀ d, duel.descriptor? d.handle = some d → s.typeId = d.stableId →
        v.peek ⟨0, 0⟩ (Id.component d.handle) = duel.peek ⟨0, 0⟩ (Id.component d.handle) ∧
        (duel.Unmoved vassal ⟨0, 0⟩ d p' v ↔
          (vassal.hasLocalWrite ⟨0, 0⟩ d.handle = true → d.flags.replicable = false))) ∧
    (duel.SkipsCleanly vassal ⟨0, 0⟩ (Wire.written garbled) ↔ ∀ r ∈ garbled, ∀ d reason,
      duel.registry.Knows r d → d.flags.replicable = true →
      vassal.hasLocalWrite ⟨0, 0⟩ d.handle = true → d.Refuses r.payload reason →
      vassal.policy ⟨⟨0, 0⟩, d.handle, d.path, vassal.role⟩ = .keepLocal) := by
  have he : duel.isAlive ⟨0, 0⟩ = true := by decide +kernel
  have hf : (vassal.apply duel ⟨0, 0⟩ (Wire.written garbled)).2.2.Fits := by decide +kernel
  exact ⟨reachable_duel, he, hf, reachable_duel.skipsCleanly_iff he decode_garbled hf⟩

/-- The record for health brings nothing, and yet the client forgets that it has written the health:
if it stands by its own values from then on, the next record for health is applied all the same. -/
theorem vassal_forgets : duel.Reachable ∧ Wire.decode (Wire.written garbled) = .ok garbled ∧
    (vassal.apply duel ⟨0, 0⟩ (Wire.written garbled)).1 = .ok { skipped :=
      [⟨0x91df0ad, 9, .undecodable "SizeMismatch: expected 4 bytes, got 1"⟩,
        ⟨0x8aee8f12, 8, .notReplicable "reflecs.ChildOf"⟩] } ∧
    vassal.hasLocalWrite ⟨0, 0⟩ ⟨1⟩ = true ∧
    (vassal.apply duel ⟨0, 0⟩ (Wire.written garbled)).2.1.hasLocalWrite ⟨0, 0⟩ ⟨1⟩ = false ∧
    ({ vassal with policy := AuthorityMode.preferLocal.policy }.apply duel ⟨0, 0⟩
      (Wire.written [⟨0x91df0ad, [9, 0, 0, 0]⟩])).1 = .ok { keptLocal := [⟨1⟩] } ∧
    ({ (vassal.apply duel ⟨0, 0⟩ (Wire.written garbled)).2.1 with
        policy := AuthorityMode.preferLocal.policy }.apply duel ⟨0, 0⟩
      (Wire.written [⟨0x91df0ad, [9, 0, 0, 0]⟩])).1 = .ok { applied := [⟨1⟩] } ∧
    ¬ duel.SkipsCleanly vassal ⟨0, 0⟩ (Wire.written garbled) := by
  have hreport : (vassal.apply duel ⟨0, 0⟩ (Wire.written garbled)).1 = .ok { skipped :=
      [⟨0x91df0ad, 9, .undecodable "SizeMismatch: expected 4 bytes, got 1"⟩,
        ⟨0x8aee8f12, 8, .notReplicable "reflecs.ChildOf"⟩] } := by decide +kernel
  have hmark : vassal.hasLocalWrite ⟨0, 0⟩ ⟨1⟩ = true := by decide +kernel
  have hgone : (vassal.apply duel ⟨0, 0⟩ (Wire.written garbled)).2.1.hasLocalWrite ⟨0, 0⟩ ⟨1⟩ =
      false := by decide +kernel
  refine ⟨reachable_duel, decode_garbled, hreport, hmark, hgone, by decide +kernel,
    by decide +kernel, fun hclean => ?_⟩
  obtain ⟨report, p', v, happly, hunmoved⟩ := hclean
  rw [happly] at hreport hgone
  obtain rfl := Except.ok.inj hreport
  have hleft := hunmoved _ List.mem_cons_self (Registry.freeze hitPoints ⟨1⟩) rfl rfl
  cases hgone.symm.trans (hleft.mark.trans hmark)

end World
end EntityWorld
