import EntityWorld.Proofs.Replication.Collection
import EntityWorld.Proofs.Replication.Wire
set_option autoImplicit false

/-!
The bytes of a snapshot depend on which components are asked for, and neither on their order nor on
how often they come in the list. They hold one record for each of those that the entity has and that
are replicable.
-/
namespace EntityWorld

theorem Wire.encode_of_perm {rs rs' : List Record} {bs : Bytes} (h : encode rs = .ok bs)
    (hp : rs'.Perm rs) : encode rs' = .ok bs := by
  obtain ⟨hfits, hnodup, rfl⟩ := encode_eq_ok_iff.1 h
  have hnodup' : (rs'.map Record.typeId).Nodup := (hp.map Record.typeId).nodup_iff.2 hnodup
  have hsorted : (sortRecords rs').Perm (sortRecords rs) :=
    (sortRecords_perm rs').trans (hp.trans (sortRecords_perm rs).symm)
  rw [encode_of_nodup (hfits.perm hp) hnodup', (ascending_sortRecords_iff.2 hnodup').eq_of_perm
    (ascending_sortRecords_iff.2 hnodup) hsorted]

namespace World

variable {w : World} {e : Entity} {d d' : TypeDescriptor} {x x' : Value} {h : TypeHandle}
variable {handles handles' seen : List TypeHandle} {r r' : Record}
variable {records records' done : List Record} {bytes : Bytes}

/-! ### The snapshot -/

/-- A snapshot is what the records of the components listed are written as. -/
theorem snapshot_eq_ok_iff (hw : w.WellFormed) (hi : w.registry.Indexed) :
    (Replicator.snapshot w e handles).1 = .ok bytes ↔ w.isAlive e = true ∧
      ∃ records, w.Gathers e handles records ∧ Wire.encode records = .ok bytes := by
  rw [Replicator.snapshot]
  obtain ⟨he, records, told, hg, hcollect⟩ | ⟨hno, err, told, hcollect⟩ :=
    collect_cases hw hi e handles
  · rw [hcollect, and_iff_right he]
    refine ⟨fun hok => ⟨records, hg, hok⟩, fun hex => ?_⟩
    -- the order may be another one, which the encoder does away with
    obtain ⟨records', hg', hok⟩ := hex
    exact Wire.encode_of_perm hok (hg.perm hi hg')
  · rw [hcollect]
    refine iff_of_false (fun hok => ?_) fun hex => hno ?_
    · cases hok
    · obtain ⟨he, records, hg, -⟩ := hex
      exact ⟨he, fun h => hg.canSend hw⟩

theorem exists_snapshot_iff (hw : w.WellFormed) (hi : w.registry.Indexed) :
    (∃ bytes, (Replicator.snapshot w e handles).1 = .ok bytes) ↔ w.isAlive e = true ∧
      (∀ h ∈ handles, w.CanSend e h) ∧
      ∀ r d x, w.Sent e r d x → d.handle ∈ handles → r.payload.length < 0x100000000 := by
  simp only [snapshot_eq_ok_iff hw hi]
  constructor
  · intro hex
    obtain ⟨bytes, he, records, hg, hok⟩ := hex
    refine ⟨he, fun h => hg.canSend hw, fun r d x hr hd => ?_⟩
    exact (Wire.encode_eq_ok_iff.1 hok).1.payloads r ((hg.mem_iff hi).2 ⟨d, x, hr, hd⟩)
  · intro hall
    obtain ⟨he, hsend, hshort⟩ := hall
    obtain ⟨-, records, -, hg, -⟩ | ⟨hno, -⟩ := collect_cases hw hi e handles
    · refine ⟨_, he, records, hg, Wire.encode_of_nodup ⟨hg.length_lt hw, fun r hr => ?_⟩ hg.nodup⟩
      obtain ⟨d, x, hsent, hd⟩ := hg.sound r hr
      exact hshort r d x hsent hd
    · exact absurd ⟨he, hsend⟩ hno

theorem collectFrom_filter (hw : w.WellFormed) {ds : List TypeDescriptor}
    (hds : ∀ d ∈ ds, w.descriptor? d.handle = some d) (told : List HookEvent)
    (done : List Record) :
    collectFrom e (w.note told) done
        ((ds.filter fun d => d.flags.replicable).map TypeDescriptor.handle) =
      collectFrom e (w.note told) done (ds.map TypeDescriptor.handle) := by
  induction ds generalizing told done with
  | nil => rfl
  | cons d rest ih =>
    obtain ⟨hd, hrest⟩ := List.forall_mem_cons.1 hds
    have hlater := ih hrest
    by_cases hno : ∀ x, ¬ w.Shares e d x
    · rw [List.map_cons, collectFrom_of_not_shares hw hd hno, ← hlater]
      cases hreplicable : d.flags.replicable with
      | false => rw [List.filter_cons, hreplicable, if_neg Bool.false_ne_true]
      | true =>
        rw [List.filter_cons, if_pos hreplicable, List.map_cons,
          collectFrom_of_not_shares hw hd hno]
    · obtain ⟨x, hs⟩ := not_forall_not.1 hno
      obtain ⟨result, more, hpayload, -⟩ := (hs.note told).payload
      rw [List.filter_cons, if_pos hs.replicable, List.map_cons, List.map_cons,
        collectFrom_of_shares hw hs, collectFrom_of_shares hw hs, hlater, hpayload, note_note]
      cases result with
      | error err => rfl
      | ok bs => simp only [hlater]

theorem collect_replicableTypes (hw : w.WellFormed) (e : Entity) :
    w.collect e w.replicableTypes =
      w.collect e (w.registry.entries.map TypeDescriptor.handle) := by
  rw [collect, collect, replicableTypes]
  split
  · exact collectFrom_filter hw (fun _ => hw.descriptor?_of_mem) [] []
  · rfl

/-- What a snapshot tells, whatever the list of components looks like. -/
structure SnapshotsCanonically (w : World) (e : Entity) : Prop where
  exists_iff : ∀ handles, (∃ bytes, (Replicator.snapshot w e handles).1 = .ok bytes) ↔
    w.isAlive e = true ∧ (∀ h ∈ handles, w.CanSend e h) ∧
      ∀ r d x, w.Sent e r d x → d.handle ∈ handles → r.payload.length < 0x100000000
  same : ∀ handles handles' bytes, (∀ h, h ∈ handles ↔ h ∈ handles') →
    (Replicator.snapshot w e handles).1 = .ok bytes →
      (Replicator.snapshot w e handles').1 = .ok bytes
  decode : ∀ handles bytes, (Replicator.snapshot w e handles).1 = .ok bytes →
    ∃ records, Wire.decode bytes = .ok records ∧ Wire.Ascending records ∧
      w.Gathers e handles records
  all : Replicator.snapshotAll w e =
    Replicator.snapshot w e (w.registry.entries.map TypeDescriptor.handle)

theorem Reachable.snapshotsCanonically (h : w.Reachable) (e : Entity) :
    w.SnapshotsCanonically e := by
  have hw := h.wellFormed
  have hi := h.typed.indexed
  refine ⟨fun handles => exists_snapshot_iff hw hi, fun handles handles' bytes hsame hok => ?_,
    fun handles bytes hok => ?_, ?_⟩
  · obtain ⟨he, records, hg, hencode⟩ := (snapshot_eq_ok_iff hw hi).1 hok
    exact (snapshot_eq_ok_iff hw hi).2 ⟨he, records, hg.congr hsame, hencode⟩
  · obtain ⟨-, records, hg, hencode⟩ := (snapshot_eq_ok_iff hw hi).1 hok
    obtain ⟨hfits, hnodup, rfl⟩ := Wire.encode_eq_ok_iff.1 hencode
    have hperm := Wire.sortRecords_perm records
    have hasc := Wire.ascending_sortRecords_iff.2 hnodup
    exact ⟨Wire.sortRecords records, Wire.decode_eq_ok_iff.2 ⟨hfits.perm hperm, hasc, rfl⟩, hasc,
      hg.of_perm hperm⟩
  · rw [Replicator.snapshotAll, Replicator.snapshot, Replicator.snapshot,
      collect_replicableTypes hw]

/-! ### A wounded knight -/

def hitPoints : TypeDescription := (TypeDescription.plain .hp "Game.Health").replicated (.raw .hp)

def burning : TypeDescription :=
  { TypeDescription.tag "Game.Burning" with
    flags := { trivial := true, zeroInit := true, replicable := true } }

def battle : World :=
  World.new.run [.registerType hitPoints, .registerType burning, .spawn,
    .edit (.write ⟨0, 0⟩ ⟨1⟩ .hp (.plain [7, 0, 0, 0])), .edit (.add ⟨0, 0⟩ ⟨⟨2⟩⟩)]

theorem reachable_battle : battle.Reachable := Reachable.new.run (by decide +kernel)

def afflictions : List Record := [⟨0x91df0ad, [7, 0, 0, 0]⟩, ⟨0x4c86ad7e, []⟩]

theorem snapshotAll_battle :
    (Replicator.snapshotAll battle ⟨0, 0⟩).1 = .ok (Wire.written afflictions) := by
  have hcollect : (battle.collect ⟨0, 0⟩ battle.replicableTypes).1 = .ok afflictions := by
    decide +kernel
  have hencode : Wire.encode afflictions = .ok (Wire.written afflictions) :=
    Wire.encode_of_ascending ⟨by decide, by decide⟩ (by unfold Wire.Ascending; decide)
  rw [← hencode, Replicator.snapshotAll, Replicator.snapshot]
  generalize battle.collect ⟨0, 0⟩ battle.replicableTypes = r at hcollect
  obtain ⟨result, w⟩ := r
  subst hcollect
  rfl

/-- The knight's snapshot, asked for out of order and with repetitions. -/
theorem snapshotsCanonically_battle : battle.Reachable ∧ battle.SnapshotsCanonically ⟨0, 0⟩ ∧
    (Replicator.snapshot battle ⟨0, 0⟩ [⟨2⟩, ⟨0⟩, ⟨1⟩, ⟨2⟩]).1 =
      .ok (Wire.written afflictions) := by
  have hsame (k : TypeHandle) : k ∈ [⟨0⟩, ⟨1⟩, ⟨2⟩] ↔ k ∈ [⟨2⟩, ⟨0⟩, ⟨1⟩, ⟨2⟩] := by
    simp only [List.mem_cons, List.not_mem_nil, or_false]
    tauto
  have h : battle.SnapshotsCanonically ⟨0, 0⟩ := reachable_battle.snapshotsCanonically ⟨0, 0⟩
  have htypes : battle.registry.entries.map TypeDescriptor.handle = [⟨0⟩, ⟨1⟩, ⟨2⟩] := by
    decide +kernel
  have hall := snapshotAll_battle
  rw [h.all, htypes] at hall
  exact ⟨reachable_battle, h, h.same _ _ _ hsame hall⟩

end World
end EntityWorld
