import EntityWorld.Proofs.Replication.Canonical
import EntityWorld.Proofs.Replication.Memory
import EntityWorld.Proofs.Replication.Stream
set_option autoImplicit false

/-!
Deltas that fail. A delta that cannot be collected leaves no trace. But the baseline takes the
changes over before they are written, so if one of them is too long to be written, the delta fails
and the next one no longer tells of them. Where no delta meets such a change, nothing is lost:
every delta that succeeds tells all that differs from what was told last.
-/
namespace EntityWorld

open Replicator (lastSent)

namespace World

variable {w : World} {p : Replicator} {e : Entity} {b : Baseline} {records : List Record}

/-- All that `e` has can be encoded, but one of the changes is too long for its length field. -/
structure Overflows (w : World) (p : Replicator) (e : Entity) : Prop where
  canSend : w.isAlive e = true ∧ ∀ h ∈ w.replicableTypes, w.CanSend e h
  long : ∃ r d x, w.Sent e r d x ∧ (p.baseline e).get? r.typeId ≠ some r.payload ∧
    0x100000000 ≤ r.payload.length

namespace Changes

theorem encode_cases (h : w.Changes p e records b)
    (hcan : w.isAlive e = true ∧ ∀ h ∈ w.replicableTypes, w.CanSend e h) :
    (∃ bytes, Wire.encode records = .ok bytes ∧ ¬ w.Overflows p e) ∨
      ∃ err, Wire.encode records = .error err ∧ w.Overflows p e := by
  cases hencode : Wire.encode records with
  | ok bytes =>
    refine .inl ⟨bytes, rfl, fun hover => ?_⟩
    obtain ⟨r, d, x, hr, hnew, hlong⟩ := hover.long
    have hshort := (Wire.encode_eq_ok_iff.1 hencode).1.payloads r
      ((h.mem_iff r).2 ⟨⟨d, x, hr⟩, hnew⟩)
    exact Nat.not_lt_of_le hlong hshort
  | error err =>
    refine .inr ⟨err, rfl, ?_⟩
    by_contra hno
    have hok := Wire.encode_of_nodup ⟨h.few, fun r hr => ?_⟩ h.nodup
    · rw [hencode] at hok
      cases hok
    · obtain ⟨⟨d, x, hsent⟩, hnew⟩ := (h.mem_iff r).1 hr
      by_contra hlong
      exact hno ⟨hcan, r, d, x, hsent, hnew, Nat.le_of_not_lt hlong⟩

theorem get?_baseline (hi : w.registry.Indexed) (h : w.Changes p e records b) {r : Record}
    {d : TypeDescriptor} {x : Value} (hr : w.Sent e r d x) : b.get? r.typeId = some r.payload := by
  rw [h.baseline]
  refine Replicator.lastSent_or_eq (fun r r' hr hr' => ?_) h.nodup h.mem_iff ⟨d, x, hr⟩
  obtain ⟨d, x, hr⟩ := hr
  obtain ⟨d', x', hr'⟩ := hr'
  exact hr.eq hi hr'

end Changes

theorem Sent.canSend {r : Record} {d : TypeDescriptor} {x : Value} (hr : w.Sent e r d x) :
    w.CanSend e d.handle :=
  ⟨d, hr.type, fun _ hy => ⟨r.payload, hr.unique hy ▸ hr.payload⟩⟩

theorem not_overflows_of_snapshotAll (hw : w.WellFormed) (hi : w.registry.Indexed) {bytes : Bytes}
    (hall : (Replicator.snapshotAll w e).1 = .ok bytes) : ¬ w.Overflows p e := by
  intro hover
  obtain ⟨r, d, x, hr, -, hlong⟩ := hover.long
  obtain ⟨-, -, hshort⟩ := (exists_snapshot_iff hw hi).1 ⟨bytes, hall⟩
  have hmem : d.handle ∈ w.replicableTypes :=
    (mem_replicableTypes hw).2 ⟨d, hr.type, hr.replicable⟩
  exact Nat.not_lt_of_le hlong (hshort r d x hr hmem)

theorem Overflows.next (hw : w.WellFormed) (hi : w.registry.Indexed) (h : w.Overflows p e) :
    (∃ err, (p.snapshotDelta w e).1 = .error err) ∧ ∃ bytes,
      ((p.snapshotDelta w e).2.1.snapshotDelta w e).1 = .ok bytes ∧ Wire.decode bytes = .ok [] := by
  obtain ⟨hno, -⟩ | ⟨hcan, records, b, _, hchanges, hdelta⟩ := snapshotDelta_cases hw hi p e
  · exact absurd h.canSend hno
  rw [hdelta]
  obtain ⟨-, -, hno⟩ | ⟨err, hfails, -⟩ := hchanges.encode_cases hcan
  · exact absurd h hno
  refine ⟨⟨err, hfails⟩, ?_⟩
  generalize hq : ({ p with baselines := p.baselines.insert e b } : Replicator) = q
  have hb : q.baseline e = b := by
    rw [← hq, Replicator.baseline, FinMap.get?_insert, if_pos rfl, Option.getD_some]
  obtain ⟨hno, -⟩ | ⟨-, records', b', _, hchanges', hdelta'⟩ := snapshotDelta_cases hw hi q e
  · exact absurd hcan hno
  -- the baseline has every payload, so there are no more changes
  have hnone : records' = [] := by
    refine List.eq_nil_iff_forall_not_mem.2 fun r hr => ?_
    obtain ⟨⟨d, x, hsent⟩, hnew⟩ := (hchanges'.mem_iff r).1 hr
    exact hnew (hb ▸ hchanges.get?_baseline hi hsent)
  rw [hdelta', hnone]
  have hfits : Wire.Framable [] := ⟨by decide, fun r hr => absurd hr List.not_mem_nil⟩
  exact ⟨_, Wire.encode_of_ascending hfits .nil, Wire.decode_eq_ok_iff.2 ⟨hfits, .nil, rfl⟩⟩

end World

namespace Replicator

variable {p : Replicator} {w : World} {e x : Entity} {id : UInt32} {bs : Bytes}
  {told : List Record}

/-- A delta that fails leaves the baselines alone, and one that succeeds has all that differs from
what was told last. -/
structure LosesNothing (told : List Record) (p : Replicator) (w : World) (e : Entity) : Prop where
  failed : ∀ err, (p.snapshotDelta w e).1 = .error err →
    (p.snapshotDelta w e).2.1.baselines = p.baselines
  tells : ∀ bytes, (p.snapshotDelta w e).1 = .ok bytes → ∃ records,
    Wire.decode bytes = .ok records ∧
      ∀ r d u, w.Sent e r d u → lastSent told r.typeId ≠ some r.payload → r ∈ records

def Backed (told : List Record) (b : Baseline) : Prop :=
  ∀ id bs, b.get? id = some bs → lastSent told id = some bs

theorem baseline_insert (p : Replicator) (e x : Entity) (b : Baseline) :
    baseline { p with baselines := p.baselines.insert e b } x =
      if x = e then b else p.baseline x := by
  unfold baseline
  rw [FinMap.get?_insert]
  split <;> rfl

theorem failed_iff (hw : w.Reachable) : (∀ err, (p.snapshotDelta w e).1 = .error err →
    (p.snapshotDelta w e).2.1.baselines = p.baselines) ↔ ¬ w.Overflows p e := by
  have hi := hw.typed.indexed
  obtain ⟨hno, err, _, hdelta⟩ | ⟨hcan, records, b, _, hchanges, hdelta⟩ :=
    World.snapshotDelta_cases hw.wellFormed hi p e
  · rw [hdelta]
    exact iff_of_true (fun _ _ => rfl) fun hover => hno hover.canSend
  · obtain ⟨bytes, hok, hno⟩ | ⟨err, hfails, hover⟩ := hchanges.encode_cases hcan
    · rw [hdelta, hok]
      exact iff_of_true nofun hno
    · rw [hdelta, hfails]
      refine iff_of_false (fun hsame => ?_) (not_not_intro hover)
      obtain ⟨r, d, u, hr, hnew, -⟩ := hover.long
      -- the new baseline has `r`, and the old one has it not
      have hb : p.baseline e = b := by
        rw [baseline, ← hsame err rfl, FinMap.get?_insert, if_pos rfl, Option.getD_some]
      exact hnew (hb ▸ hchanges.get?_baseline hi hr)

theorem LosesNothing.of_backed (hw : w.Reachable) (hb : Backed told (p.baseline e))
    (hno : ¬ w.Overflows p e) : LosesNothing told p w e := by
  refine ⟨(failed_iff hw).2 hno, fun bytes hok => ?_⟩
  obtain ⟨-, err, _, hdelta⟩ | ⟨-, records, b, _, hchanges, hdelta⟩ :=
    World.snapshotDelta_cases hw.wellFormed hw.typed.indexed p e
  · rw [hdelta] at hok
    cases hok
  · rw [hdelta] at hok
    refine ⟨_, Wire.decode_of_encode hok, fun r d u hr hnew => ?_⟩
    refine (Wire.sortRecords_perm records).mem_iff.2 ((hchanges.mem_iff r).2 ⟨⟨d, u, hr⟩, ?_⟩)
    exact fun hold => hnew (hb _ _ hold)

/-! ### Everything that a replicator is used for -/

inductive Use where
  | delta (w : World) (e : Entity)
  | apply (w : World) (e : Entity) (bytes : Bytes)
  | applyNetworked (w : World) (n : NetworkId) (bytes : Bytes)
  | writeLocal (w : World) (e : Entity) (h : TypeHandle) (t : HostType) (v : Value)
  | markLocalWrite (e : Entity) (h : TypeHandle)
  | setPolicy (policy : AuthorityPolicy)
  | callIds (c : NetworkIds.Call)
  | forget (e : Entity)
  | retainAlive (w : World)

def use (p : Replicator) : Use → Replicator
  | .delta w e => (p.snapshotDelta w e).2.1
  | .apply w e bytes => (p.apply w e bytes).2.1
  | .applyNetworked w n bytes => (p.applyNetworked w n bytes).2.1
  | .writeLocal w e h t v => (p.writeLocal w e h t v).2.1
  | .markLocalWrite e h => p.markLocalWrite e h
  | .setPolicy policy => { p with policy }
  | .callIds c => { p with ids := p.ids.call c }
  | .forget e => p.forget e
  | .retainAlive w => (p.retainAlive w).2

def recordsOf (result : Except ReplicationError Bytes) : List Record :=
  match result.bind Wire.decode with
  | .ok records => records
  | .error _ => []

def telling (p : Replicator) : Use → Entity → List Record
  | .delta w e, x => if x = e then recordsOf (p.snapshotDelta w e).1 else []
  | _, _ => []

/-- A replicator with what its deltas have told of each entity, from first to last. -/
structure History where
  replicator : Replicator
  told : Entity → List Record

namespace History

def new (role : NetRole) (policy : AuthorityPolicy) : History := ⟨.new role policy, fun _ => []⟩

def use (s : History) (u : Use) : History :=
  ⟨s.replicator.use u, fun x => s.told x ++ s.replicator.telling u x⟩

def run (s : History) (uses : List Use) : History := uses.foldl use s

def AtDeltas (s : History) (uses : List Use) (P : History → World → Entity → Prop) : Prop :=
  ∀ pre w e post, uses = pre ++ .delta w e :: post → P (s.run pre) w e

end History

theorem baselines_applyRecord (p : Replicator) (w : World) (report : ApplyReport) (r : Record) :
    (p.applyRecord w e report r).2.1.baselines = p.baselines := by
  obtain hsame | ⟨k, hsame⟩ := (World.applyRecord_frame p w e report r).1
  · rw [hsame]
  · rw [hsame]

theorem baselines_applyRecords (records : List Record) (p : Replicator) (w : World)
    (report : ApplyReport) : (applyRecords e p w report records).2.1.baselines = p.baselines := by
  induction records generalizing p w report with
  | nil => rfl
  | cons r rest ih => exact (ih _ _ _).trans (baselines_applyRecord p w report r)

theorem baselines_apply (p : Replicator) (w : World) (e : Entity) (bytes : Bytes) :
    (p.apply w e bytes).2.1.baselines = p.baselines := by
  unfold apply
  split
  · rfl
  · split
    · exact baselines_applyRecords _ p w {}
    · rfl

theorem baselines_writeLocal (p : Replicator) (w : World) (e : Entity) (h : TypeHandle)
    (t : HostType) (v : Value) : (p.writeLocal w e h t v).2.1.baselines = p.baselines := by
  unfold writeLocal
  split <;> rfl

theorem baseline_use {u : Use} (hu : ∀ w e, u ≠ .delta w e)
    (hb : ((p.use u).baseline x).get? id = some bs) : (p.baseline x).get? id = some bs := by
  have hsame (heq : (p.use u).baselines = p.baselines) : (p.baseline x).get? id = some bs := by
    rwa [baseline, heq] at hb
  have hdrop (hle : ∀ b, (p.use u).baselines.get? x = some b → p.baselines.get? x = some b) :
      (p.baseline x).get? id = some bs := by
    unfold baseline at hb ⊢
    cases hx : (p.use u).baselines.get? x with
    | none =>
      rw [hx] at hb
      cases hb
    | some b => rwa [hle b hx, ← hx]
  cases u with
  | delta w e => exact absurd rfl (hu w e)
  | apply w e bytes => exact hsame (baselines_apply p w e bytes)
  | applyNetworked w n bytes =>
    refine hsame ?_
    simp only [use, applyNetworked]
    split
    · exact baselines_apply p w _ bytes
    · rfl
  | writeLocal w e h t v => exact hsame (baselines_writeLocal p w e h t v)
  | markLocalWrite e h => exact hsame rfl
  | setPolicy policy => exact hsame rfl
  | callIds c => exact hsame rfl
  | forget e => exact hdrop fun b hx => FinMap.get?_of_erase hx
  | retainAlive w => exact hdrop fun b hx => (FinMap.get?_filter_eq_some.1 hx).1

namespace History

variable {s : History} {u : Use} {uses : List Use}

theorem told_use (s : History) (u : Use) (x : Entity) :
    (s.use u).told x = s.told x ++ s.replicator.telling u x := rfl

theorem replicator_use (s : History) (u : Use) :
    (s.use u).replicator = s.replicator.use u := rfl

def Backed (s : History) : Prop := ∀ x, Replicator.Backed (s.told x) (s.replicator.baseline x)

theorem backed_new (role : NetRole) (policy : AuthorityPolicy) : (new role policy).Backed := nofun

theorem Backed.delta (h : s.Backed) (hw : w.Reachable) (hno : ¬ w.Overflows s.replicator e) :
    (s.use (.delta w e)).Backed := by
  intro x id bs hb
  obtain ⟨-, err, _, hdelta⟩ | ⟨hcan, records, b, _, hchanges, hdelta⟩ :=
    World.snapshotDelta_cases hw.wellFormed hw.typed.indexed s.replicator e
  · have htelling : s.replicator.telling (.delta w e) x = [] := by
      rw [telling, hdelta]
      exact ite_self []
    rw [replicator_use, Replicator.use, hdelta] at hb
    rw [told_use, htelling, List.append_nil]
    exact h x id bs hb
  · obtain ⟨bytes, hok, -⟩ | ⟨-, -, hover⟩ := hchanges.encode_cases hcan
    swap
    · exact absurd hover hno
    rw [replicator_use, Replicator.use, hdelta, baseline_insert] at hb
    rw [told_use, telling, hdelta, hok, recordsOf, Except.bind, Wire.decode_of_encode hok,
      lastSent_append, Option.or_eq_some_iff]
    by_cases hx : x = e
    · subst hx
      rw [if_pos rfl, hchanges.baseline, Option.or_eq_some_iff] at hb
      rw [if_pos rfl, lastSent_perm hchanges.nodup (Wire.sortRecords_perm records)]
      exact hb.imp_right fun hold => ⟨hold.1, h x id bs hold.2⟩
    · rw [if_neg hx] at hb ⊢
      exact .inr ⟨rfl, h x id bs hb⟩

theorem Backed.other (h : s.Backed) (hu : ∀ w e, u ≠ .delta w e) : (s.use u).Backed := by
  intro x id bs hb
  have htelling : s.replicator.telling u x = [] := by
    cases u with
    | delta w e => exact absurd rfl (hu w e)
    | _ => rfl
  rw [told_use, htelling, List.append_nil]
  exact h x id bs (baseline_use hu hb)

theorem Backed.run (h : s.Backed)
    (hall : s.AtDeltas uses fun s w e => w.Reachable ∧ ¬ w.Overflows s.replicator e) :
    (s.run uses).Backed := by
  induction uses generalizing s with
  | nil => exact h
  | cons u rest ih =>
    refine ih ?_ fun pre w e post hsplit => hall (u :: pre) w e post (congrArg (u :: ·) hsplit)
    by_cases hu : ∃ w e, u = .delta w e
    · obtain ⟨w, e, rfl⟩ := hu
      obtain ⟨hw, hno⟩ := hall [] w e rest rfl
      exact h.delta hw hno
    · exact h.other fun w e heq => hu ⟨w, e, heq⟩

/-- A delta fails, and the next one succeeds and tells nothing. -/
structure Lost (s : History) (w : World) (e : Entity) : Prop where
  fails : ∃ err, (s.replicator.snapshotDelta w e).1 = .error err
  succeeds : ∃ bytes, ((s.use (.delta w e)).replicator.snapshotDelta w e).1 = .ok bytes ∧
    Wire.decode bytes = .ok []

theorem loses_of_overflows {r : Record} {d : TypeDescriptor} {v : Value} (hw : w.Reachable)
    (h : w.Overflows s.replicator e) (hr : w.Sent e r d v)
    (hnew : lastSent (s.told e) r.typeId ≠ some r.payload) :
    Lost s w e ∧ ¬ LosesNothing (s.told e) s.replicator w e ∧
      ¬ LosesNothing ((s.use (.delta w e)).told e) (s.use (.delta w e)).replicator w e := by
  obtain ⟨⟨err, hfails⟩, bytes, hok, hdecode⟩ := h.next hw.wellFormed hw.typed.indexed
  refine ⟨⟨⟨err, hfails⟩, bytes, hok, hdecode⟩, fun hl => (failed_iff hw).1 hl.failed h,
    fun hl => ?_⟩
  obtain ⟨records, hrecords, htells⟩ := hl.tells bytes hok
  obtain rfl := Except.ok.inj (hdecode.symm.trans hrecords)
  have htold : (s.use (.delta w e)).told e = s.told e := by
    rw [told_use, telling, if_pos rfl, hfails]
    exact List.append_nil _
  exact List.not_mem_nil (htells r d v hr (htold ▸ hnew))

/-- Along any uses no delta loses anything, if and only if none meets a change that is too long to
be written while all else can be encoded. -/
theorem losesNothing_along_iff (role : NetRole) (policy : AuthorityPolicy) (uses : List Use)
    (hworlds : ∀ w e, .delta w e ∈ uses → w.Reachable) :
    ((new role policy).AtDeltas uses fun s w e => LosesNothing (s.told e) s.replicator w e) ↔
      (new role policy).AtDeltas uses fun s w e => ¬ w.Overflows s.replicator e := by
  have hreachable {pre : List Use} {w : World} {e : Entity} {post : List Use}
      (hsplit : uses = pre ++ .delta w e :: post) : w.Reachable :=
    hworlds w e (hsplit ▸ List.mem_append_right pre List.mem_cons_self)
  constructor
  · intro hall pre w e post hsplit
    exact (failed_iff (hreachable hsplit)).1 (hall pre w e post hsplit).failed
  · intro hno pre w e post hsplit
    have hbacked : ((new role policy).run pre).Backed :=
      (backed_new role policy).run fun pre' w' e' post' hsplit' => by
        have hearlier : uses = pre' ++ .delta w' e' :: (post' ++ .delta w e :: post) := by
          rw [hsplit, hsplit', List.append_assoc, List.cons_append]
        exact ⟨hreachable hearlier, hno pre' w' e' _ hearlier⟩
    exact .of_backed (hreachable hsplit) (hbacked e) (hno pre w e post hsplit)

def skirmish : List Use :=
  [.delta World.battle ⟨0, 0⟩, .markLocalWrite ⟨0, 0⟩ ⟨1⟩, .delta World.battle ⟨0, 0⟩]

theorem losesNothing_along_battle : (∀ w e, .delta w e ∈ skirmish → w.Reachable) ∧
    (new .server AuthorityMode.preferLocal.policy).AtDeltas skirmish fun s w e =>
      LosesNothing (s.told e) s.replicator w e := by
  have hbattle (w : World) (e : Entity) (hmem : .delta w e ∈ skirmish) :
      w = World.battle ∧ e = ⟨0, 0⟩ := by
    simpa [skirmish] using hmem
  have hworlds (w : World) (e : Entity) (hmem : .delta w e ∈ skirmish) : w.Reachable :=
    (hbattle w e hmem).1 ▸ World.reachable_battle
  refine ⟨hworlds, (losesNothing_along_iff _ _ skirmish hworlds).2 fun pre w e post hsplit => ?_⟩
  have hmem : .delta w e ∈ skirmish := hsplit ▸ List.mem_append_right pre List.mem_cons_self
  obtain ⟨rfl, rfl⟩ := hbattle w e hmem
  exact World.not_overflows_of_snapshotAll World.reachable_battle.wellFormed
    World.reachable_battle.typed.indexed World.snapshotAll_battle

/-- A map that is always written out in full. -/
def atlas : TypeDescription := (TypeDescription.plain .u32 "Game.Atlas").replicated
  ⟨fun _ => .ok (List.replicate 0x100000000 0), fun _ => .error (.refused "too long")⟩

def expedition : World :=
  World.new.run [.registerType World.hitPoints, .registerType atlas, .spawn,
    .edit (.write ⟨0, 0⟩ ⟨1⟩ .hp (.plain [7, 0, 0, 0])),
    .edit (.write ⟨0, 0⟩ ⟨2⟩ .u32 (.plain [1, 0, 0, 0]))]

theorem reachable_expedition : expedition.Reachable := World.Reachable.new.run (by decide +kernel)

theorem sent_hitPoints : expedition.Sent ⟨0, 0⟩ ⟨0x91df0ad, [7, 0, 0, 0]⟩
    (Registry.freeze World.hitPoints ⟨1⟩) (.plain [7, 0, 0, 0]) where
  type := rfl
  replicable := rfl
  peek := by decide +kernel
  typeId := by decide +kernel
  payload := by decide +kernel

theorem sent_atlas : expedition.Sent ⟨0, 0⟩
    ⟨(Registry.freeze atlas ⟨2⟩).stableId, List.replicate 0x100000000 0⟩
    (Registry.freeze atlas ⟨2⟩) (.plain [1, 0, 0, 0]) where
  type := rfl
  replicable := rfl
  peek := by decide +kernel
  typeId := rfl
  payload := rfl

theorem overflows_expedition (role : NetRole) (policy : AuthorityPolicy) :
    expedition.Overflows (.new role policy) ⟨0, 0⟩ := by
  have htypes : expedition.replicableTypes = [⟨1⟩, ⟨2⟩] := by decide +kernel
  refine ⟨⟨by decide +kernel, fun h hh => ?_⟩, _, _, _, sent_atlas, nofun,
    Nat.le_of_eq List.length_replicate.symm⟩
  rw [htypes] at hh
  obtain rfl | hh := List.mem_cons.1 hh
  · exact sent_hitPoints.canSend
  · rw [List.mem_singleton.1 hh]
    exact sent_atlas.canSend

def scribe : History := new .server AuthorityMode.serverAuthoritative.policy

/-- The hit points are lost with the map: the next delta succeeds without them. -/
theorem expedition_loses : expedition.Reachable ∧ Lost scribe expedition ⟨0, 0⟩ ∧
    ¬ LosesNothing (scribe.told ⟨0, 0⟩) scribe.replicator expedition ⟨0, 0⟩ ∧
    ¬ LosesNothing ((scribe.use (.delta expedition ⟨0, 0⟩)).told ⟨0, 0⟩)
      (scribe.use (.delta expedition ⟨0, 0⟩)).replicator expedition ⟨0, 0⟩ :=
  ⟨reachable_expedition,
    loses_of_overflows reachable_expedition (overflows_expedition _ _) sent_hitPoints nofun⟩

end History
end Replicator
end EntityWorld
