import EntityWorld.Proofs.Replication.Transfer
set_option autoImplicit false

/-!
Deltas, one after another. The sender compares with what it sent last, and never hears of the
receiver; the mirror keeps up all the same, because it still has whatever was sent last of each
component: what is removed at the sender stays at the mirror, and so does the baseline.
-/
namespace EntityWorld
namespace Replicator

variable {sent sent' l records : List Record} {r : Record} {id : UInt32} {bs : Bytes}

def lastSent (sent : List Record) (id : UInt32) : Option Bytes :=
  (sent.reverse.find? fun r => r.typeId = id).map Record.payload

theorem lastSent_append (sent sent' : List Record) (id : UInt32) :
    lastSent (sent ++ sent') id = (lastSent sent' id).or (lastSent sent id) := by
  rw [lastSent, List.reverse_append, List.find?_append, lastSent, lastSent]
  cases sent'.reverse.find? fun r => decide (r.typeId = id) <;> rfl

theorem lastSent_cons (r : Record) (sent : List Record) (id : UInt32) : lastSent (r :: sent) id =
    (lastSent sent id).or (if r.typeId = id then some r.payload else none) := by
  rw [← List.singleton_append, lastSent_append]
  by_cases h : r.typeId = id <;> simp [lastSent, h]

theorem lastSent_eq_none_iff : lastSent l id = none ↔ id ∉ l.map Record.typeId := by
  rw [lastSent, Option.map_eq_none_iff, List.find?_eq_none]
  simp

theorem lastSent_eq_some_iff (hn : (l.map Record.typeId).Nodup) :
    lastSent l id = some bs ↔ ⟨id, bs⟩ ∈ l := by
  induction l with
  | nil => exact iff_of_false nofun nofun
  | cons r rest ih =>
    obtain ⟨hnot, hrest⟩ := List.nodup_cons.1 hn
    rw [lastSent_cons, Option.or_eq_some_iff, ih hrest, List.mem_cons]
    constructor
    · intro hlast
      obtain hlater | ⟨-, hfirst⟩ := hlast
      · exact .inr hlater
      · split at hfirst
        · next hid => exact .inl (by rw [← hid, ← Option.some.inj hfirst])
        · cases hfirst
    · intro hmem
      obtain rfl | hlater := hmem
      · exact .inr ⟨lastSent_eq_none_iff.2 hnot, if_pos rfl⟩
      · exact .inl hlater

theorem lastSent_perm (hn : (l.map Record.typeId).Nodup) (hp : sent.Perm l) (id : UInt32) :
    lastSent sent id = lastSent l id := by
  refine Option.ext fun bs => ?_
  rw [lastSent_eq_some_iff hn, lastSent_eq_some_iff ((hp.map _).nodup_iff.2 hn), hp.mem_iff]

/-- The changes are the records that differ from the baseline, which takes them over. -/
theorem changes_spec (hn : (records.map Record.typeId).Nodup) (b : Baseline) :
    (changes b records).1 = records.filter (fun r => b.get? r.typeId ≠ some r.payload) ∧
    ∀ id, (changes b records).2.get? id = (lastSent (changes b records).1 id).or (b.get? id) := by
  induction records generalizing b with
  | nil => exact ⟨rfl, fun _ => rfl⟩
  | cons r rest ih =>
    obtain ⟨hnot, hrest⟩ := List.nodup_cons.1 hn
    rw [changes]
    by_cases hsame : b.get? r.typeId = some r.payload
    · obtain ⟨hchanged, hbaseline⟩ := ih hrest b
      rw [if_pos hsame, List.filter_cons_of_neg (by simpa using hsame)]
      exact ⟨hchanged, hbaseline⟩
    · obtain ⟨hchanged, hbaseline⟩ := ih hrest (b.insert r.typeId r.payload)
      rw [if_neg hsame, List.filter_cons_of_pos (by simpa using hsame)]
      refine ⟨congrArg (r :: ·) (hchanged.trans (List.filter_congr fun s hs => ?_)), fun id => ?_⟩
      · have hother : s.typeId ≠ r.typeId := fun heq => hnot (List.mem_map.2 ⟨s, hs, heq⟩)
        rw [FinMap.get?_insert, if_neg hother]
      · show (changes (b.insert r.typeId r.payload) rest).2.get? id = _
        rw [hbaseline, lastSent_cons, FinMap.get?_insert, Option.or_assoc]
        by_cases hid : r.typeId = id
        · rw [if_pos hid, if_pos hid.symm, Option.some_or]
        · rw [if_neg hid, if_neg (Ne.symm hid), Option.none_or]

theorem lastSent_or_eq {P : Record → Prop} {old : UInt32 → Option Bytes}
    (hP : ∀ r r', P r → P r' → r.typeId = r'.typeId → r = r')
    (hn : (records.map Record.typeId).Nodup)
    (hmem : ∀ r, r ∈ records ↔ P r ∧ old r.typeId ≠ some r.payload) (hr : P r) :
    (lastSent records r.typeId).or (old r.typeId) = some r.payload := by
  cases hlast : lastSent records r.typeId with
  | some bs =>
    obtain ⟨hnew, -⟩ := (hmem _).1 ((lastSent_eq_some_iff hn).1 hlast)
    rw [Option.some_or, hP r _ hr hnew rfl]
  | none =>
    rw [Option.none_or]
    by_contra hnew
    exact lastSent_eq_none_iff.1 hlast (List.mem_map_of_mem ((hmem r).2 ⟨hr, hnew⟩))

def baseline (p : Replicator) (e : Entity) : Baseline := (p.baselines.get? e).getD .empty

end Replicator

open Replicator (lastSent)

theorem Registry.Accepts.grows {g g' : Registry} {r : Record} {d : TypeDescriptor}
    {x : Option Value} (h : g.Accepts r d x) (hg : g.Grows g') : g'.Accepts r d x :=
  ⟨hg.descriptor? h.type, h.typeId, h.replicable, h.brings⟩

namespace World

variable {a b w : World} {e x : Entity} {p q : Replicator} {bytes : Bytes}
variable {sent records : List Record} {r : Record} {d : TypeDescriptor} {u : Value}

/-! ### Snapshots and worlds -/

theorem Reachable.oneEdit (hw : w.Reachable) (h : w.OneEdit b) (hf : b.Fits) : b.Reachable := by
  obtain rfl | ⟨y, rfl⟩ := h
  · exact hw
  · exact hw.step (.edit y) hf

theorem Reachable.applyRecords (hw : w.Reachable) {report : ApplyReport}
    (hf : (Replicator.applyRecords e p w report records).2.2.Fits) :
    (Replicator.applyRecords e p w report records).2.2.Reachable := by
  induction records generalizing p w report with
  | nil => exact hw
  | cons r rest ih =>
    have hgrows := (throughout_leads.toWide.applyRecords e rest
      (p.applyRecord w e report r).2.1 (p.applyRecord w e report r).2.2
      (p.applyRecord w e report r).1).grows
    exact ih (hw.oneEdit (applyRecord_frame p w e report r).2 (hgrows.fits hf)) hf

theorem Reachable.apply (hw : w.Reachable) (hf : (p.apply w e bytes).2.2.Fits) :
    (p.apply w e bytes).2.2.Reachable := by
  cases hd : Wire.decode bytes with
  | error err =>
    simp only [Replicator.apply, hd]
    exact hw
  | ok l =>
    cases he : w.isAlive e with
    | false =>
      simp only [Replicator.apply, hd, he, Bool.false_eq_true, if_false]
      exact hw
    | true =>
      rw [apply_of_decode hd he] at hf ⊢
      exact hw.applyRecords hf

/-! ### One delta -/

/-- A delta has one record for each replicable component of `e` that was not sent as it is. -/
structure Differs (a : World) (e : Entity) (sent records : List Record) : Prop where
  nodup : (records.map Record.typeId).Nodup
  mem_iff : ∀ r, r ∈ records ↔ (∃ d u, a.Ships e r d u) ∧ lastSent sent r.typeId ≠ some r.payload

theorem Differs.lastSent_eq (h : a.Differs e sent records) (hi : a.registry.Indexed)
    (hships : a.Ships e r d u) : lastSent (sent ++ records) r.typeId = some r.payload := by
  rw [Replicator.lastSent_append]
  refine Replicator.lastSent_or_eq (fun r r' hr hr' => ?_) h.nodup h.mem_iff ⟨d, u, hships⟩
  obtain ⟨d, u, hr⟩ := hr
  obtain ⟨d', u', hr'⟩ := hr'
  exact hr.sent.eq hi hr'.sent

/-- `records` are the changes of `e` since the baseline, and `base` is the baseline with them. -/
structure Changes (w : World) (p : Replicator) (e : Entity) (records : List Record)
    (base : Baseline) : Prop where
  few : records.length < 0x100000000
  nodup : (records.map Record.typeId).Nodup
  mem_iff : ∀ r, r ∈ records ↔
    (∃ d u, w.Sent e r d u) ∧ (p.baseline e).get? r.typeId ≠ some r.payload
  baseline : ∀ id, base.get? id = (lastSent records id).or ((p.baseline e).get? id)

theorem snapshotDelta_cases (hw : w.WellFormed) (hi : w.registry.Indexed) (p : Replicator)
    (e : Entity) :
    (¬ (w.isAlive e = true ∧ ∀ h ∈ w.replicableTypes, w.CanSend e h) ∧
      ∃ err told, p.snapshotDelta w e = (.error err, p, w.note told)) ∨
    (w.isAlive e = true ∧ ∀ h ∈ w.replicableTypes, w.CanSend e h) ∧ ∃ records base told,
      w.Changes p e records base ∧ p.snapshotDelta w e =
        (Wire.encode records, { p with baselines := p.baselines.insert e base }, w.note told) := by
  rw [Replicator.snapshotDelta]
  obtain ⟨he, all, told, hg, hcollect⟩ | ⟨hno, err, told, hcollect⟩ :=
    collect_cases hw hi e w.replicableTypes
  · have hall (r : Record) : r ∈ all ↔ ∃ d u, w.Sent e r d u := by
      rw [hg.mem_iff hi]
      refine exists₂_congr fun d u => and_iff_left_of_imp fun hr => ?_
      exact (mem_replicableTypes hw).2 ⟨d, hr.type, hr.replicable⟩
    obtain ⟨hchanged, hbaseline⟩ := Replicator.changes_spec hg.nodup (p.baseline e)
    have hsub : (Replicator.changes (p.baseline e) all).1.Sublist all := by
      rw [hchanged]
      exact List.filter_sublist
    refine .inr ⟨⟨he, fun h => hg.canSend hw⟩, _, _, told,
      ⟨Nat.lt_of_le_of_lt hsub.length_le (hg.length_lt hw),
        hg.nodup.sublist (hsub.map Record.typeId), fun r => ?_, hbaseline⟩, ?_⟩
    · rw [hchanged, List.mem_filter, decide_eq_true_iff, hall]
    · rw [hcollect]
      rfl
  · rw [hcollect]
    exact .inl ⟨hno, err, told, rfl⟩

theorem Reachable.snapshotDelta_differs (ha : a.Reachable)
    (hsends : ∀ d u, a.Shares e d u → ∃ bs, d.Sends u bs)
    (hbase : ∀ id, (p.baseline e).get? id = lastSent sent id)
    (h : (p.snapshotDelta a e).1 = .ok bytes) :
    ∃ records, Wire.decode bytes = .ok records ∧ a.Differs e sent records ∧
      (∀ id, ((p.snapshotDelta a e).2.1.baseline e).get? id = lastSent (sent ++ records) id) ∧
      ∃ told, (p.snapshotDelta a e).2.2 = a.note told := by
  obtain ⟨-, err, told, hdelta⟩ | ⟨-, records, base, told, hchanges, hdelta⟩ :=
    snapshotDelta_cases ha.wellFormed ha.typed.indexed p e
  · rw [hdelta] at h
    cases h
  rw [hdelta] at h ⊢
  have hperm := Wire.sortRecords_perm records
  have hnodup := hchanges.nodup
  refine ⟨Wire.sortRecords records, Wire.decode_of_encode h,
    ⟨(hperm.map _).nodup_iff.2 hnodup, fun r => ?_⟩, fun id => ?_, told, rfl⟩
  · rw [hperm.mem_iff, hchanges.mem_iff, hbase]
    refine and_congr_left' (exists₂_congr fun d u => ⟨fun hr => ?_, Ships.sent⟩)
    exact hr.ships (hsends d u hr.toShares)
  · rw [Replicator.lastSent_append, Replicator.lastSent_perm hnodup hperm, ← hbase,
      ← hchanges.baseline, Replicator.baseline, FinMap.get?_insert, if_pos rfl, Option.getD_some]

/-- Whatever was sent last for a type, `x` has. -/
def Reflects (b : World) (x : Entity) (sent : List Record) : Prop :=
  ∀ id bs, lastSent sent id = some bs → ∃ d u, b.registry.Accepts ⟨id, bs⟩ d u ∧
    b.contents.Bears x (Id.component d.handle) u

theorem Reflects.arrived {v : World} (h : b.Reflects x sent)
    (hacc : ∀ r ∈ records, ∃ d u, b.registry.Accepts r d u)
    (hn : (records.map Record.typeId).Nodup) (hv : b.Becomes v.contents v)
    (harrived : Contents.Arrived b.registry x records b.contents v.contents) :
    v.Reflects x (sent ++ records) := by
  intro id bs hlast
  rw [hv.registry]
  rw [Replicator.lastSent_append, Option.or_eq_some_iff] at hlast
  obtain hnew | ⟨hnone, hold⟩ := hlast
  · have hmem := (Replicator.lastSent_eq_some_iff hn).1 hnew
    obtain ⟨d, u, hr⟩ := hacc _ hmem
    exact ⟨d, u, hr, harrived.bears _ hmem d u hr⟩
  · obtain ⟨d, u, hr, y, hy, hvalue⟩ := h id bs hold
    refine ⟨d, u, hr, y, ?_, hvalue⟩
    rw [harrived.others x _ fun _ s hs d' u' hs' heq => ?_, hy]
    have hid : s.typeId = id := hr.typeId_eq hs' (Id.component_inj heq).symm
    exact Replicator.lastSent_eq_none_iff.1 hnone (List.mem_map.2 ⟨s, hs, hid⟩)

/-- The sender has a delta of `e`, and the receiver can apply it to `x`. -/
structure Offers (e x : Entity) (p : Replicator) (a : World) (q : Replicator) (b : World)
    (bytes : Bytes) : Prop where
  sends : (p.snapshotDelta a e).1 = .ok bytes
  understands : b.Understands a e
  unmarked : ∀ k, q.hasLocalWrite x k = false
  fits : (q.apply b x bytes).2.2.Fits

/-! ### Any number of deltas -/

/-- `x` in `b` has received every delta of `e` that `p` has made of `a`; `sent` are the records
since `p` last forgot about `e`. Between two deltas both worlds go on, only that nobody else touches
the mirror. -/
inductive Stream (e x : Entity) : List Record → Replicator → World → World → Prop where
  | start {p : Replicator} {a b : World} : a.Reachable → b.Reachable → b.isAlive x = true →
    p.baselines.get? e = none → Stream e x [] p a b
  | sender {sent : List Record} {p : Replicator} {a b : World} (op : Operation) :
    Stream e x sent p a b → (a.perform op).Fits → Stream e x sent p (a.perform op) b
  | receiver {sent : List Record} {p : Replicator} {a b : World} (op : Operation) :
    Stream e x sent p a b → (b.perform op).Fits → (b.perform op).contents x = b.contents x →
    Stream e x sent p a (b.perform op)
  | adapter {sent : List Record} {p p' : Replicator} {a b : World} : Stream e x sent p a b →
    p'.baselines.get? e = p.baselines.get? e → Stream e x sent p' a b
  | forget {sent : List Record} {p : Replicator} {a b : World} : Stream e x sent p a b →
    Stream e x [] (p.forget e) a b
  | delta {sent records : List Record} {p q : Replicator} {a b : World} {bytes : Bytes} :
    Stream e x sent p a b → Offers e x p a q b bytes → Wire.decode bytes = .ok records →
    Stream e x (sent ++ records) (p.snapshotDelta a e).2.1 (p.snapshotDelta a e).2.2
      (q.apply b x bytes).2.2

structure Synced (e x : Entity) (sent : List Record) (p : Replicator) (a b : World) : Prop where
  sender : a.Reachable
  receiver : b.Reachable
  alive : b.isAlive x = true
  baseline : ∀ id, (p.baseline e).get? id = lastSent sent id
  reflects : b.Reflects x sent

structure Delivered (e x : Entity) (sent : List Record) (p : Replicator) (a : World)
    (q : Replicator) (b : World) (bytes : Bytes) (records : List Record) (v : World) : Prop where
  decodes : Wire.decode bytes = .ok records
  differs : a.Differs e sent records
  accepts : ∀ r ∈ records, ∃ d u, b.registry.Accepts r d u
  applies : q.apply b x bytes = (.ok { applied := b.registry.addressed records }, q, v)
  becomes : b.Becomes v.contents v
  arrived : Contents.Arrived b.registry x records b.contents v.contents
  baseline : ∀ id, ((p.snapshotDelta a e).2.1.baseline e).get? id = lastSent (sent ++ records) id
  noted : ∃ told, (p.snapshotDelta a e).2.2 = a.note told

theorem Synced.delivered (h : Synced e x sent p a b) (ho : Offers e x p a q b bytes) :
    ∃ records v, Delivered e x sent p a q b bytes records v := by
  obtain ⟨records, hdecode, hdiffers, hbaseline, hnoted⟩ :=
    h.sender.snapshotDelta_differs (fun _ _ => ho.understands.sends) h.baseline ho.sends
  have hacc : ∀ r ∈ records, ∃ d u, b.registry.Accepts r d u := by
    intro r hr
    obtain ⟨⟨d, u, hships⟩, -⟩ := (hdiffers.mem_iff r).1 hr
    obtain ⟨k, d', hd', hreads⟩ := ho.understands d u hships.toShares
    exact ⟨d', _, (hships.accepts h.sender h.receiver hd' hreads).1⟩
  have hfits := ho.fits
  rw [apply_of_decode hdecode h.alive] at hfits
  obtain ⟨v, hresult, hbecomes, harrived⟩ := h.receiver.wellFormed.applyRecords_arrived
    h.receiver.typed.indexed h.alive ho.unmarked hacc hdiffers.nodup hfits
  refine ⟨records, v, hdecode, hdiffers, hacc, ?_, hbecomes, harrived, hbaseline, hnoted⟩
  rw [apply_of_decode hdecode h.alive, hresult]
  rfl

theorem isAlive_of_contents_eq {v : World} (h : v.contents x = w.contents x)
    (hx : w.isAlive x = true) : v.isAlive x = true := by
  by_contra hdead
  have hnone := contents_eq_none_iff.2 (Bool.not_eq_true _ ▸ hdead)
  rw [h, contents_eq_none_iff, hx] at hnone
  cases hnone

theorem Stream.synced (h : Stream e x sent p a b) : Synced e x sent p a b := by
  induction h with
  | start ha hb hx hnone =>
    refine ⟨ha, hb, hx, fun id => ?_, nofun⟩
    rw [Replicator.baseline, hnone]
    rfl
  | sender op _ hf ih =>
    exact ⟨ih.sender.step op hf, ih.receiver, ih.alive, ih.baseline, ih.reflects⟩
  | receiver op _ hf hsame ih =>
    have halive := isAlive_of_contents_eq hsame ih.alive
    refine ⟨ih.sender, ih.receiver.step op hf, halive, ih.baseline, fun id bs hlast => ?_⟩
    obtain ⟨d, u, hr, y, hy, hvalue⟩ := ih.reflects id bs hlast
    have hop : op ≠ .shutdown := by
      intro hop
      subst hop
      cases (not_isAlive_shutdown _ x).symm.trans halive
    have hgrows := ((rowless_enrols.throughout.perform _ hop).holds ih.receiver.wellFormed hf).1
    refine ⟨d, u, hr.grows hgrows, y, ?_, hvalue⟩
    rw [Contents.value?, hsame]
    exact hy
  | adapter _ hsame ih =>
    refine ⟨ih.sender, ih.receiver, ih.alive, fun id => ?_, ih.reflects⟩
    rw [Replicator.baseline, hsame]
    exact ih.baseline id
  | forget _ ih =>
    refine ⟨ih.sender, ih.receiver, ih.alive, fun id => ?_, nofun⟩
    rw [Replicator.baseline, Replicator.forget, FinMap.get?_erase, if_pos rfl]
    rfl
  | delta _ ho hdecode ih =>
    obtain ⟨records', v, hd⟩ := ih.delivered ho
    obtain rfl := Except.ok.inj (hdecode.symm.trans hd.decodes)
    have hreceiver := ih.receiver.apply ho.fits
    obtain ⟨told, hnoted⟩ := hd.noted
    have hsender := ih.sender.step (.note told) ⟨ih.sender.fits.slots, ih.sender.fits.tables⟩
    rw [hnoted]
    rw [hd.applies] at hreceiver ⊢
    exact ⟨hsender, hreceiver, by rw [hd.becomes.isAlive, ih.alive], hd.baseline,
      ih.reflects.arrived hd.accepts hd.differs.nodup hd.becomes hd.arrived⟩

/-- `x` has caught up with `e`: it has each replicable component that `e` has, as `e` has it. -/
structure CatchesUp (a : World) (e : Entity) (b : World) (x : Entity) (v : World) : Prop where
  carries : ∀ h k, a.Counterpart e b h k → v.Carries x (Id.component k)
  peek : ∀ h k d, a.Counterpart e b h k → a.descriptor? h = some d → d.isTag = false →
    v.peek x (Id.component k) = a.peek e (Id.component h)

/-- Every delta brings the mirror up to date, and has a record for just those components of which
other bytes, or none, were sent last. -/
theorem Stream.converges (h : Stream e x sent p a b) (ho : Offers e x p a q b bytes) :
    ∃ records report v told, Wire.decode bytes = .ok records ∧
      q.apply b x bytes = (.ok report, q, v) ∧ report.isClean = true ∧ report.keptLocal = [] ∧
      (p.snapshotDelta a e).2.2 = a.note told ∧ CatchesUp a e b x v ∧
      a.Differs e sent records := by
  have hsynced := h.synced
  obtain ⟨records, v, hd⟩ := hsynced.delivered ho
  obtain ⟨told, hnoted⟩ := hd.noted
  have hia := hsynced.sender.typed.indexed
  have hib := hsynced.receiver.typed.indexed
  have hreflects :=
    hsynced.reflects.arrived hd.accepts hd.differs.nodup hd.becomes hd.arrived
  have hbears (h k : TypeHandle) (hpart : a.Counterpart e b h k) : ∃ d u y,
      a.descriptor? h = some d ∧ a.peek e (Id.component h) = some u ∧
      v.peek x (Id.component k) = some y ∧ (d.isTag = false → y = u) := by
    obtain ⟨d, u, htype, rfl, hshares⟩ := hpart.shares hsynced.sender
    obtain ⟨d₀, d', hd₀, -, -, hd', hpath⟩ := hpart
    obtain rfl := Option.some.inj (htype.symm.trans hd₀)
    obtain ⟨k', d'', hd'', hreads⟩ := ho.understands d u hshares
    obtain rfl := hsynced.receiver.typed.eq_of_path hd'' hd' (hreads.path.trans hpath.symm)
    obtain ⟨bs, hbs⟩ := hreads.sends
    have hships : a.Ships e ⟨d.stableId, bs⟩ d u := ⟨hshares, rfl, hbs⟩
    obtain ⟨hacc, rfl⟩ := hships.accepts hsynced.sender hsynced.receiver hd'' hreads
    obtain ⟨d₁, u₁, hacc₁, y, hy, hvalue⟩ := hreflects _ _ (hd.differs.lastSent_eq hia hships)
    rw [hd.becomes.registry] at hacc₁
    obtain ⟨rfl, rfl⟩ := hacc.unique hacc₁ hib
    rw [value?_contents] at hy
    refine ⟨d, u, y, htype, hshares.peek, hy, fun htag => hvalue u ?_⟩
    rw [TypeDescriptor.carried, htag, if_neg Bool.false_ne_true]
  refine ⟨records, _, v, told, hd.decodes, hd.applies, rfl, rfl, hnoted,
    ⟨fun h k hpart => ?_, fun h k d hpart htype htag => ?_⟩, hd.differs⟩
  · obtain ⟨d, u, y, -, -, hy, -⟩ := hbears h k hpart
    rw [Carries, hy, Option.isSome_some]
  · obtain ⟨d₀, u, y, htype₀, hpeek, hy, hvalue⟩ := hbears h k hpart
    obtain rfl := Option.some.inj (htype.symm.trans htype₀)
    rw [hy, hpeek, hvalue htag]

/-! ### The knight again -/

theorem snapshotDelta_of_collect (all : List Record)
    (hall : (a.collect e a.replicableTypes).1 = .ok all)
    (hchanges : (Replicator.changes (p.baseline e) all).1 = records)
    (hframable : Wire.Framable records) (hasc : Wire.Ascending records) :
    (p.snapshotDelta a e).1 = .ok (Wire.written records) := by
  rw [← Wire.encode_of_ascending hframable hasc, ← hchanges, Replicator.snapshotDelta]
  generalize a.collect e a.replicableTypes = c at hall
  obtain ⟨result, w⟩ := c
  subst hall
  rfl

def douse : Edit := .remove ⟨0, 0⟩ ⟨⟨2⟩⟩

def strike : Edit := .write ⟨0, 0⟩ ⟨1⟩ .hp (.plain [3, 0, 0, 0])

def kindle : Edit := .add ⟨0, 0⟩ ⟨⟨2⟩⟩

/-- The fire goes out, the knight is wounded, and the fire breaks out again. -/
def aftermath : World :=
  (((newcomer.snapshotDelta battle ⟨0, 0⟩).2.2.perform (.edit douse)).perform
    (.edit strike)).perform (.edit kindle)

def chronicler : Replicator := (newcomer.snapshotDelta battle ⟨0, 0⟩).2.1

def audience : World := (newcomer.apply spectator ⟨1, 0⟩ (Wire.written afflictions)).2.2

def wound : List Record := [⟨0x91df0ad, [3, 0, 0, 0]⟩]

theorem offers_battle : Offers ⟨0, 0⟩ ⟨1, 0⟩ newcomer battle newcomer spectator
    (Wire.written afflictions) where
  sends := snapshotDelta_of_collect afflictions (by decide +kernel) (by decide +kernel)
    ⟨by decide, by decide⟩ (by unfold Wire.Ascending; decide)
  understands := understands_spectator
  unmarked _ := rfl
  fits := by decide +kernel

theorem stream_battle : Stream ⟨0, 0⟩ ⟨1, 0⟩ [] newcomer battle spectator :=
  .start reachable_battle reachable_spectator (by decide +kernel) rfl

theorem Reachable.registry_edit (hw : w.Reachable) (x : Edit) :
    (w.perform (.edit x)).registry = w.registry :=
  (hw.wellFormed.edit hw.fits x).becomes.registry

theorem stream_aftermath : Stream ⟨0, 0⟩ ⟨1, 0⟩ afflictions chronicler aftermath audience ∧
    aftermath.registry = battle.registry ∧ audience.registry = spectator.registry := by
  have hdecode : Wire.decode (Wire.written afflictions) = .ok afflictions :=
    Wire.decode_eq_ok_iff.2 ⟨⟨by decide, by decide⟩, by unfold Wire.Ascending; decide, rfl⟩
  have hfirst := stream_battle.delta offers_battle hdecode
  have hdoused := hfirst.sender (.edit douse) (by decide +kernel)
  have hstruck := hdoused.sender (.edit strike) (by decide +kernel)
  refine ⟨hstruck.sender (.edit kindle) (by decide +kernel), ?_, ?_⟩
  · obtain ⟨_, _, hd⟩ := stream_battle.synced.delivered offers_battle
    obtain ⟨told, hnoted⟩ := hd.noted
    calc aftermath.registry
      _ = _ := hstruck.synced.sender.registry_edit kindle
      _ = _ := hdoused.synced.sender.registry_edit strike
      _ = _ := hfirst.synced.sender.registry_edit douse
      _ = battle.registry := by rw [hnoted]; rfl
  · obtain ⟨_, v, hd⟩ := stream_battle.synced.delivered offers_battle
    rw [audience, hd.applies]
    exact hd.becomes.registry

theorem offers_aftermath : Offers ⟨0, 0⟩ ⟨1, 0⟩ chronicler aftermath newcomer audience
    (Wire.written wound) where
  sends := snapshotDelta_of_collect [⟨0x91df0ad, [3, 0, 0, 0]⟩, ⟨0x4c86ad7e, []⟩]
    (by decide +kernel) (by decide +kernel) ⟨by decide, by decide⟩
    (by unfold Wire.Ascending; decide)
  understands := understands_knight (n := 3) stream_aftermath.2.1 stream_aftermath.2.2
    (by decide +kernel)
  unmarked _ := rfl
  fits := by decide +kernel

/-- The second delta tells of the wound alone; the fire is still there at the mirror. -/
theorem converges_aftermath :
    Stream ⟨0, 0⟩ ⟨1, 0⟩ afflictions chronicler aftermath audience ∧
    Offers ⟨0, 0⟩ ⟨1, 0⟩ chronicler aftermath newcomer audience (Wire.written wound) ∧
    ∃ report v, newcomer.apply audience ⟨1, 0⟩ (Wire.written wound) = (.ok report, newcomer, v) ∧
      aftermath.Differs ⟨0, 0⟩ afflictions wound ∧
      v.peek ⟨1, 0⟩ (Id.component ⟨2⟩) = some (.plain [3, 0, 0, 0]) ∧
      v.Carries ⟨1, 0⟩ (Id.component ⟨1⟩) := by
  obtain ⟨hstream, ha, hb⟩ := stream_aftermath
  obtain ⟨records, report, v, told, hdecode, happly, -, -, -, hcaught, hdiffers⟩ :=
    hstream.converges offers_aftermath
  have hwound : Wire.decode (Wire.written wound) = .ok wound :=
    Wire.decode_eq_ok_iff.2 ⟨⟨by decide, by decide⟩, by unfold Wire.Ascending; decide, rfl⟩
  obtain rfl := Except.ok.inj (hdecode.symm.trans hwound)
  have hpart {h k : TypeHandle} {d d' : TypeDescriptor} (hd : battle.descriptor? h = some d)
      (hflag : d.flags.replicable = true) (hcarries : aftermath.Carries ⟨0, 0⟩ (Id.component h))
      (hd' : spectator.descriptor? k = some d') (hpath : d'.path = d.path) :
      aftermath.Counterpart ⟨0, 0⟩ audience h k := by
    refine ⟨d, d', ?_, hflag, hcarries, ?_, hpath⟩
    · rw [descriptor?, ha]
      exact hd
    · rw [descriptor?, hb]
      exact hd'
  refine ⟨hstream, offers_aftermath, report, v, happly, hdiffers, ?_, ?_⟩
  · have hcarries : aftermath.Carries ⟨0, 0⟩ (Id.component ⟨1⟩) := by unfold Carries; decide +kernel
    have htype : aftermath.descriptor? ⟨1⟩ = some (Registry.freeze hitPoints ⟨1⟩) := by
      rw [descriptor?, ha]
      rfl
    rw [hcaught.peek ⟨1⟩ ⟨2⟩ _ (hpart rfl rfl hcarries rfl rfl) htype rfl]
    decide +kernel
  · have hcarries : aftermath.Carries ⟨0, 0⟩ (Id.component ⟨2⟩) := by unfold Carries; decide +kernel
    exact hcaught.carries ⟨2⟩ ⟨1⟩ (hpart rfl rfl hcarries rfl rfl)

end World
end EntityWorld
