import EntityWorld.Proofs.Replication.Transfer
set_option autoImplicit false

/-!
The account that is given of a snapshot. Each record meets one fate, which the types, the local
writes and the policy decide before any record is applied; the report tells the fates in order, and
the world changes by the records that were applied and by nothing else.
-/
namespace EntityWorld

inductive Fate where
  | applied (h : TypeHandle)
  | keptLocal (h : TypeHandle)
  | skipped (reason : SkipReason)
  deriving DecidableEq, Repr

namespace Fate

def applied? : Fate → Option TypeHandle
  | applied h => some h
  | _ => none

def keptLocal? : Fate → Option TypeHandle
  | keptLocal h => some h
  | _ => none

def skipped? : Fate → Option SkipReason
  | skipped reason => some reason
  | _ => none

end Fate

namespace ApplyReport

def ofFates (l : List (Record × Fate)) : ApplyReport where
  applied := l.filterMap fun x => x.2.applied?
  skipped := l.filterMap fun x =>
    x.2.skipped?.map fun reason => ⟨x.1.typeId, x.1.wireSize, reason⟩
  keptLocal := l.filterMap fun x => x.2.keptLocal?

variable {l : List (Record × Fate)} {r : Record} {h : TypeHandle} {reason : SkipReason}

def enter (report : ApplyReport) (r : Record) : Fate → ApplyReport
  | .applied h => { report with applied := report.applied ++ [h] }
  | .keptLocal h => { report with keptLocal := report.keptLocal ++ [h] }
  | .skipped reason =>
    { report with skipped := report.skipped ++ [⟨r.typeId, r.wireSize, reason⟩] }

theorem ofFates_concat (l : List (Record × Fate)) (r : Record) (f : Fate) :
    ofFates (l ++ [(r, f)]) = (ofFates l).enter r f := by
  cases f <;> simp [ofFates, enter, Fate.applied?, Fate.skipped?, Fate.keptLocal?]

theorem mem_applied : h ∈ (ofFates l).applied ↔ ∃ r, (r, .applied h) ∈ l := by
  rw [ofFates, List.mem_filterMap]
  constructor
  · intro hex
    obtain ⟨⟨r, f⟩, hmem, hf⟩ := hex
    cases f with
    | applied h' => exact ⟨r, Option.some.inj hf ▸ hmem⟩
    | keptLocal => cases hf
    | skipped => cases hf
  · intro hex
    obtain ⟨r, hmem⟩ := hex
    exact ⟨_, hmem, rfl⟩

theorem mem_skipped {s : SkippedRecord} (hs : s ∈ (ofFates l).skipped) :
    ∃ r, (r, .skipped s.reason) ∈ l := by
  obtain ⟨⟨r, f⟩, hmem, hf⟩ := List.mem_filterMap.1 hs
  cases f with
  | applied => cases hf
  | keptLocal => cases hf
  | skipped reason =>
    obtain rfl := Option.some.inj hf
    exact ⟨r, hmem⟩

theorem sum_skipped (l : List (Record × Fate)) :
    ((ofFates l).skipped.map SkippedRecord.bytes).sum =
      ((l.filter fun x => x.2.skipped?.isSome).map fun x => x.1.wireSize).sum := by
  induction l with
  | nil => rfl
  | cons x rest ih =>
    obtain ⟨r, f⟩ := x
    cases f with
    | applied => exact ih
    | keptLocal => exact ih
    | skipped => exact congrArg (r.wireSize + ·) ih

theorem skippedBytes_ofFates (l : List (Record × Fate)) : (ofFates l).skippedBytes =
    ((l.filter fun x => x.2.skipped?.isSome).map fun x => x.1.wireSize).sum := by
  rw [skippedBytes, ← sum_skipped, List.sum_eq_foldl, List.foldl_map]

end ApplyReport

theorem Wire.length_written (rs : List Record) :
    (written rs).length = 4 + (rs.map Record.wireSize).sum := by
  simp only [written, body, List.length_append, length_littleEndian, List.length_flatMap,
    Record.length_toBytes]

structure Registry.Knows (g : Registry) (r : Record) (d : TypeDescriptor) : Prop where
  type : g.descriptor? d.handle = some d
  typeId : r.typeId = d.stableId

def Registry.Reaches (g : Registry) (records : List Record) (k : TypeHandle) : Prop :=
  ∃ r ∈ records, ∃ d, g.Knows r d ∧ d.flags.replicable = true ∧ d.handle = k

namespace Registry

variable {g : Registry} {r : Record} {records : List Record} {d d' : TypeDescriptor}

theorem Knows.found (h : g.Knows r d) (hi : g.Indexed) :
    g.ofStableId? r.typeId = some d.handle := by
  rw [h.typeId]
  exact hi.found _ _ h.type

theorem Knows.eq_of_handle {s : Record} (h : g.Knows r d) (h' : g.Knows s d')
    (heq : d.handle = d'.handle) : d = d' := by
  have htype := h'.type
  rw [← heq, h.type] at htype
  exact Option.some.inj htype

theorem Knows.unique (h : g.Knows r d) (h' : g.Knows r d') (hi : g.Indexed) : d = d' := by
  have hhandle := (h.found hi).symm.trans (h'.found hi)
  exact h.eq_of_handle h' (Option.some.inj hhandle)

theorem Accepts.knows {x : Option Value} (h : g.Accepts r d x) : g.Knows r d := ⟨h.type, h.typeId⟩

theorem WellFormed.knows_or (hg : g.WellFormed) (ht : g.Traced) (r : Record) :
    (∃ d, g.Knows r d ∧ g.ofStableId? r.typeId = some d.handle) ∨
      g.ofStableId? r.typeId = none := by
  cases hfound : g.ofStableId? r.typeId with
  | none => exact .inr rfl
  | some h =>
    obtain ⟨d, hd, hid⟩ := ht _ _ hfound
    obtain rfl := hg.numbered h d hd
    exact .inl ⟨d, ⟨hd, hid.symm⟩, rfl⟩

theorem not_reaches_nil {k : TypeHandle} : ¬g.Reaches [] k := by
  intro hex
  obtain ⟨r, hr, -⟩ := hex
  cases hr

theorem reaches_cons (r : Record) (records : List Record) {k : TypeHandle} :
    g.Reaches (r :: records) k ↔ g.Reaches [r] k ∨ g.Reaches records k := by
  simp only [Reaches, List.exists_mem_cons_iff, List.not_mem_nil, false_and, exists_false, or_false]

theorem Knows.reaches_iff (h : g.Knows r d) (hi : g.Indexed) (hd : d.flags.replicable = true)
    {k : TypeHandle} : g.Reaches [r] k ↔ k = d.handle := by
  constructor
  · intro hex
    obtain ⟨s, hs, d', hknows, -, rfl⟩ := hex
    obtain rfl := List.mem_singleton.1 hs
    rw [h.unique hknows hi]
  · intro heq
    exact ⟨r, List.mem_cons_self, d, h, hd, heq.symm⟩

end Registry

inductive TypeDescriptor.Refuses (d : TypeDescriptor) (payload : Bytes) : SkipReason → Prop where
  | mute : d.isTag = false → d.codec = none → d.Refuses payload (.notReplicable d.path)
  | garbled {c : PayloadCodec} {cause : PayloadError} : d.isTag = false → d.codec = some c →
    c.decode payload = .error cause → d.Refuses payload (.undecodable cause.message)

namespace Replicator

/-- The local value of a component stays when another one arrives. -/
def Keeps (p : Replicator) (e : Entity) (d : TypeDescriptor) : Prop :=
  p.hasLocalWrite e d.handle = true ∧ p.policy ⟨e, d.handle, d.path, p.role⟩ = .keepLocal

/-- The fate of a record that arrives for `e`, by the types in `g` and what `p` remembers. -/
inductive Meets (p : Replicator) (g : Registry) (e : Entity) (r : Record) : Fate → Prop where
  | unknown : (∀ d, ¬g.Knows r d) → Meets p g e r (.skipped .unknownType)
  | withheld {d : TypeDescriptor} : g.Knows r d → d.flags.replicable = false →
    Meets p g e r (.skipped (.notReplicable d.path))
  | kept {d : TypeDescriptor} : g.Knows r d → d.flags.replicable = true → p.Keeps e d →
    Meets p g e r (.keptLocal d.handle)
  | refused {d : TypeDescriptor} {reason : SkipReason} : g.Knows r d →
    d.flags.replicable = true → ¬p.Keeps e d → d.Refuses r.payload reason →
    Meets p g e r (.skipped reason)
  | applied {d : TypeDescriptor} {x : Option Value} : g.Accepts r d x → ¬p.Keeps e d →
    Meets p g e r (.applied d.handle)

/-- `p'` is `p` after the local writes that records meet are forgotten. -/
structure Spends (p : Replicator) (g : Registry) (e : Entity) (records : List Record)
    (p' : Replicator) : Prop where
  frame : p' = { p with localWrites := p'.localWrites }
  marks : ∀ y k, p'.hasLocalWrite y k = true ↔
    p.hasLocalWrite y k = true ∧ ¬(y = e ∧ g.Reaches records k)

namespace Spends

variable {p p' p'' : Replicator} {g : Registry} {e : Entity} {r : Record} {records : List Record}
variable {d : TypeDescriptor}

theorem of_unreached (h : ∀ k, ¬g.Reaches records k) : p.Spends g e records p :=
  ⟨rfl, fun _ k => (and_iff_left fun hreached => h k hreached.2).symm⟩

theorem of_knows (hknows : g.Knows r d) (hi : g.Indexed) (hd : d.flags.replicable = true) :
    p.Spends g e [r] (if p.hasLocalWrite e d.handle then
      { p with localWrites := p.localWrites.erase (e, d.handle) } else p) := by
  constructor
  · split <;> rfl
  · intro y k
    rw [hknows.reaches_iff hi hd]
    split
    · simp only [hasLocalWrite, FinMap.contains, FinMap.get?_erase, Prod.mk.injEq]
      split
      · next heq => exact iff_of_false Bool.false_ne_true fun hmark => hmark.2 heq
      · next hne => exact (and_iff_left hne).symm
    · next hmark =>
      refine ⟨fun hy => ⟨hy, fun heq => hmark ?_⟩, And.left⟩
      rw [← heq.1, ← heq.2]
      exact hy

theorem cons (h : p.Spends g e [r] p') (h' : p'.Spends g e records p'') :
    p.Spends g e (r :: records) p'' := by
  refine ⟨?_, fun y k => ?_⟩
  · rw [h'.frame, h.frame]
  · rw [h'.marks, h.marks, Registry.reaches_cons r records, and_assoc, ← not_or, ← and_or_left]

theorem keeps_iff (h : p.Spends g e [r] p') (hd : ¬g.Reaches [r] d.handle) :
    p'.Keeps e d ↔ p.Keeps e d := by
  have hmark := h.marks e d.handle
  rw [and_iff_left fun hreached => hd hreached.2] at hmark
  rw [Keeps, Keeps, hmark, h.frame]

end Spends

theorem Meets.congr {p p' : Replicator} {g : Registry} {e : Entity} {r : Record} {f : Fate}
    (h : p'.Meets g e r f) (hkeeps : ∀ d, g.Knows r d → (p'.Keeps e d ↔ p.Keeps e d)) :
    p.Meets g e r f := by
  cases h with
  | unknown hno => exact .unknown hno
  | withheld hknows hd => exact .withheld hknows hd
  | kept hknows hd hkeep => exact .kept hknows hd ((hkeeps _ hknows).1 hkeep)
  | refused hknows hd hkeep hno =>
    exact .refused hknows hd (fun hk => hkeep ((hkeeps _ hknows).2 hk)) hno
  | applied hacc hkeep => exact .applied hacc fun hk => hkeep ((hkeeps _ hacc.knows).2 hk)

namespace Meets

variable {p : Replicator} {g : Registry} {e : Entity} {r : Record} {f : Fate}

theorem keptLocal_iff (h : p.Meets g e r f) (hi : g.Indexed) (k : TypeHandle) :
    f = .keptLocal k ↔
      ∃ d, g.Knows r d ∧ d.handle = k ∧ d.flags.replicable = true ∧ p.Keeps e d := by
  constructor
  · intro heq
    subst heq
    cases h with
    | kept hknows hd hkeep => exact ⟨_, hknows, rfl, hd, hkeep⟩
  · intro hex
    obtain ⟨d, hknows, rfl, hd, hkeep⟩ := hex
    cases h with
    | unknown hno => exact absurd hknows (hno d)
    | withheld hknows' hd' =>
      obtain rfl := hknows.unique hknows' hi
      cases hd.symm.trans hd'
    | kept hknows' => rw [hknows.unique hknows' hi]
    | refused hknows' _ hkeep' => exact absurd (hknows.unique hknows' hi ▸ hkeep) hkeep'
    | applied hacc hkeep' => exact absurd (hknows.unique hacc.knows hi ▸ hkeep) hkeep'

theorem ne_rejected (h : p.Meets g e r f) (text : String) : f ≠ .skipped (.rejected text) := by
  intro heq
  subst heq
  cases h with
  | refused _ _ _ hno => cases hno

end Meets
end Replicator

namespace World

variable {w v : World} {e : Entity} {r : Record} {d : TypeDescriptor} {x : Option Value}
variable {p p' : Replicator} {records : List Record} {l : List (Record × Fate)} {f : Fate}
variable {bytes : Bytes}

/-- What a record with its fate makes of `w`. -/
inductive Lands (w : World) (e : Entity) (r : Record) : Fate → World → Prop where
  | applied {d : TypeDescriptor} {x : Option Value} {v : World} : w.registry.Accepts r d x →
    w.Gets e (Id.component d.handle) x v → Lands w e r (.applied d.handle) v
  | keptLocal {h : TypeHandle} : Lands w e r (.keptLocal h) w
  | skipped {reason : SkipReason} : Lands w e r (.skipped reason) w

theorem WellFormed.applyPayload_cases (hw : w.WellFormed) (hf : w.Fits) (he : w.isAlive e = true)
    (hknows : w.registry.Knows r d) (hreplicable : d.flags.replicable = true) :
    (∃ x v, w.registry.Accepts r d x ∧ w.applyPayload e d r.payload = (.ok (), v) ∧
      w.Gets e (Id.component d.handle) x v) ∨
    ∃ reason, d.Refuses r.payload reason ∧
      w.applyPayload e d r.payload = (.error reason, w) := by
  have haccepted (x : Option Value) (hbrings : d.Brings r.payload x) :
      ∃ x v, w.registry.Accepts r d x ∧ w.applyPayload e d r.payload = (.ok (), v) ∧
        w.Gets e (Id.component d.handle) x v := by
    have hacc : w.registry.Accepts r d x := ⟨hknows.type, hknows.typeId, hreplicable, hbrings⟩
    obtain ⟨v, happly, hgets⟩ := hw.applyPayload_gets hf he hacc
    exact ⟨x, v, hacc, happly, hgets⟩
  cases htag : d.isTag with
  | true => exact .inl (haccepted none (.tag htag))
  | false =>
    cases hcodec : d.codec with
    | none =>
      refine .inr ⟨_, .mute htag hcodec, ?_⟩
      simp only [applyPayload, htag, hcodec, Bool.false_eq_true, if_false]
    | some c =>
      cases hdecode : c.decode r.payload with
      | ok x => exact .inl (haccepted (some x) (.value htag hcodec hdecode))
      | error cause =>
        refine .inr ⟨_, .garbled htag hcodec hdecode, ?_⟩
        have hfill : (ComponentValue.fill w.registry d.handle fun _ => c.decode r.payload) =
            .ok (.error cause) := by
          simp only [ComponentValue.fill, ComponentValue.find, hknows.type, hdecode, bind,
            Except.bind, pure, Except.pure, Except.map]
        simp only [applyPayload, htag, hcodec, hfill, Bool.false_eq_true, if_false]

theorem applyRecord_eq (hfound : w.registry.ofStableId? r.typeId = some d.handle)
    (hd : w.descriptor? d.handle = some d) (hreplicable : d.flags.replicable = true)
    (p : Replicator) (report : ApplyReport) : ∃ p',
      p' = (if p.hasLocalWrite e d.handle then
        { p with localWrites := p.localWrites.erase (e, d.handle) } else p) ∧
      (p.Keeps e d → p.applyRecord w e report r = (report.enter r (.keptLocal d.handle), p', w)) ∧
      (¬p.Keeps e d → ∀ v, w.applyPayload e d r.payload = (.ok (), v) →
        p.applyRecord w e report r = (report.enter r (.applied d.handle), p', v)) ∧
      (¬p.Keeps e d → ∀ reason v, w.applyPayload e d r.payload = (.error reason, v) →
        p.applyRecord w e report r = (report.enter r (.skipped reason), p', v)) := by
  refine ⟨_, rfl, fun hkeep => ?_, fun hkeep v hpayload => ?_, fun hkeep reason v hpayload => ?_⟩
  · simp only [Replicator.applyRecord, hfound, hd, hreplicable, ApplyReport.enter, hkeep.1, hkeep.2,
      Bool.not_true, Bool.false_eq_true, if_false, if_true, decide_true, Bool.and_true]
  all_goals
    cases hmark : p.hasLocalWrite e d.handle with
    | false =>
      simp only [Replicator.applyRecord, hfound, hd, hreplicable, ApplyReport.enter, hmark,
        hpayload, Bool.not_true, Bool.false_eq_true, if_false, Bool.false_and]
    | true =>
      have hpolicy : decide (p.policy ⟨e, d.handle, d.path, p.role⟩ = .keepLocal) = false :=
        decide_eq_false fun hpolicy => hkeep ⟨hmark, hpolicy⟩
      simp only [Replicator.applyRecord, hfound, hd, hreplicable, ApplyReport.enter, hmark, hpolicy,
        hpayload, Bool.not_true, Bool.false_eq_true, if_false, if_true, Bool.true_and]

theorem WellFormed.applyRecord_meets (hw : w.WellFormed) (ht : w.Typed) (hf : w.Fits)
    (he : w.isAlive e = true) (p : Replicator) (report : ApplyReport) (r : Record) : ∃ f p' v,
      p.applyRecord w e report r = (report.enter r f, p', v) ∧ p.Meets w.registry e r f ∧
        p.Spends w.registry e [r] p' ∧ w.Lands e r f v := by
  obtain hknown | hunknown := hw.registry.knows_or ht.traced r
  · obtain ⟨d, hknows, hfound⟩ := hknown
    have hd : w.descriptor? d.handle = some d := hknows.type
    cases hreplicable : d.flags.replicable with
    | false =>
      refine ⟨.skipped (.notReplicable d.path), p, w, ?_, .withheld hknows hreplicable,
        .of_unreached ?_, .skipped⟩
      · simp only [Replicator.applyRecord, hfound, hd, hreplicable, Bool.not_false, if_true,
          ApplyReport.enter]
      · intro k hex
        obtain ⟨s, hs, d', hknows', hyes, -⟩ := hex
        obtain rfl := List.mem_singleton.1 hs
        rw [← hknows.unique hknows' ht.indexed, hreplicable] at hyes
        cases hyes
    | true =>
      have hspends := Replicator.Spends.of_knows (p := p) (e := e) hknows ht.indexed hreplicable
      obtain ⟨p', rfl, hkept, hbrought, hrefused⟩ :=
        applyRecord_eq (e := e) hfound hd hreplicable p report
      by_cases hkeep : p.Keeps e d
      · exact ⟨_, _, _, hkept hkeep, .kept hknows hreplicable hkeep, hspends, .keptLocal⟩
      · obtain hok | herror := hw.applyPayload_cases hf he hknows hreplicable
        · obtain ⟨x, v, hacc, hpayload, hgets⟩ := hok
          exact ⟨_, _, _, hbrought hkeep v hpayload, .applied hacc hkeep, hspends,
            .applied hacc hgets⟩
        · obtain ⟨reason, hno, hpayload⟩ := herror
          exact ⟨_, _, _, hrefused hkeep reason w hpayload,
            .refused hknows hreplicable hkeep hno, hspends, .skipped⟩
  · refine ⟨.skipped .unknownType, p, w, ?_, .unknown fun d hknows => ?_, .of_unreached ?_,
      .skipped⟩
    · simp only [Replicator.applyRecord, hunknown, ApplyReport.enter]
    · cases (hknows.found ht.indexed).symm.trans hunknown
    · intro k hex
      obtain ⟨s, hs, d', hknows, -, -⟩ := hex
      obtain rfl := List.mem_singleton.1 hs
      cases (hknows.found ht.indexed).symm.trans hunknown

def landed (l : List (Record × Fate)) : List Record :=
  (l.filter fun x => x.2.applied?.isSome).map Prod.fst

theorem landed_sublist (l : List (Record × Fate)) : (landed l).Sublist (l.map Prod.fst) :=
  List.filter_sublist.map _

/-- `records` met the fates in `l`: `p` and `w` have become `p'` and `v`. -/
structure Deals (w : World) (p : Replicator) (e : Entity) (records : List Record)
    (l : List (Record × Fate)) (p' : Replicator) (v : World) : Prop where
  order : l.map Prod.fst = records
  meets : ∀ x ∈ l, p.Meets w.registry e x.1 x.2
  spends : p.Spends w.registry e records p'
  becomes : w.Becomes v.contents v
  arrived : Contents.Arrived w.registry e (landed l) w.contents v.contents

theorem Deals.nil (hw : w.WellFormed) (p : Replicator) (e : Entity) : w.Deals p e [] [] p w :=
  ⟨rfl, nofun, .of_unreached fun _ => Registry.not_reaches_nil, .refl hw, .nil⟩

theorem Lands.becomes (h : w.Lands e r f v) (hw : w.WellFormed) : w.Becomes v.contents v := by
  cases h with
  | applied _ hgets => exact hgets.becomes
  | keptLocal => exact .refl hw
  | skipped => exact .refl hw

theorem Deals.cons {u : World} {p'' : Replicator} (hw : w.WellFormed) (hi : w.registry.Indexed)
    (hr : p.Meets w.registry e r f) (hspends : p.Spends w.registry e [r] p')
    (hlands : w.Lands e r f u) (h : u.Deals p' e records l p'' v)
    (hid : r.typeId ∉ records.map Record.typeId) :
    w.Deals p e (r :: records) ((r, f) :: l) p'' v := by
  have hbecomes := hlands.becomes hw
  have hregistry := hbecomes.registry
  have hlater := h.spends
  have harrived := h.arrived
  rw [hregistry] at hlater harrived
  have hother (d : TypeDescriptor) (s : Record) (hs : s ∈ records) (hknows : w.registry.Knows s d) :
      ¬w.registry.Reaches [r] d.handle := by
    intro hex
    obtain ⟨r', hr', d', hknows', -, heq⟩ := hex
    obtain rfl := List.mem_singleton.1 hr'
    obtain rfl := hknows.eq_of_handle hknows' heq.symm
    exact hid (List.mem_map.2 ⟨s, hs, hknows.typeId.trans hknows'.typeId.symm⟩)
  refine ⟨congrArg _ h.order, fun x hx => ?_, hspends.cons hlater, hbecomes.trans h.becomes, ?_⟩
  · obtain rfl | hx := List.mem_cons.1 hx
    · exact hr
    · have hmem : x.1 ∈ records := h.order ▸ List.mem_map_of_mem hx
      have hmeets := h.meets x hx
      rw [hregistry] at hmeets
      exact hmeets.congr fun d hknows => hspends.keeps_iff (hother d x.1 hmem hknows)
  · cases hlands with
    | applied hacc hgets =>
      refine .cons hi hacc hgets.receives harrived fun hmem => hid ?_
      rw [← h.order]
      exact ((landed_sublist l).map Record.typeId).subset hmem
    | keptLocal => exact harrived
    | skipped => exact harrived

theorem WellFormed.applyRecords_deals (hw : w.WellFormed) (ht : w.Typed)
    (he : w.isAlive e = true) (hn : (records.map Record.typeId).Nodup)
    (done : List (Record × Fate)) (p : Replicator)
    (hf : (Replicator.applyRecords e p w (.ofFates done) records).2.2.Fits) : ∃ l p' v,
      Replicator.applyRecords e p w (.ofFates done) records = (.ofFates (done ++ l), p', v) ∧
        w.Deals p e records l p' v := by
  induction records generalizing w p done with
  | nil => exact ⟨[], p, w, by rw [Replicator.applyRecords, List.append_nil], .nil hw p e⟩
  | cons r rest ih =>
    obtain ⟨hid, hnodup⟩ := List.nodup_cons.1 hn
    have hgrows := (throughout_leads.toWide.applyRecords e (r :: rest) p w (.ofFates done)).grows
    obtain ⟨f, p', u, hfirst, hmeets, hspends, hlands⟩ :=
      hw.applyRecord_meets ht (hgrows.fits hf) he p (.ofFates done) r
    have hstep : Replicator.applyRecords e p w (.ofFates done) (r :: rest) =
        Replicator.applyRecords e p' u (.ofFates (done ++ [(r, f)])) rest := by
      rw [Replicator.applyRecords, hfirst, ApplyReport.ofFates_concat]
    have hbecomes := hlands.becomes hw
    rw [hstep] at hf ⊢
    obtain ⟨l, p'', v, hlater, hdeals⟩ := ih hbecomes.wellFormed
      (ht.becomes hbecomes) (by rw [hbecomes.isAlive, he]) hnodup (done ++ [(r, f)]) p' hf
    rw [List.append_assoc, List.singleton_append] at hlater
    exact ⟨_, _, _, hlater, .cons hw ht.indexed hmeets hspends hlands hdeals hid⟩

/-- The account of `bytes`, which hold `records`: the report is that of the fates in `l`. -/
structure Accounts (w : World) (p : Replicator) (e : Entity) (bytes : Bytes)
    (records : List Record) (l : List (Record × Fate)) (p' : Replicator) (v : World) : Prop where
  order : l.map Prod.fst = records
  meets : ∀ x ∈ l, p.Meets w.registry e x.1 x.2
  length : bytes.length = 4 + (records.map Record.wireSize).sum
  skippedBytes : (ApplyReport.ofFates l).skippedBytes =
    ((l.filter fun x => x.2.skipped?.isSome).map fun x => x.1.wireSize).sum
  keptLocal : ∀ x ∈ l, ∀ h, x.2 = .keptLocal h ↔ ∃ d, w.registry.Knows x.1 d ∧ d.handle = h ∧
    d.flags.replicable = true ∧ p.Keeps e d
  rejected : ∀ s ∈ (ApplyReport.ofFates l).skipped, ∀ text, s.reason ≠ .rejected text
  spends : p.Spends w.registry e records p'
  becomes : w.Becomes v.contents v
  applied : ∀ x ∈ l, ∀ h, x.2 = .applied h → ∃ d u, w.registry.Accepts x.1 d u ∧ d.handle = h ∧
    v.contents.Bears e (Id.component h) u
  others : ∀ y id, (y = e → ∀ h ∈ (ApplyReport.ofFates l).applied, id ≠ Id.component h) →
    v.peek y id = w.peek y id

theorem Deals.accounts {bytes : Bytes} (h : w.Deals p e records l p' v) (hi : w.registry.Indexed)
    (hlength : bytes.length = 4 + (records.map Record.wireSize).sum) :
    w.Accounts p e bytes records l p' v := by
  refine ⟨h.order, h.meets, hlength, ApplyReport.skippedBytes_ofFates l,
    fun x hx k => (h.meets x hx).keptLocal_iff hi k, fun s hs text heq => ?_, h.spends, h.becomes,
    fun x hx k hf => ?_, fun y id hno => ?_⟩
  · obtain ⟨r, hr⟩ := ApplyReport.mem_skipped hs
    exact (h.meets _ hr).ne_rejected text (by rw [heq])
  · have hmeets := h.meets x hx
    rw [hf] at hmeets
    cases hmeets with
    | @applied d u hacc =>
      have hmem : x.1 ∈ landed l :=
        List.mem_map_of_mem (List.mem_filter.2 ⟨hx, by rw [hf]; rfl⟩)
      exact ⟨d, u, hacc, rfl, h.arrived.bears x.1 hmem d u hacc⟩
  · rw [← value?_contents, ← value?_contents]
    refine h.arrived.others y id fun hy r hr d u hacc => hno hy d.handle ?_
    obtain ⟨⟨r, f⟩, hx, rfl⟩ := List.mem_map.1 hr
    obtain ⟨hx, hf⟩ := List.mem_filter.1 hx
    have hmeets := h.meets _ hx
    cases hmeets with
    | applied hacc' =>
      rw [(hacc.unique hacc' hi).1]
      exact ApplyReport.mem_applied.2 ⟨r, hx⟩
    | unknown => cases hf
    | withheld => cases hf
    | kept => cases hf
    | refused => cases hf

theorem Reachable.accounts_of_decode (hw : w.Reachable) (he : w.isAlive e = true)
    (hdecode : Wire.decode bytes = .ok records) (hf : (p.apply w e bytes).2.2.Fits) :
    (records.map Record.typeId).Nodup ∧ ∃ l p' v,
      p.apply w e bytes = (.ok (.ofFates l), p', v) ∧ w.Accounts p e bytes records l p' v := by
  obtain ⟨-, hasc, hbytes⟩ := Wire.decode_eq_ok_iff.1 hdecode
  have hn := hasc.nodup
  rw [apply_of_decode hdecode he] at hf ⊢
  obtain ⟨l, p', v, hresult, hdeals⟩ :=
    hw.wellFormed.applyRecords_deals hw.typed he hn [] p hf
  have hlength : bytes.length = 4 + (records.map Record.wireSize).sum := by
    rw [hbytes, Wire.length_written]
  refine ⟨hn, l, p', v, ?_, hdeals.accounts hw.typed.indexed hlength⟩
  rw [show ({} : ApplyReport) = .ofFates [] from rfl, hresult]
  rfl

/-- Applying a snapshot gives an account of each of its records, and changes what the account says
and nothing else; bad framing and a dead entity change nothing. -/
theorem Reachable.apply_accounts (hw : w.Reachable) (p : Replicator) (e : Entity) (bytes : Bytes)
    (hf : (p.apply w e bytes).2.2.Fits) :
    (∀ err, Wire.decode bytes = .error err → p.apply w e bytes = (.error err, p, w)) ∧
    ∀ records, Wire.decode bytes = .ok records →
      (w.isAlive e = false → p.apply w e bytes = (.error (.staleEntity e), p, w)) ∧
      (w.isAlive e = true → ∃ l p' v,
        p.apply w e bytes = (.ok (.ofFates l), p', v) ∧ w.Accounts p e bytes records l p' v) := by
  refine ⟨fun err herr => ?_, fun records hrecords => ⟨fun he => ?_, fun he => ?_⟩⟩
  · simp only [Replicator.apply, herr]
  · simp only [Replicator.apply, hrecords, he, Bool.false_eq_true, if_false]
  · exact (hw.accounts_of_decode he hrecords hf).2

/-! ### Five records, five fates -/

def mana : TypeDescription := (TypeDescription.plain .hp "Game.Mana").replicated (.raw .hp)

def duel : World :=
  World.new.run [.registerType hitPoints, .registerType burning, .registerType mana, .spawn,
    .edit (.write ⟨0, 0⟩ ⟨1⟩ .hp (.plain [7, 0, 0, 0]))]

theorem reachable_duel : duel.Reachable := Reachable.new.run (by decide +kernel)

def veteran : Replicator := newcomer.markLocalWrite ⟨0, 0⟩ ⟨1⟩

/-- Records for a type that nobody knows, for health, for burning, for the hierarchy relation, which
is not replicated, and for mana, with a byte of four. -/
def dispatch : List Record :=
  [⟨7, []⟩, ⟨0x91df0ad, [9, 0, 0, 0]⟩, ⟨0x4c86ad7e, []⟩, ⟨0x8aee8f12, []⟩, ⟨0x9818ca8c, [1]⟩]

theorem apply_accounts_duel : ∃ l p' v,
    veteran.apply duel ⟨0, 0⟩ (Wire.written dispatch) = (.ok (.ofFates l), p', v) ∧
    duel.Accounts veteran ⟨0, 0⟩ (Wire.written dispatch) dispatch l p' v ∧
    ApplyReport.ofFates l = {
      applied := [⟨2⟩]
      skipped := [⟨7, 8, .unknownType⟩, ⟨0x8aee8f12, 8, .notReplicable "reflecs.ChildOf"⟩,
        ⟨0x9818ca8c, 9, .undecodable "SizeMismatch: expected 4 bytes, got 1"⟩]
      keptLocal := [⟨1⟩] } := by
  have hdecode : Wire.decode (Wire.written dispatch) = .ok dispatch :=
    Wire.decode_eq_ok_iff.2 ⟨⟨by decide, by decide⟩, by unfold Wire.Ascending; decide, rfl⟩
  have hfits : (veteran.apply duel ⟨0, 0⟩ (Wire.written dispatch)).2.2.Fits := by decide +kernel
  have halive : duel.isAlive ⟨0, 0⟩ = true := by decide +kernel
  obtain ⟨l, p', v, happly, haccounts⟩ :=
    ((reachable_duel.apply_accounts veteran ⟨0, 0⟩ _ hfits).2 dispatch hdecode).2 halive
  refine ⟨l, p', v, happly, haccounts, ?_⟩
  have hreport : (veteran.apply duel ⟨0, 0⟩ (Wire.written dispatch)).1 = .ok {
      applied := [⟨2⟩]
      skipped := [⟨7, 8, .unknownType⟩, ⟨0x8aee8f12, 8, .notReplicable "reflecs.ChildOf"⟩,
        ⟨0x9818ca8c, 9, .undecodable "SizeMismatch: expected 4 bytes, got 1"⟩]
      keptLocal := [⟨1⟩] } := by decide +kernel
  rw [happly] at hreport
  exact Except.ok.inj hreport

end World
end EntityWorld
