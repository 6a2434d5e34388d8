import EntityWorld.Proofs.World.Pairs
import EntityWorld.Proofs.World.Types
import EntityWorld.Replication.Replicator
import Mathlib.Data.List.Perm.Subperm
set_option autoImplicit false

/-!
What goes into a snapshot: one record for each replicable component of the entity among those that
are asked for, under the hash of its type's path, whatever the list of them looks like. Collecting
only copies values out, so it leaves the world as it was.
-/
namespace EntityWorld

inductive TypeDescriptor.Sends (d : TypeDescriptor) (x : Value) : Bytes → Prop where
  | tag : d.isTag = true → d.Sends x []
  | value {c : PayloadCodec} {bs : Bytes} : d.isTag = false → d.codec = some c →
    c.encode x = .ok bs → d.Sends x bs

/-- The payload of a value, if there is one: a tag sends nothing, and neither does a type without a
codec. -/
def TypeDescriptor.encoding (d : TypeDescriptor) (x : Value) : Option Bytes :=
  if d.isTag then some []
  else
    match d.codec with
    | none => some []
    | some c => (c.encode x).toOption

theorem TypeDescriptor.Sends.encoding {d : TypeDescriptor} {x : Value} {bs : Bytes}
    (h : d.Sends x bs) : d.encoding x = some bs := by
  unfold TypeDescriptor.encoding
  cases h with
  | tag htag => rw [if_pos htag]
  | value htag hcodec hencode =>
    rw [htag, if_neg Bool.false_ne_true, hcodec]
    simp only [hencode]
    rfl

namespace World

variable {w : World} {e : Entity} {d d' : TypeDescriptor} {x x' : Value} {bs : Bytes}
variable {h : TypeHandle} {handles handles' seen : List TypeHandle} {r r' : Record}
variable {records records' done : List Record}

/-- `d` is a replicable type with the value `x` at `e`. -/
structure Shares (w : World) (e : Entity) (d : TypeDescriptor) (x : Value) : Prop where
  type : w.descriptor? d.handle = some d
  replicable : d.flags.replicable = true
  peek : w.peek e (Id.component d.handle) = some x

theorem Shares.unique {y : Value} (h : w.Shares e d x) (h' : w.Shares e d y) : x = y :=
  Option.some.inj (h.peek.symm.trans h'.peek)

theorem Shares.type_eq (h : w.Shares e d x) (h' : w.Shares e d' x') (hh : d.handle = d'.handle) :
    d = d' :=
  Option.some.inj (h.type.symm.trans (hh ▸ h'.type))

theorem Shares.eq_of_stableId (hi : w.registry.Indexed) (h : w.Shares e d x)
    (h' : w.Shares e d' x') (hid : d.stableId = d'.stableId) : d = d' ∧ x = x' := by
  have hfound := hi.found _ _ h.type
  rw [hid, hi.found _ _ h'.type] at hfound
  obtain rfl := h.type_eq h' (Option.some.inj hfound).symm
  exact ⟨rfl, h.unique h'⟩

theorem note_note (w : World) (told told' : List HookEvent) :
    (w.note told).note told' = w.note (told ++ told') := by
  rw [note, note, note, List.reverse_append, List.append_assoc]

theorem exists_shares_iff (hw : w.WellFormed) (hd : w.descriptor? d.handle = some d) :
    (∃ x, w.Shares e d x) ↔
      d.flags.replicable = true ∧ w.has e (Id.component d.handle) = true := by
  rw [hw.has_iff_carries (Id.isWildcard_component d.handle), Carries, Option.isSome_iff_exists]
  constructor
  · intro hex
    obtain ⟨x, hs⟩ := hex
    exact ⟨hs.replicable, x, hs.peek⟩
  · intro hex
    obtain ⟨hreplicable, x, hx⟩ := hex
    exact ⟨x, hd, hreplicable, hx⟩

theorem Shares.note (hs : w.Shares e d x) (told : List HookEvent) : (w.note told).Shares e d x :=
  ⟨hs.type, hs.replicable, hs.peek⟩

theorem Shares.payload (hs : w.Shares e d x) :
    ∃ result told, w.payload e d = (result, w.note told) ∧ result.toOption = d.encoding x := by
  have hread : w.readValue e (Id.component d.handle) =
      (some ⟨d, x⟩, w.note (d.copyEvents x)) := by
    rw [readValue_eq, valueOut, Id.typeHandle_component, hs.type, hs.peek]
  unfold World.payload TypeDescriptor.encoding
  split
  · exact ⟨_, [], rfl, rfl⟩
  · rw [hread]
    cases d.codec with
    | none => exact ⟨_, _, congrArg _ (w.note_note _ _), rfl⟩
    | some c =>
      refine ⟨_, _, congrArg _ (w.note_note _ _), ?_⟩
      simp only
      cases c.encode x <;> rfl

/-! ### Collecting -/

theorem collectFrom_of_not_shares (hw : w.WellFormed) (hd : w.descriptor? d.handle = some d)
    (hno : ∀ x, ¬ w.Shares e d x) (told : List HookEvent) (done : List Record)
    (rest : List TypeHandle) : collectFrom e (w.note told) done (d.handle :: rest) =
      collectFrom e (w.note told) done rest := by
  have hskip : (!d.flags.replicable || !w.has e (Id.component d.handle)) = true := by
    have hshared := mt (exists_shares_iff hw hd).2 (not_exists.2 hno)
    rwa [not_and_or, Bool.not_eq_true, Bool.not_eq_true, ← Bool.not_eq_true', ← Bool.not_eq_true',
      ← Bool.or_eq_true] at hshared
  rw [collectFrom, descriptor, show (w.note told).descriptor? d.handle = some d from hd]
  exact if_pos hskip

theorem collectFrom_of_shares (hw : w.WellFormed) (hs : w.Shares e d x) (told : List HookEvent)
    (done : List Record) (rest : List TypeHandle) :
    collectFrom e (w.note told) done (d.handle :: rest) =
      if done.any fun r => r.typeId == d.stableId then collectFrom e (w.note told) done rest
      else
        match (w.note told).payload e d with
        | (.error err, v) => (.error err, v)
        | (.ok bs, v) => collectFrom e v (done ++ [⟨d.stableId, bs⟩]) rest := by
  have hthere : w.has e (Id.component d.handle) = true :=
    ((exists_shares_iff hw hs.type).1 ⟨x, hs⟩).2
  have hkeep : ¬ (!d.flags.replicable || !w.has e (Id.component d.handle)) = true := by
    rw [hs.replicable, hthere]
    exact Bool.false_ne_true
  rw [collectFrom, descriptor, show (w.note told).descriptor? d.handle = some d from hs.type]
  exact if_neg hkeep

theorem WellFormed.toNat_handle (hw : w.WellFormed) {n : Nat}
    (hn : n < w.registry.entries.length) : (w.registry.entries[n].handle).raw.toNat = n := by
  have hbound := hw.registry.bounded
  simp only [Registry.size, Registry.maxHandle] at hbound
  have hnumber : (UInt32.ofNat n).toNat = n := by
    rw [UInt32.toNat_ofNat', Nat.mod_eq_of_lt (by omega)]
  have htype : w.registry.descriptor? ⟨UInt32.ofNat n⟩ = some w.registry.entries[n] := by
    rw [Registry.descriptor?, hnumber, List.getElem?_eq_getElem hn]
  rw [hw.registry.numbered _ _ htype, hnumber]

theorem WellFormed.descriptor?_of_mem (hw : w.WellFormed) (hd : d ∈ w.registry.entries) :
    w.descriptor? d.handle = some d := by
  obtain ⟨n, hn, rfl⟩ := List.getElem_of_mem hd
  rw [descriptor?, Registry.descriptor?, hw.toNat_handle hn, List.getElem?_eq_getElem hn]

theorem mem_replicableTypes (hw : w.WellFormed) {h : TypeHandle} : h ∈ w.replicableTypes ↔
    ∃ d, w.descriptor? h = some d ∧ d.flags.replicable = true := by
  rw [replicableTypes, List.mem_map]
  constructor
  · intro hex
    obtain ⟨d, hd, rfl⟩ := hex
    obtain ⟨hmem, hreplicable⟩ := List.mem_filter.1 hd
    exact ⟨d, hw.descriptor?_of_mem hmem, hreplicable⟩
  · intro hex
    obtain ⟨d, hd, hreplicable⟩ := hex
    exact ⟨d, List.mem_filter.2 ⟨List.mem_of_getElem? hd, hreplicable⟩,
      hw.registry.numbered h d hd⟩

/-- `r` is the record of the component of the type `d`, with the value `x`, at `e`. -/
structure Sent (w : World) (e : Entity) (r : Record) (d : TypeDescriptor) (x : Value) : Prop
    extends Shares w e d x where
  typeId : r.typeId = d.stableId
  payload : d.encoding x = some r.payload

/-- The handle means a type, and what `e` has of it can be written. -/
def CanSend (w : World) (e : Entity) (h : TypeHandle) : Prop :=
  ∃ d, w.descriptor? h = some d ∧ ∀ x, w.Shares e d x → ∃ bs, d.encoding x = some bs

/-- There is one record for each replicable component that `e` has of the types listed, and no
other. -/
structure Gathers (w : World) (e : Entity) (handles : List TypeHandle) (records : List Record) :
    Prop where
  registered : ∀ h ∈ handles, ∃ d, w.descriptor? h = some d
  sound : ∀ r ∈ records, ∃ d x, w.Sent e r d x ∧ d.handle ∈ handles
  complete : ∀ d x, w.Shares e d x → d.handle ∈ handles → ∃ r ∈ records, w.Sent e r d x
  nodup : (records.map Record.typeId).Nodup

theorem Sent.eq (hi : w.registry.Indexed) (h : w.Sent e r d x) (h' : w.Sent e r' d' x')
    (hid : r.typeId = r'.typeId) : r = r' := by
  obtain ⟨rfl, rfl⟩ := h.eq_of_stableId hi h'.toShares (h.typeId.symm.trans (hid.trans h'.typeId))
  have hpayload := Option.some.inj (h.payload.symm.trans h'.payload)
  cases r
  cases r'
  exact congr (congrArg Record.mk hid) hpayload

/-- A component with a value that its codec can write, and its record. -/
structure Ships (w : World) (e : Entity) (r : Record) (d : TypeDescriptor) (x : Value) : Prop
    extends Shares w e d x where
  typeId : r.typeId = d.stableId
  sends : d.Sends x r.payload

theorem canSend_of_sends (hw : w.WellFormed)
    (hsends : ∀ d x, w.Shares e d x → ∃ bs, d.Sends x bs) (hh : h ∈ w.replicableTypes) :
    w.CanSend e h := by
  obtain ⟨d, hd, -⟩ := (mem_replicableTypes hw).1 hh
  exact ⟨d, hd, fun x hs => (hsends d x hs).imp fun _ hbs => hbs.encoding⟩

theorem Ships.sent (h : w.Ships e r d x) : w.Sent e r d x :=
  ⟨h.toShares, h.typeId, h.sends.encoding⟩

theorem Sent.ships (h : w.Sent e r d x) (hs : ∃ bs, d.Sends x bs) : w.Ships e r d x := by
  obtain ⟨bs, hbs⟩ := hs
  obtain rfl := Option.some.inj (h.payload.symm.trans hbs.encoding)
  exact ⟨h.toShares, h.typeId, hbs⟩

/-! ### One handle after another -/

namespace Gathers

theorem nil : w.Gathers e [] [] :=
  ⟨nofun, nofun, fun _ _ _ => nofun, List.nodup_nil⟩

theorem mem_iff (hi : w.registry.Indexed) (hg : w.Gathers e handles records) :
    r ∈ records ↔ ∃ d x, w.Sent e r d x ∧ d.handle ∈ handles := by
  refine ⟨hg.sound r, fun hex => ?_⟩
  obtain ⟨d, x, hr, hd⟩ := hex
  obtain ⟨r', hr', hsent⟩ := hg.complete d x hr.toShares hd
  rw [hr.eq hi hsent (hr.typeId.trans hsent.typeId.symm)]
  exact hr'

theorem of_perm (hg : w.Gathers e handles records) (hp : records'.Perm records) :
    w.Gathers e handles records' := by
  refine ⟨hg.registered, fun r hr => hg.sound r (hp.mem_iff.1 hr), fun d x hs hd => ?_,
    (hp.map Record.typeId).nodup_iff.2 hg.nodup⟩
  obtain ⟨r, hr, hsent⟩ := hg.complete d x hs hd
  exact ⟨r, hp.mem_iff.2 hr, hsent⟩

theorem congr (hg : w.Gathers e handles records) (hh : ∀ h, h ∈ handles ↔ h ∈ handles') :
    w.Gathers e handles' records := by
  refine ⟨fun h hmem => hg.registered h ((hh h).2 hmem), fun r hr => ?_,
    fun d x hs hd => hg.complete d x hs ((hh d.handle).2 hd), hg.nodup⟩
  obtain ⟨d, x, hsent, hd⟩ := hg.sound r hr
  exact ⟨d, x, hsent, (hh d.handle).1 hd⟩

theorem perm (hi : w.registry.Indexed) (hg : w.Gathers e handles records)
    (hg' : w.Gathers e handles records') : records.Perm records' := by
  refine (List.perm_ext_iff_of_nodup hg.nodup.of_map hg'.nodup.of_map).2 fun r => ?_
  rw [hg.mem_iff hi, hg'.mem_iff hi]

theorem canSend (hw : w.WellFormed) (hg : w.Gathers e handles records) (hh : h ∈ handles) :
    w.CanSend e h := by
  obtain ⟨d, hd⟩ := hg.registered h hh
  refine ⟨d, hd, fun x hs => ?_⟩
  obtain rfl : d.handle = h := hw.registry.numbered h d hd
  obtain ⟨r, -, hr⟩ := hg.complete d x hs hh
  exact ⟨r.payload, hr.payload⟩

theorem length_lt (hw : w.WellFormed) (hg : w.Gathers e handles records) :
    records.length < 0x100000000 := by
  have hids : records.map Record.typeId ⊆ w.registry.entries.map TypeDescriptor.stableId := by
    intro id hid
    obtain ⟨r, hr, rfl⟩ := List.mem_map.1 hid
    obtain ⟨d, x, hsent, -⟩ := hg.sound r hr
    rw [hsent.typeId]
    exact List.mem_map_of_mem (List.mem_of_getElem? hsent.type)
  have hlength := (List.subperm_of_subset hg.nodup hids).length_le
  have hbound := hw.registry.bounded
  simp only [Registry.size, Registry.maxHandle] at hbound
  simp only [List.length_map] at hlength
  omega

theorem pass (hg : w.Gathers e seen done) (hd : w.descriptor? d.handle = some d)
    (hdone : ∀ x, w.Shares e d x → ∃ r ∈ done, w.Sent e r d x) :
    w.Gathers e (seen ++ [d.handle]) done := by
  refine ⟨List.forall_mem_append.2 ⟨hg.registered, List.forall_mem_singleton.2 ⟨d, hd⟩⟩,
    fun r hr => ?_, fun d' x hs hh => ?_, hg.nodup⟩
  · obtain ⟨d', x, hsent, hh⟩ := hg.sound r hr
    exact ⟨d', x, hsent, List.mem_append_left _ hh⟩
  · obtain hh | hh := List.mem_append.1 hh
    · exact hg.complete d' x hs hh
    · have hsame := List.mem_singleton.1 hh
      obtain rfl : d' = d := Option.some.inj (hs.type.symm.trans (hsame ▸ hd))
      exact hdone x hs

theorem push (hg : w.Gathers e seen done) (hr : w.Sent e r d x)
    (hfresh : ∀ r' ∈ done, r'.typeId ≠ r.typeId) :
    w.Gathers e (seen ++ [d.handle]) (done ++ [r]) := by
  refine ⟨List.forall_mem_append.2 ⟨hg.registered, List.forall_mem_singleton.2 ⟨d, hr.type⟩⟩,
    List.forall_mem_append.2 ⟨fun r' hr' => ?_, List.forall_mem_singleton.2 ?_⟩,
    fun d' y hs hh => ?_, ?_⟩
  · obtain ⟨d', y, hsent, hh⟩ := hg.sound r' hr'
    exact ⟨d', y, hsent, List.mem_append_left _ hh⟩
  · exact ⟨d, x, hr, List.mem_append_right _ (List.mem_singleton_self _)⟩
  · obtain hh | hh := List.mem_append.1 hh
    · obtain ⟨r', hr', hsent⟩ := hg.complete d' y hs hh
      exact ⟨r', List.mem_append_left _ hr', hsent⟩
    · obtain rfl := hs.type_eq hr.toShares (List.mem_singleton.1 hh)
      obtain rfl := hs.unique hr.toShares
      exact ⟨r, List.mem_append_right _ (List.mem_singleton_self r), hr⟩
  · rw [List.map_append, List.map_singleton, List.nodup_append]
    refine ⟨hg.nodup, List.nodup_singleton _, fun id hid id' hid' => ?_⟩
    obtain ⟨r', hr', rfl⟩ := List.mem_map.1 hid
    rw [List.mem_singleton.1 hid']
    exact hfresh r' hr'

end Gathers

theorem collectFrom_unknown (hd : w.descriptor? h = none) (told : List HookEvent)
    (done : List Record) (rest : List TypeHandle) :
    collectFrom e (w.note told) done (h :: rest) =
      (.error (.ecs (.unknownType h)), w.note told) := by
  rw [collectFrom, descriptor, show (w.note told).descriptor? h = none from hd]

/-- What becomes of the next handle: its component has a record afterwards, if it is to have one, or
it cannot be written. -/
theorem collectFrom_step (hw : w.WellFormed) (hi : w.registry.Indexed)
    (hg : w.Gathers e seen done) (told : List HookEvent) (h : TypeHandle)
    (rest : List TypeHandle) :
    (∃ done' told', w.Gathers e (seen ++ [h]) done' ∧
      collectFrom e (w.note told) done (h :: rest) = collectFrom e (w.note told') done' rest) ∨
    ¬ w.CanSend e h ∧ ∃ err told',
      collectFrom e (w.note told) done (h :: rest) = (.error err, w.note told') := by
  cases hd : w.descriptor? h with
  | none =>
    refine .inr ⟨fun hex => ?_, _, _, collectFrom_unknown hd told done rest⟩
    obtain ⟨d, hd', -⟩ := hex
    cases hd.symm.trans hd'
  | some d =>
    obtain rfl : d.handle = h := hw.registry.numbered h d hd
    by_cases hno : ∀ x, ¬ w.Shares e d x
    · exact .inl ⟨done, told, hg.pass hd fun x hx => absurd hx (hno x),
        collectFrom_of_not_shares hw hd hno told done rest⟩
    · obtain ⟨x, hs⟩ := not_forall_not.1 hno
      rw [collectFrom_of_shares hw hs]
      split
      · next hany =>
        -- its record is among those made so far
        refine .inl ⟨done, told, hg.pass hd fun y hy => ?_, rfl⟩
        obtain ⟨r, hr, hid⟩ := List.any_eq_true.1 hany
        obtain ⟨d', z, hsent, -⟩ := hg.sound r hr
        obtain ⟨rfl, rfl⟩ := hsent.eq_of_stableId hi hy (hsent.typeId.symm.trans (beq_iff_eq.1 hid))
        exact ⟨r, hr, hsent⟩
      · next hany =>
        obtain ⟨result, more, hpayload, hresult⟩ := (hs.note told).payload
        rw [hpayload, note_note]
        cases result with
        | error err =>
          refine .inr ⟨fun hex => ?_, err, _, rfl⟩
          obtain ⟨d', hd', hencodes⟩ := hex
          obtain rfl := Option.some.inj (hd.symm.trans hd')
          obtain ⟨bs, hbs⟩ := hencodes x hs
          cases hresult.trans hbs
        | ok bs =>
          refine .inl ⟨_, _, hg.push (r := ⟨d.stableId, bs⟩) ⟨hs, rfl, hresult.symm⟩ ?_, rfl⟩
          intro r hr hid
          exact hany (List.any_eq_true.2 ⟨r, hr, beq_iff_eq.2 hid⟩)

theorem collectFrom_cases (hw : w.WellFormed) (hi : w.registry.Indexed)
    (hg : w.Gathers e seen done) (told : List HookEvent) (handles : List TypeHandle) :
    (∃ records told', w.Gathers e (seen ++ handles) records ∧
      collectFrom e (w.note told) done handles = (.ok records, w.note told')) ∨
    (∃ h ∈ handles, ¬ w.CanSend e h) ∧ ∃ err told',
      collectFrom e (w.note told) done handles = (.error err, w.note told') := by
  -- `done` holds the records of the handles that came before, which are in `seen`
  induction handles generalizing seen done told with
  | nil => exact .inl ⟨done, told, by rwa [List.append_nil], rfl⟩
  | cons h rest ih =>
    obtain ⟨done', told', hg', hstep⟩ | ⟨hsend, hstep⟩ := collectFrom_step hw hi hg told h rest
    · rw [hstep]
      obtain ⟨records, told', hg', hrest⟩ | ⟨⟨k, hk, hsend⟩, hrest⟩ := ih hg' told'
      · exact .inl ⟨records, told', by rwa [List.append_assoc] at hg', hrest⟩
      · exact .inr ⟨⟨k, List.mem_cons_of_mem h hk, hsend⟩, hrest⟩
    · exact .inr ⟨⟨h, List.mem_cons_self, hsend⟩, hstep⟩

theorem collect_cases (hw : w.WellFormed) (hi : w.registry.Indexed) (e : Entity)
    (handles : List TypeHandle) :
    (w.isAlive e = true ∧ ∃ records told, w.Gathers e handles records ∧
      w.collect e handles = (.ok records, w.note told)) ∨
    ¬ (w.isAlive e = true ∧ ∀ h ∈ handles, w.CanSend e h) ∧ ∃ err told,
      w.collect e handles = (.error err, w.note told) := by
  unfold collect
  by_cases he : w.isAlive e = true
  · rw [if_pos he]
    obtain hall | ⟨⟨h, hh, hno⟩, hrefused⟩ :=
      collectFrom_cases hw hi (.nil (e := e)) [] handles
    · exact .inl ⟨he, hall⟩
    · exact .inr ⟨fun hcan => hno (hcan.2 h hh), hrefused⟩
  · rw [if_neg he]
    exact .inr ⟨fun hcan => he hcan.1, _, [], rfl⟩

end World
end EntityWorld
