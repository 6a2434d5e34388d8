import EntityWorld.Proofs.World.Pairs
import EntityWorld.Proofs.World.Refinement
import EntityWorld.Replication.Replicator
set_option autoImplicit false

/-!
What the records of a snapshot do to the entity that they arrive at. A record that is accepted gives
the entity one component, and records for different types do not get in each other's way.
-/
namespace EntityWorld

/-- What a payload brings to a type: a tag as such, or the value that is read from the payload. -/
inductive TypeDescriptor.Brings (d : TypeDescriptor) (payload : Bytes) : Option Value → Prop where
  | tag : d.isTag = true → d.Brings payload none
  | value {c : PayloadCodec} {x : Value} : d.isTag = false → d.codec = some c →
    c.decode payload = .ok x → d.Brings payload (some x)

/-- The record is for the type `d` and brings `x`. -/
structure Registry.Accepts (g : Registry) (r : Record) (d : TypeDescriptor) (x : Option Value) :
    Prop where
  type : g.descriptor? d.handle = some d
  typeId : r.typeId = d.stableId
  replicable : d.flags.replicable = true
  brings : d.Brings r.payload x

namespace Registry.Accepts

variable {g : Registry} {r : Record} {d : TypeDescriptor} {x : Option Value}

theorem found (h : g.Accepts r d x) (hi : g.Indexed) : g.ofStableId? r.typeId = some d.handle := by
  rw [h.typeId]
  exact hi.found _ _ h.type

theorem unique {d' : TypeDescriptor} {x' : Option Value} (h : g.Accepts r d x)
    (h' : g.Accepts r d' x') (hi : g.Indexed) : d = d' ∧ x = x' := by
  have hhandle := (h.found hi).symm.trans (h'.found hi)
  have htype := h'.type
  rw [← Option.some.inj hhandle, h.type] at htype
  obtain rfl := Option.some.inj htype
  refine ⟨rfl, ?_⟩
  cases h.brings with
  | tag htag =>
    cases h'.brings with
    | tag => rfl
    | value htag' => cases htag.symm.trans htag'
  | value htag hcodec hdecode =>
    cases h'.brings with
    | tag htag' => cases htag.symm.trans htag'
    | value _ hcodec' hdecode' =>
      obtain rfl := Option.some.inj (hcodec.symm.trans hcodec')
      exact congrArg some (Except.ok.inj (hdecode.symm.trans hdecode'))

theorem typeId_eq {s : Record} {d' : TypeDescriptor} {x' : Option Value} (h : g.Accepts r d x)
    (h' : g.Accepts s d' x') (heq : d'.handle = d.handle) : s.typeId = r.typeId := by
  have htype := h'.type
  rw [heq, h.type] at htype
  obtain rfl := Option.some.inj htype
  exact h'.typeId.trans h.typeId.symm

end Registry.Accepts

namespace Registry

variable {g : Registry} {r : Record} {records : List Record}

def addressed (g : Registry) (records : List Record) : List TypeHandle :=
  records.filterMap fun r => g.ofStableId? r.typeId

theorem addressed_cons {k : TypeHandle} (h : g.ofStableId? r.typeId = some k) :
    g.addressed (r :: records) = k :: g.addressed records := by
  simp [addressed, h]

theorem mem_addressed (hi : g.Indexed) (h : ∀ r ∈ records, ∃ d x, g.Accepts r d x)
    {k : TypeHandle} :
    k ∈ g.addressed records ↔ ∃ r ∈ records, ∃ d x, g.Accepts r d x ∧ d.handle = k := by
  rw [addressed, List.mem_filterMap]
  constructor
  · intro hex
    obtain ⟨r, hr, hk⟩ := hex
    obtain ⟨d, x, hacc⟩ := h r hr
    exact ⟨r, hr, d, x, hacc, Option.some.inj ((hacc.found hi).symm.trans hk)⟩
  · intro hex
    obtain ⟨r, hr, d, x, hacc, rfl⟩ := hex
    exact ⟨r, hr, hacc.found hi⟩

theorem nodup_addressed (hi : g.Indexed) (h : ∀ r ∈ records, ∃ d x, g.Accepts r d x)
    (hn : (records.map Record.typeId).Nodup) : (g.addressed records).Nodup := by
  induction records with
  | nil => exact List.nodup_nil
  | cons r rest ih =>
    obtain ⟨⟨d, x, hr⟩, hrest⟩ := List.forall_mem_cons.1 h
    obtain ⟨hid, hlater⟩ := List.nodup_cons.1 hn
    rw [addressed_cons (hr.found hi)]
    refine List.nodup_cons.2 ⟨fun hmem => ?_, ih hrest hlater⟩
    obtain ⟨s, hs, d', x', hacc, heq⟩ := (mem_addressed hi hrest).1 hmem
    exact hid (List.mem_map.2 ⟨s, hs, hr.typeId_eq hacc heq⟩)

end Registry

/-! ### On the contents -/

namespace Contents

variable {c c₁ c' : Contents} {check : Id → Except EcsError TypeDescriptor} {e y : Entity}
variable {id i : Id}
variable {m : Id → Option Value} {d : TypeDescriptor} {x : Option Value}

/-- The entity has the id, with the value `x` if one is asked for. -/
def Bears (c : Contents) (e : Entity) (id : Id) (x : Option Value) : Prop :=
  ∃ v, c.value? e id = some v ∧ ∀ u, x = some u → v = u

structure Receives (e : Entity) (id : Id) (x : Option Value) (c c' : Contents) : Prop where
  sameBut : SameBut e id c c'
  bears : c'.Bears e id x
  again : c.Bears e id x → c' = c

theorem add_receives (hm : c e = some m) (hc : check id = .ok d) (hd : d.canDefault = true) :
    (∃ b, (c.add check e id).1 = .ok b) ∧ Receives e id none c (c.add check e id).2 := by
  have hok : ∃ b, (c.add check e id).1 = .ok b := by
    obtain ⟨p, hp⟩ := Option.isSome_iff_exists.1 (World.canDefault_iff.1 hd)
    unfold add
    rw [hm, hc]
    cases hv : m id with
    | some v => exact ⟨false, by simp only [hv]⟩
    | none => exact ⟨true, by simp only [hv, hp]⟩
  refine ⟨hok, add_sameBut, ?_, ?_⟩
  · obtain ⟨b, hb⟩ := hok
    obtain ⟨c', hc'⟩ : ∃ c', c.add check e id = (.ok b, c') := ⟨_, Prod.ext hb rfl⟩
    obtain ⟨⟨m', v, hm', hv⟩, -⟩ := get_of_add hc'
    rw [hc']
    refine ⟨v, ?_, nofun⟩
    show c'.value? e id = some v
    rw [value?, hm', Option.bind_some, hv]
  · intro hbears
    obtain ⟨v, hv, -⟩ := hbears
    rw [value?, hm, Option.bind_some] at hv
    unfold add
    rw [hm, hc]
    simp only [hv]

theorem put_receives {v : Value} (hm : c e = some m) (hc : check id = .ok d) :
    c.put check e id v = (.ok (), c.set e id v) ∧
      Receives e id (some v) c (c.set e id v) := by
  have hput : c.put check e id v = (.ok (), c.set e id v) := by
    unfold put
    rw [hm, hc]
  have hset : c.set e id v = Function.update c e (some (Function.update m id (some v))) := by
    rw [set, hm, Option.map_some]
  refine ⟨hput, ?_, ?_, ?_⟩
  · have hsame : SameBut e id c (c.put check e id v).2 := put_sameBut
    rwa [hput] at hsame
  · refine ⟨v, ?_, fun u hu => Option.some.inj hu⟩
    rw [hset, value?, Function.update_self, Option.bind_some, Function.update_self]
  · intro hbears
    obtain ⟨u, hu, hvalue⟩ := hbears
    rw [value?, hm, Option.bind_some, hvalue v rfl] at hu
    rw [hset, ← hu, Function.update_eq_self, ← hm, Function.update_eq_self]

structure Arrived (g : Registry) (e : Entity) (records : List Record) (c c' : Contents) : Prop where
  entities : ∀ y, (c' y).isSome = (c y).isSome
  bears : ∀ r ∈ records, ∀ d x, g.Accepts r d x → c'.Bears e (Id.component d.handle) x
  others : ∀ y i, (y = e → ∀ r ∈ records, ∀ d x, g.Accepts r d x → i ≠ Id.component d.handle) →
    c'.value? y i = c.value? y i
  again : (∀ r ∈ records, ∀ d x, g.Accepts r d x → c.Bears e (Id.component d.handle) x) → c' = c

namespace Arrived

variable {g : Registry} {records : List Record} {r : Record}

theorem nil : Arrived g e [] c c := ⟨fun _ => rfl, nofun, fun _ _ _ => rfl, fun _ => rfl⟩

theorem cons (hi : g.Indexed) (hr : g.Accepts r d x)
    (hreceives : Receives e (Id.component d.handle) x c c₁) (h : Arrived g e records c₁ c')
    (hid : r.typeId ∉ records.map Record.typeId) : Arrived g e (r :: records) c c' := by
  have hother : ∀ s ∈ records, ∀ d' x', g.Accepts s d' x' →
      Id.component d'.handle ≠ Id.component d.handle := fun s hs d' x' hacc heq =>
    hid (List.mem_map.2 ⟨s, hs, hr.typeId_eq hacc (Id.component_inj heq)⟩)
  have hkept : c'.value? e (Id.component d.handle) = c₁.value? e (Id.component d.handle) :=
    h.others _ _ fun _ s hs d' x' hacc => (hother s hs d' x' hacc).symm
  refine ⟨fun y => (h.entities y).trans (hreceives.sameBut.entities y), fun s hs d' x' hacc => ?_,
    fun y i hno => ?_, fun hbears => ?_⟩
  · obtain rfl | hs := List.mem_cons.1 hs
    · obtain ⟨rfl, rfl⟩ := hr.unique hacc hi
      obtain ⟨v, hv, hvalue⟩ := hreceives.bears
      exact ⟨v, hkept.trans hv, hvalue⟩
    · exact h.bears s hs d' x' hacc
  · rw [h.others y i fun hy s hs => hno hy s (List.mem_cons_of_mem _ hs)]
    refine hreceives.sameBut.entries y i fun heq => ?_
    obtain ⟨rfl, rfl⟩ := Prod.mk.inj heq
    exact hno rfl r List.mem_cons_self d x hr rfl
  · have hfirst := hreceives.again (hbears r List.mem_cons_self d x hr)
    subst hfirst
    exact h.again fun s hs => hbears s (List.mem_cons_of_mem _ hs)

end Arrived
end Contents

/-! ### On a world -/

namespace World

variable {w v : World} {e : Entity} {d : TypeDescriptor} {x : Option Value} {r : Record}
variable {records : List Record} {p : Replicator} {report : ApplyReport}

def OneEdit (w v : World) : Prop := v = w ∨ ∃ x : Edit, v = (x.run w).2

theorem Furnishing.oneEdit {R : World → World → Prop} (h : Furnishing R) (hv : w.OneEdit v) :
    R w v := by
  obtain rfl | ⟨x, rfl⟩ := hv
  · exact h.refl _
  · exact h.edit w x

theorem oneEdit_applyPayload (w : World) (e : Entity) (d : TypeDescriptor) (payload : Bytes) :
    w.OneEdit (w.applyPayload e d payload).2 := by
  unfold applyPayload
  split
  · refine .inr ⟨.add e (Id.component d.handle), ?_⟩
    show _ = (w.add e (Id.component d.handle)).2
    split <;>
    · next hr => rw [hr]
  · split
    · exact .inl rfl
    · split
      · exact .inl rfl
      · exact .inl rfl
      · next value _ =>
        refine .inr ⟨.writeValue e value, ?_⟩
        show _ = (w.writeValue e value).2
        split <;>
        · next hr => rw [hr]

/-- A record can make the replicator forget one local write, and the world change by one edit. -/
theorem applyRecord_frame (p : Replicator) (w : World) (e : Entity) (report : ApplyReport)
    (r : Record) : ((p.applyRecord w e report r).2.1 = p ∨ ∃ k, (p.applyRecord w e report r).2.1 =
        { p with localWrites := p.localWrites.erase (e, k) }) ∧
      w.OneEdit (p.applyRecord w e report r).2.2 := by
  unfold Replicator.applyRecord
  simp only
  split
  · exact ⟨.inl rfl, .inl rfl⟩
  · next k _ =>
    split
    · exact ⟨.inl rfl, .inl rfl⟩
    · next d _ =>
      have hpayload := w.oneEdit_applyPayload e d r.payload
      split
      · exact ⟨.inl rfl, .inl rfl⟩
      · -- whether there was a local write is asked before what becomes of the record
        split
        · split
          · exact ⟨.inr ⟨k, rfl⟩, .inl rfl⟩
          · split <;>
            · next hr =>
              rw [hr] at hpayload
              exact ⟨.inr ⟨k, rfl⟩, hpayload⟩
        · split
          · exact ⟨.inl rfl, .inl rfl⟩
          · split <;>
            · next hr =>
              rw [hr] at hpayload
              exact ⟨.inl rfl, hpayload⟩

theorem Furnishing.applyRecords {R : World → World → Prop} (h : Furnishing R) (e : Entity)
    (records : List Record) (p : Replicator) (w : World) (report : ApplyReport) :
    R w (Replicator.applyRecords e p w report records).2.2 := by
  induction records generalizing p w report with
  | nil => exact h.refl w
  | cons r rest ih => exact h.trans (h.oneEdit (applyRecord_frame p w e report r).2) (ih _ _ _)

theorem checkId_component_of_accepts (h : w.registry.Accepts r d x) :
    w.checkId (Id.component d.handle) = .ok d := by
  rw [checkId_component, descriptor, show w.descriptor? d.handle = some d from h.type]

structure Gets (w : World) (e : Entity) (id : Id) (x : Option Value) (v : World) : Prop where
  becomes : w.Becomes v.contents v
  receives : Contents.Receives e id x w.contents v.contents
  size : w.Carries e id → v.storage.size = w.storage.size

theorem WellFormed.add_of_carries (hw : w.WellFormed) {k : TypeHandle}
    (hc : w.Carries e (Id.component k)) : (w.add e (Id.component k)).2 = w := by
  have hhas := (hw.has_iff_carries (Id.isWildcard_component k)).2 hc
  unfold World.add
  split
  · rfl
  · split
    · rfl
    · rw [if_pos hhas]

theorem WellFormed.size_put_of_carries (hw : w.WellFormed) {id : Id} (hc : w.Carries e id)
    (v : Value) (how : Transfer) : (w.put e id v how).2.storage.size = w.storage.size := by
  obtain ⟨l, a, hs⟩ := hw.stands hc.isAlive
  rw [Carries, hs.peek, hw.isSome_value?_iff hs] at hc
  have hcell : (a.cells id).isSome = true := (hw.shaped hs).isSome_cells.2 hc
  rw [Archetype.cells, Option.isSome_map] at hcell
  obtain ⟨col, hcol⟩ := Option.isSome_iff_exists.1 hcell
  unfold World.put
  rw [hs.place]
  simp only [hs.table, hcol]
  split
  · rfl
  · exact Storage.size_set _ _

theorem WellFormed.applyPayload_gets (hw : w.WellFormed) (hf : w.Fits) (he : w.isAlive e = true)
    (h : w.registry.Accepts r d x) :
    ∃ v, w.applyPayload e d r.payload = (.ok (), v) ∧ w.Gets e (Id.component d.handle) x v := by
  have hcheck := checkId_component_of_accepts h
  obtain ⟨l, a, hs⟩ := hw.stands he
  unfold applyPayload
  cases h.brings with
  | tag htag =>
    have hcan : d.canDefault = true := by
      rw [TypeDescriptor.canDefault, show (d.size == 0) = true from htag, Bool.or_true]
    obtain ⟨⟨b, hb⟩, hreceives⟩ := Contents.add_receives hs.contents hcheck hcan
    obtain ⟨hanswer, hbecomes⟩ := hw.add hf e (Id.component d.handle)
    obtain ⟨v, hv⟩ : ∃ v, w.add e (Id.component d.handle) = (.ok b, v) :=
      ⟨_, Prod.ext (hanswer.trans hb) rfl⟩
    have hsize := hw.add_of_carries (e := e) (k := d.handle)
    rw [hv] at hbecomes hsize
    rw [← hbecomes.contents] at hreceives hbecomes
    rw [if_pos htag, hv]
    exact ⟨v, rfl, hbecomes, hreceives, fun hc => congrArg (fun u => u.storage.size) (hsize hc)⟩
  | @value c value htag hcodec hdecode =>
    obtain ⟨hput, hreceives⟩ := Contents.put_receives (v := value) hs.contents hcheck
    obtain ⟨hanswer, hbecomes⟩ := hw.put hf e (Id.component d.handle) value .move
    rw [hput] at hanswer hbecomes
    obtain ⟨v, hv⟩ : ∃ v, w.put e (Id.component d.handle) value .move = (.ok (), v) :=
      ⟨_, Prod.ext hanswer rfl⟩
    have hwrite : w.writeValue e ⟨d, value⟩ = (.ok (), v) := by
      simp only [World.writeValue, ComponentValue.handle, hv]
    have hsize := fun hc : w.Carries e (Id.component d.handle) =>
      hw.size_put_of_carries hc value .move
    rw [hv] at hbecomes hsize
    have hcontents : v.contents = w.contents.set e (Id.component d.handle) value :=
      hbecomes.contents
    have hfill : (ComponentValue.fill w.registry d.handle fun _ => c.decode r.payload) =
        .ok (.ok ⟨d, value⟩) := by
      simp only [ComponentValue.fill, ComponentValue.find, h.type, hdecode, bind, Except.bind, pure,
        Except.pure, Except.map]
    rw [htag, if_neg Bool.false_ne_true]
    simp only [hcodec, hfill, hwrite]
    exact ⟨v, rfl, hcontents ▸ hbecomes, hcontents ▸ hreceives, hsize⟩

theorem WellFormed.applyRecord_gets (hw : w.WellFormed) (hf : w.Fits) (hi : w.registry.Indexed)
    (he : w.isAlive e = true) (hp : ∀ h, p.hasLocalWrite e h = false)
    (h : w.registry.Accepts r d x) (report : ApplyReport) : ∃ v, p.applyRecord w e report r =
      ({ report with applied := report.applied ++ [d.handle] }, p, v) ∧
        w.Gets e (Id.component d.handle) x v := by
  obtain ⟨v, hpayload, hgets⟩ := hw.applyPayload_gets hf he h
  refine ⟨v, ?_, hgets⟩
  simp only [Replicator.applyRecord, h.found hi, show w.descriptor? d.handle = some d from h.type,
    h.replicable, hp, hpayload, Bool.not_true, Bool.false_eq_true, Bool.false_and, if_false]

theorem WellFormed.applyRecords_arrived (hw : w.WellFormed) (hi : w.registry.Indexed)
    (he : w.isAlive e = true) (hp : ∀ h, p.hasLocalWrite e h = false)
    (hacc : ∀ r ∈ records, ∃ d x, w.registry.Accepts r d x)
    (hn : (records.map Record.typeId).Nodup)
    (hf : (Replicator.applyRecords e p w report records).2.2.Fits) :
    ∃ v, Replicator.applyRecords e p w report records =
      ({ report with applied := report.applied ++ w.registry.addressed records }, p, v) ∧
        w.Becomes v.contents v ∧ Contents.Arrived w.registry e records w.contents v.contents := by
  induction records generalizing w report with
  | nil => exact ⟨w, by simp [Replicator.applyRecords, Registry.addressed], .refl hw, .nil⟩
  | cons r rest ih =>
    obtain ⟨⟨d, x, hr⟩, hrest⟩ := List.forall_mem_cons.1 hacc
    obtain ⟨hid, hnodup⟩ := List.nodup_cons.1 hn
    have hgrows := (throughout_leads.toWide.applyRecords e (r :: rest) p w report).grows
    obtain ⟨u, hfirst, hu⟩ := hw.applyRecord_gets (hgrows.fits hf) hi he hp hr report
    have hstep : Replicator.applyRecords e p w report (r :: rest) = Replicator.applyRecords e p u
        { report with applied := report.applied ++ [d.handle] } rest := by
      rw [Replicator.applyRecords, hfirst]
    have hregistry := hu.becomes.registry
    rw [hstep] at hf ⊢
    obtain ⟨v, hlater, hv, harrived⟩ := ih hu.becomes.wellFormed (hregistry ▸ hi)
      (by rw [hu.becomes.isAlive, he]) (hregistry ▸ hrest) hnodup hf
    rw [hregistry] at hlater harrived
    refine ⟨v, ?_, hu.becomes.trans hv, .cons hi hr hu.receives harrived hid⟩
    rw [hlater, Registry.addressed_cons (hr.found hi), List.append_assoc, List.singleton_append]

theorem WellFormed.applyRecords_fits (hw : w.WellFormed) (hf : w.Fits) (hi : w.registry.Indexed)
    (he : w.isAlive e = true) (hp : ∀ h, p.hasLocalWrite e h = false)
    (hacc : ∀ r ∈ records, ∃ d x, w.registry.Accepts r d x ∧ w.Carries e (Id.component d.handle))
    (report : ApplyReport) : (Replicator.applyRecords e p w report records).2.2.Fits := by
  induction records generalizing w report with
  | nil => exact hf
  | cons r rest ih =>
    obtain ⟨⟨d, x, hr, hcarries⟩, hrest⟩ := List.forall_mem_cons.1 hacc
    obtain ⟨u, hfirst, hu⟩ := hw.applyRecord_gets hf hi he hp hr report
    have hstep : Replicator.applyRecords e p w report (r :: rest) = Replicator.applyRecords e p u
        { report with applied := report.applied ++ [d.handle] } rest := by
      rw [Replicator.applyRecords, hfirst]
    have hsame := hu.becomes.entities
    have hroom : u.Fits := ⟨hsame ▸ hf.slots, by rw [hu.size hcarries]; exact hf.tables⟩
    rw [hstep]
    refine ih hu.becomes.wellFormed hroom (hu.becomes.registry ▸ hi)
      (by rw [hu.becomes.isAlive, he]) (fun s hs => ?_) _
    obtain ⟨d', x', hacc', hcarries'⟩ := hrest s hs
    refine ⟨d', x', hu.becomes.registry ▸ hacc', ?_⟩
    rw [carries_iff_value?] at hcarries' ⊢
    by_cases heq : Id.component d'.handle = Id.component d.handle
    · obtain ⟨y, hy, -⟩ := hu.receives.bears
      rw [heq, hy]
      rfl
    · rwa [hu.receives.sameBut.entries e _ fun h => heq (Prod.mk.inj h).2]

end World
end EntityWorld
