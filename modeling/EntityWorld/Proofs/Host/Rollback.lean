import EntityWorld.Proofs.Host.Creation
set_option autoImplicit false

/-!
Creations that fail. The new entity is ended again, and all that its record has made goes with it,
so the world is as it was. So is the map, unless the object was being destroyed: that binding was
given up for the new one, and it does not come back.
-/
namespace EntityWorld

namespace World

variable {u v w : World} {e t x : Entity} {made : List Entity}

/-- The same entities are alive in both worlds, with the same ids, values, pairs and names. -/
structure Alike (w v : World) : Prop where
  alive : ∀ x, v.isAlive x = w.isAlive x
  peek : ∀ x id, v.peek x id = w.peek x id
  hasPair : ∀ x relation t, v.hasPair x relation t = w.hasPair x relation t
  names : ∀ n, v.names.get? n = w.names.get? n
  entityNames : ∀ i, v.entityNames.get? i = w.entityNames.get? i

theorem Alike.refl (w : World) : w.Alike w :=
  ⟨fun _ => rfl, fun _ _ => rfl, fun _ _ _ => rfl, fun _ => rfl, fun _ => rfl⟩

theorem WellFormed.alike (hw : w.WellFormed) (hv : v.WellFormed) (hwf : w.Fits) (hvf : v.Fits)
    (hwn : w.Named) (hvn : v.Named) (halive : ∀ x, v.isAlive x = w.isAlive x)
    (hpeek : ∀ x id, v.peek x id = w.peek x id) (hname : ∀ x, v.nameOf x = w.nameOf x) :
    w.Alike v := by
  obtain ⟨hnames, hslots⟩ := hwn.tables_eq hvn hname
  refine ⟨halive, hpeek, fun x relation t => ?_, hnames, hslots⟩
  rw [Bool.eq_iff_iff, hv.hasPair_iff hvf, hw.hasPair_iff hwf, Carries, Carries, halive, hpeek]

/-! ### Ending what was made -/

theorem Reared.diesWith_iff (h : Reared e u made v) (hp : u.Anchored) (he : e ∈ made) :
    v.DiesWith e x ↔ x ∈ made := by
  refine ⟨fun hx => ?_, h.dies x⟩
  induction hx with
  | self => exact he
  | source _ hcarries hi _ ih =>
    -- its target is new, and nothing old has a pair with that
    refine ((h.builds.alive _).1 hcarries.isAlive).resolve_left fun hold => ?_
    exact hp.not_carries h.builds ih hi ((h.builds.carries hold _).1 hcarries)

theorem Reared.despawn (h : Reared e u made v) (hp : u.Anchored) (he : e ∈ made)
    (hf : (v.despawn e).2.Fits) : (∀ x, (v.despawn e).2.isAlive x = u.isAlive x) ∧
      (∀ x id, (v.despawn e).2.peek x id = u.peek x id) ∧
      ∀ x, (v.despawn e).2.nameOf x = u.nameOf x := by
  have hb := h.builds
  have hcascade := hb.wellFormed.despawn_cascadeOf ((hb.alive e).2 (.inr he)) hf
  have hspares := waning_spares.despawn v e
  obtain ⟨w, hw⟩ : ∃ w, (v.despawn e).2 = w := ⟨_, rfl⟩
  rw [hw] at hcascade hspares ⊢
  have halive : ∀ x, w.isAlive x = u.isAlive x := by
    intro x
    rw [Bool.eq_iff_iff, hcascade.died, h.diesWith_iff hp he, hb.alive]
    refine ⟨fun hx => hx.1.resolve_right hx.2, fun hx => ⟨.inl hx, fun hmade => ?_⟩⟩
    rw [hb.fresh x hmade] at hx
    cases hx
  have hdead : ∀ x id, ¬ u.Carries x id → u.peek x id = none := fun _ _ =>
    Option.not_isSome_iff_eq_none.1
  refine ⟨halive, fun x id => ?_, fun x => ?_⟩
  · by_cases hx : u.isAlive x = true
    · have hlive := (halive x).trans hx
      by_cases hid : ∃ t, v.DiesWith e t ∧ id.target? = some t.index
      · obtain ⟨t, ht, hi⟩ := hid
        rw [hcascade.freed x id t hlive ht hi, hdead]
        exact hp.not_carries hb ((h.diesWith_iff hp he).1 ht) hi
      · rw [← hb.peek hx]
        exact hcascade.kept x id hlive fun t ht hi => absurd ⟨t, ht, hi⟩ hid
    · rw [hdead x id fun hc => hx hc.isAlive]
      exact Option.not_isSome_iff_eq_none.1 fun hc => hx (halive x ▸ Carries.isAlive hc)
  · by_cases hx : u.isAlive x = true
    · rw [(hspares x ((halive x).trans hx)).2, hb.names x hx]
    · rw [nameOf, nameOf, halive, if_neg hx, if_neg hx]

end World

namespace IdentityMap

open World (Anchored Alike Reared)

variable {m m' : IdentityMap} {v w w' : World} {o : ObjectId} {e : Entity} {r : EntityRecord}
variable {dead made : List Entity} {err : BridgeError}

def doomed (m : IdentityMap) (o : ObjectId) (e : Entity) : IdentityMap :=
  { m.bind o e with byObject := (m.bind o e).byObject.insert o ⟨e, true⟩ }

theorem get?_doomed (m : IdentityMap) (o : ObjectId) (e : Entity) (o' : ObjectId) :
    (m.doomed o e).byObject.get? o' = if o' = o then some ⟨e, true⟩ else m.byObject.get? o' := by
  rw [doomed, FinMap.get?_insert, get?_byObject_bind]
  split <;> rfl

/-- An object has been bound and ended again, and the host has not been told. -/
structure Forgets (m : IdentityMap) (o : ObjectId) (m' : IdentityMap) : Prop where
  linked : m'.Linked
  byObject : ∀ o', m'.byObject.get? o' = if o' = o then none else m.byObject.get? o'
  notices : m'.notices = m.notices
  bound : m'.stats.bound = m.stats.bound + 1
  unbound : m'.stats.unbound = m.stats.unbound + 1
  externalDeletes : m'.stats.externalDeletes = m.stats.externalDeletes

theorem Linked.forgets (hm : (m.doomed o e).Linked) (he : e ∈ dead)
    (hold : ∀ o' b, m.byObject.get? o' = some b → b.entity ∉ dead) :
    Forgets m o (dead.foldl onDespawn (m.doomed o e)) := by
  have hb := buries_foldl hm dead
  have hself : (m.doomed o e).byObject.get? o = some ⟨e, true⟩ := by rw [get?_doomed, if_pos rfl]
  have hstruck : (m.doomed o e).struck dead = [(o, ⟨e, true⟩)] := by
    refine struck_eq_singleton hself he fun x hx hmem => ?_
    by_contra hne
    have hget := FinMap.mem_entries_iff.1 hx
    rw [get?_doomed, if_neg hne] at hget
    exact hold x.1 x.2 hget hmem
  have htold : told ((m.doomed o e).struck dead) = [] := by
    rw [hstruck]
    rfl
  refine ⟨hb.linked, fun o' => Option.ext fun b => ?_, ?_, hb.bound, ?_, ?_⟩
  · rw [hb.get?, get?_doomed]
    split
    · refine iff_of_false (fun hx => hx.2 ?_) (Option.some_ne_none b).symm
      rw [← Option.some.inj hx.1]
      exact he
    · exact and_iff_left_of_imp (hold o' b)
  · have hlength := hb.notices.length_eq
    rw [htold] at hlength
    exact ((notices_foldl (m.doomed o e) dead).eq_of_length hlength.symm).symm
  · rw [hb.unbound, hstruck]
    rfl
  · rw [hb.external, htold]
    rfl

/-! ### What a failure leaves -/

/-- The world and the map are as they were, and the host has not been told anything. -/
structure Restored (m : IdentityMap) (w : World) (m' : IdentityMap) (w' : World) : Prop where
  world : w.Alike w'
  byObject : ∀ o, m'.byObject.get? o = m.byObject.get? o
  byEntity : ∀ e, m'.byEntity.get? e = m.byEntity.get? e
  notices : m'.notices = m.notices

/-- What is left when `o` could not be created. -/
structure RolledBack (m : IdentityMap) (w : World) (o : ObjectId) (m' : IdentityMap)
    (w' : World) : Prop where
  world : w.Alike w'
  notices : m'.notices = m.notices
  others : ∀ o', o' ≠ o → m'.byObject.get? o' = m.byObject.get? o'
  restored : Restored m w m' w' ↔ ∀ e, m.state o ≠ .destroying e
  /-- A binding that had not ended yet is gone, while its entity lives on. -/
  lost : ∀ e, m.state o = .destroying e → m'.state o = .unbound ∧ m'.objectOf e = none
  counted : ∃ n, m'.stats.bound = m.stats.bound + n ∧ m'.stats.unbound = m.stats.unbound + n
  externalDeletes : m'.stats.externalDeletes = m.stats.externalDeletes

theorem state_eq_destroying : m.state o = .destroying e ↔ m.byObject.get? o = some ⟨e, true⟩ := by
  unfold state
  cases m.byObject.get? o with
  | none => simp
  | some b =>
    obtain ⟨x, d⟩ := b
    cases d <;> simp

theorem RolledBack.refl (m : IdentityMap) (w : World) (ho : ∀ e, m.state o ≠ .destroying e) :
    RolledBack m w o m w where
  world := .refl w
  notices := rfl
  others _ _ := rfl
  restored := iff_of_true ⟨.refl w, fun _ => rfl, fun _ => rfl, rfl⟩ ho
  lost e he := absurd he (ho e)
  counted := ⟨0, rfl, rfl⟩
  externalDeletes := rfl

theorem Forgets.rolledBack (h : Forgets m o m') (hm : m.Linked) (hw : w.Alike w')
    (hgone : ∀ b, m.byObject.get? o = some b → b.destroying = true) : RolledBack m w o m' w' := by
  have hself : m'.byObject.get? o = none := by rw [h.byObject, if_pos rfl]
  have hothers : ∀ o', o' ≠ o → m'.byObject.get? o' = m.byObject.get? o' := fun o' ho' => by
    rw [h.byObject, if_neg ho']
  refine ⟨hw, h.notices, hothers, ⟨fun hr e he => ?_, fun hno => ?_⟩, fun e he => ?_,
    ⟨1, h.bound, h.unbound⟩, h.externalDeletes⟩
  · have hsame := hr.byObject o
    rw [hself, state_eq_destroying.1 he] at hsame
    cases hsame
  · have hnone : m.byObject.get? o = none := by
      rw [Option.eq_none_iff_forall_ne_some]
      intro b hb
      obtain ⟨x, d⟩ := b
      obtain rfl : d = true := hgone _ hb
      exact hno x (state_eq_destroying.2 hb)
    have hall : ∀ o', m'.byObject.get? o' = m.byObject.get? o' := by
      intro o'
      by_cases ho' : o' = o
      · rw [ho', hself, hnone]
      · exact hothers o' ho'
    exact ⟨hw, hall, hm.objectOf_eq h.linked hall, h.notices⟩
  · refine ⟨state_eq_unbound.2 hself, Option.eq_none_iff_forall_ne_some.2 fun o' ho' => ?_⟩
    obtain ⟨b, hb, rfl⟩ := h.linked.objectOf_iff.1 ho'
    by_cases hne : o' = o
    · rw [hne, hself] at hb
      cases hb
    · -- the entity had one object only
      rw [hothers o' hne] at hb
      have hfirst := hm.forward o' b hb
      rw [hm.forward o _ (state_eq_destroying.1 he)] at hfirst
      exact hne (Option.some.inj hfirst).symm

namespace Attentive

theorem destroying_of_entityOf (h : Attentive m w) (ho : m.entityOf w o = none) {b : Binding}
    (hb : m.byObject.get? o = some b) : b.destroying = true := by
  by_contra hd
  rw [Bool.not_eq_true] at hd
  simp only [entityOf, hb, hd, h.alive o b hb] at ho
  cases ho

theorem forgets_despawn (h : Attentive m w) (hp : w.Anchored) (hreared : Reared e w made v)
    (he : e ∈ made) (hm : (m.doomed o e).Linked) (hf : (v.despawn e).2.Fits) :
    Forgets m o ((m.doomed o e).settle (v.despawn e).2).1 := by
  have hb := hreared.builds
  obtain ⟨dead, -, hdead, hlisteners⟩ :=
    (hb.wellFormed.despawn_cascadeOf ((hb.alive e).2 (.inr he)) hf).heard
  have hears : (v.despawn e).2.ears = [⟨.identityMap, dead ++ []⟩] := by
    rw [World.ears_of_listeners hlisteners, World.ears, hb.listeners]
    exact congrArg _ h.ears
  have hmem : ∀ x, x ∈ (v.despawn e).2.deaths ↔ x ∈ made := fun x => by
    rw [World.deaths_of_ears hears, List.append_nil, List.mem_reverse, hdead,
      hreared.diesWith_iff hp he]
  refine hm.forgets ((hmem e).2 he) fun o' b ho' hdies => ?_
  have hlive := h.alive o' b ho'
  rw [hb.fresh b.entity ((hmem b.entity).1 hdies)] at hlive
  cases hlive

end Attentive

theorem state_of_entityOf (h : m.entityOf w o = some e) : m.state o = .bound e := by
  unfold entityOf at h
  unfold state
  split at h
  · next b hb =>
    rw [hb]
    obtain ⟨x, d⟩ := b
    cases d <;> simp_all
  · cases h

theorem entityOf_of_refused (herr : (m.created w o r).1 = .error err)
    (hc : ¬ (r.participates w.registry && (m.entityOf w o).isNone) = true) :
    ∃ e, m.entityOf w o = some e := by
  cases hr : r.participates w.registry with
  | false => simp [created, hr] at herr
  | true => exact Option.ne_none_iff_exists'.1 (by simpa [hr] using hc)

/-- Whatever fails, at whatever depth of the record. -/
theorem Attended.created_rolledBack (h : Attended m w) (hp : w.Anchored)
    (hf : (m.created w o r).2.2.Fits) (herr : (m.created w o r).1 = .error err) :
    RolledBack m w o (m.created w o r).2.1 (m.created w o r).2.2 := by
  have ha := h.attentive
  by_cases hc : (r.participates w.registry && (m.entityOf w o).isNone) = true
  · obtain ⟨hr, ho⟩ := Bool.and_eq_true_iff.1 hc
    rw [Option.isNone_iff_eq_none] at ho
    have hafter := ha.created hf
    obtain ⟨made, v, hreared, hfit, ⟨heq, -⟩ | ⟨err', heq⟩⟩ := ha.created_cases hr ho hf
    · rw [heq] at herr
      cases herr
    · have hself : w.spawn.1 ∈ w.spawn.1 :: made := List.mem_cons_self
      have hget : (m.bind o w.spawn.1).byObject.get? o = some ⟨w.spawn.1, false⟩ := by
        rw [get?_byObject_bind, if_pos rfl]
      have hdestroyed : (m.bind o w.spawn.1).destroyed v o =
          (true, (m.doomed o w.spawn.1).settle (v.despawn w.spawn.1).2) :=
        destroyed_eq hget rfl ((hreared.builds.alive _).2 (.inr hself))
      rw [heq, hdestroyed] at hf hafter ⊢
      have hroom := fits_settle.1 hf
      obtain ⟨halive, hpeek, hname⟩ := hreared.despawn hp hself hroom
      have halike := ha.world.alike hafter.world h.fits hf ha.named hafter.named halive hpeek hname
      have hlinked : (m.doomed o w.spawn.1).Linked := (ha.linked_bind o h.fits).ask hget
      exact (ha.forgets_despawn hp hreared hself hlinked hroom).rolledBack ha.linked halike
        fun b => ha.destroying_of_entityOf ho
  · obtain ⟨e, he⟩ := entityOf_of_refused herr hc
    rw [created_refused m w hc]
    refine .refl m w fun x hx => ?_
    rw [state_of_entityOf he] at hx
    cases hx

def wreck : EntityRecord :=
  .name "Barge" (.sub "Mast" (.sub "Flag" (.value (tons 2) .nil) .nil)
    (.sub "Boat" (.pair ⟨2⟩ ⟨9⟩ .nil) .nil))

def sunk : Except BridgeError (Option Entity) × IdentityMap × World :=
  harbour.1.created harbour.2 ⟨3⟩ wreck

theorem created_rolledBack_wreck : sunk.1 = .error (.notBound ⟨9⟩) ∧
    RolledBack harbour.1 harbour.2 ⟨3⟩ sunk.2.1 sunk.2.2 ∧
    Restored harbour.1 harbour.2 sunk.2.1 sunk.2.2 := by
  have herr : sunk.1 = .error (.notBound ⟨9⟩) := by decide +kernel
  have hf : sunk.2.2.Fits := by decide +kernel
  have hstate : harbour.1.state ⟨3⟩ = .unbound := by decide +kernel
  have hback : RolledBack harbour.1 harbour.2 ⟨3⟩ sunk.2.1 sunk.2.2 := by
    unfold sunk at herr hf ⊢
    exact attended_harbour.created_rolledBack anchored_harbour hf herr
  refine ⟨herr, hback, hback.restored.2 fun e he => ?_⟩
  rw [hstate] at he
  cases he

def replaced : Except BridgeError (Option Entity) × IdentityMap × World :=
  harbour.1.beginShutdown.created harbour.2 ⟨2⟩ wreck

/-- The crane lives on, and the map has forgotten whose it is. -/
theorem replaced_not_restored : Attended harbour.1.beginShutdown harbour.2 ∧ harbour.2.Anchored ∧
    replaced.2.2.Fits ∧ replaced.1 = .error (.notBound ⟨9⟩) ∧
    harbour.1.beginShutdown.state ⟨2⟩ = .destroying ⟨1, 0⟩ ∧ replaced.2.1.state ⟨2⟩ = .unbound ∧
    replaced.2.2.isAlive ⟨1, 0⟩ = true ∧
    ¬ Restored harbour.1.beginShutdown harbour.2 replaced.2.1 replaced.2.2 := by
  refine ⟨attended_harbour.announce, anchored_harbour, by decide +kernel, by decide +kernel,
    by decide +kernel, by decide +kernel, by decide +kernel, fun h => ?_⟩
  exact absurd (h.byObject ⟨2⟩) (by decide +kernel)

end IdentityMap
end EntityWorld
