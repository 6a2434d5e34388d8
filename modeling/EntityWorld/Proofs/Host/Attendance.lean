import EntityWorld.Proofs.Host.Lifecycle
import EntityWorld.Proofs.World.Names
import EntityWorld.Proofs.World.Types
set_option autoImplicit false

/-!
A map that attends to a world. The host may announce the end of the world and go on with it all the
same; objects that were bound until then count as being destroyed. Even so the two tables stay each
other's inverse, and every entity in them is alive.
-/
namespace EntityWorld

namespace IdentityMap

open Allocator (Act)

variable {m m' : IdentityMap} {w v : World} {o : ObjectId} {e : Entity} {acts : List Act}

/-- The map and the world, some deeds and announcements after the map was installed. -/
inductive Attended : IdentityMap → World → Prop where
  | install {w : World} : w.Reachable → w.ears = [] → Attended .empty (w.listen .identityMap)
  | deed {m : IdentityMap} {w : World} (d : Deed) : Attended m w → d.Ordinary →
      (d.run m w).2.Fits → Attended (d.run m w).1 (d.run m w).2
  | announce {m : IdentityMap} {w : World} : Attended m w → Attended m.beginShutdown w

/-- The map has taken note of all deaths in a world that is in order. -/
structure Attentive (m : IdentityMap) (w : World) : Prop where
  world : w.WellFormed
  typed : w.Typed
  named : w.Named
  ears : w.ears = [⟨.identityMap, []⟩]
  linked : m.Linked
  alive : ∀ o b, m.byObject.get? o = some b → w.isAlive b.entity = true

/-- What happens between two worlds that fit is told to the map, and leaves types and names in
order. -/
def Tends (w v : World) : Prop :=
  w.Informs v ∧ World.LeadsBy World.Enrols w v ∧ World.LeadsBy (fun w v => w.Named → v.Named) w v

theorem wide_tends : World.Wide Tends :=
  World.wide_informs.and
    (World.rowless_enrols.throughout.toWide.and World.rowless_named.throughout.toWide)

namespace Attentive

theorem settle_self (h : Attentive m w) : m.settle w = (m, w) := settle_of_silent h.ears

theorem heed (h : Attentive m w) (hm : m'.Linked)
    (halive : ∀ o b, m'.byObject.get? o = some b → w.isAlive b.entity = true)
    (ht : w.Tells v acts) (hv : v.WellFormed) (htyped : v.Typed) (hnamed : v.Named) (hf : v.Fits) :
    Attentive (m'.settle v).1 (m'.settle v).2 := by
  have hears : v.ears = [⟨.identityMap, w.entities.departed acts ++ []⟩] := by
    rw [ht.ears, h.ears]
    rfl
  have hb : m'.Buries v.deaths (m'.settle v).1 := buries_foldl hm v.deaths
  refine ⟨(World.takeHeard_leads v _).keeps hv ⟨hf.slots, hf.tables⟩,
    ⟨htyped.registry, htyped.childOf⟩, ⟨hnamed.owner, hnamed.slot⟩,
    World.ears_takeHeard_self hears, hb.linked, fun o b hob => ?_⟩
  obtain ⟨hob, hout⟩ := hb.get?.1 hob
  rw [World.deaths_of_ears hears, List.append_nil, List.mem_reverse] at hout
  exact (ht.isAlive h.world hf (halive o b hob)).resolve_right hout

theorem tend (h : Attentive m w) (hm : m'.Linked)
    (halive : ∀ o b, m'.byObject.get? o = some b → w.isAlive b.entity = true) (hv : Tends w v)
    (hf : v.Fits) : Attentive (m'.settle v).1 (m'.settle v).2 := by
  obtain ⟨hinforms, htypes, hnames⟩ := hv
  obtain ⟨acts, ht⟩ := hinforms.tells h.world hf
  exact h.heed hm halive ht (hinforms.leads.keeps h.world hf)
    (h.typed.enrols (htypes.holds h.world hf)) (hnames.holds h.world hf h.named) hf

theorem isAlive_spawn (h : Attentive m w) (hf : w.Fits) (e : Entity) :
    w.spawn.2.isAlive e = true ↔ e = w.spawn.1 ∨ w.isAlive e = true := by
  obtain ⟨_, _, _, hspawn⟩ := World.spawn_eq h.world
  rw [hspawn]
  exact Allocator.isAlive_allocate h.world.entities (fun _ => hf.slots) e

theorem not_isAlive_spawn (h : Attentive m w) (hf : w.Fits) : w.isAlive w.spawn.1 = false :=
  World.contents_eq_none_iff.1 (h.world.spawn hf).2.1

theorem linked_bind (h : Attentive m w) (o : ObjectId) (hf : w.Fits) :
    (m.bind o w.spawn.1).Linked :=
  h.linked.bind_fresh h.alive o (h.not_isAlive_spawn hf)

theorem bind (h : Attentive m w) (o : ObjectId) (hf : w.spawn.2.Fits) :
    Attentive (m.bind o w.spawn.1) w.spawn.2 := by
  have hfit := (World.spawn_grows w).fits hf
  obtain ⟨hinforms, htypes, hnames⟩ := wide_tends.spawn w
  refine ⟨hinforms.leads.keeps h.world hf, h.typed.enrols (htypes.holds h.world hf),
    hnames.holds h.world hf h.named, ?_, h.linked_bind o hfit, fun o' b hb => ?_⟩
  · rw [(World.spawn_tells w).ears, h.ears]
    rfl
  · rw [IdentityMap.bind, FinMap.get?_insert] at hb
    rw [h.isAlive_spawn hfit]
    split at hb
    · exact .inl (congrArg Binding.entity (Option.some.inj hb)).symm
    · exact .inr (h.alive o' b hb)

theorem ensured (h : Attentive m w) (hf : (m.ensured w o).2.2.Fits) :
    Attentive (m.ensured w o).2.1 (m.ensured w o).2.2 := by
  unfold IdentityMap.ensured at hf ⊢
  split
  · exact h
  · next hnone =>
    simp only [hnone] at hf
    exact h.bind o hf

theorem destroyed (h : Attentive m w) (hf : (m.destroyed w o).2.2.Fits) :
    Attentive (m.destroyed w o).2.1 (m.destroyed w o).2.2 := by
  cases ho : m.byObject.get? o with
  | none =>
    have hsame : m.destroyed w o = (false, m, w) := by simp only [IdentityMap.destroyed, ho]
    rw [hsame]
    exact h
  | some b =>
    cases hd : b.destroying with
    | true =>
      have hsame : m.destroyed w o = (false, m, w) := by
        simp only [IdentityMap.destroyed, ho, hd, if_true]
      rw [hsame]
      exact h
    | false =>
      rw [destroyed_eq ho hd (h.alive o b ho)] at hf ⊢
      refine h.tend (h.linked.ask ho) (fun x c hc => ?_) (wide_tends.despawn w b.entity)
        (fits_settle.1 hf)
      rw [FinMap.get?_insert] at hc
      split at hc
      · rw [← Option.some.inj hc]
        exact h.alive o b ho
      · exact h.alive x c hc

theorem announce (h : Attentive m w) : Attentive m.beginShutdown w := by
  refine { h with linked := (Marked.beginShutdown m).linked h.linked, alive := fun o b hb => ?_ }
  rw [(Marked.beginShutdown m).byObject, Option.map_eq_some_iff] at hb
  obtain ⟨b, hb, rfl⟩ := hb
  exact h.alive o b hb

theorem created (h : Attentive m w) {r : EntityRecord} (hf : (m.created w o r).2.2.Fits) :
    Attentive (m.created w o r).2.1 (m.created w o r).2.2 := by
  by_cases hc : (r.participates w.registry && (m.entityOf w o).isNone) = true
  · obtain ⟨hr, ho⟩ := Bool.and_eq_true_iff.1 hc
    rw [Option.isNone_iff_eq_none] at ho
    obtain ⟨x, hx⟩ : ∃ x, r.apply (m.resolver w r) w.spawn.1 w.spawn.2 = x := ⟨_, rfl⟩
    have hv : Tends w.spawn.2 x.2 := by
      rw [← hx]
      exact EntityRecord.wide_apply wide_tends _ r _ _
    have happlied (hfit : x.2.Fits) := (h.bind o (hv.1.leads.grows.fits hfit)).tend
      (h.bind o (hv.1.leads.grows.fits hfit)).linked (h.bind o (hv.1.leads.grows.fits hfit)).alive
      hv hfit
    rw [created_eq m w hr ho hx] at hf ⊢
    cases hresult : x.1 with
    | ok _ =>
      rw [hresult] at hf
      exact happlied (fits_settle.1 hf)
    | error _ =>
      rw [hresult] at hf
      exact (happlied (fits_settle.1 ((destroyed_grows _ _ o).fits hf))).destroyed hf
  · rw [created_refused m w hc]
    exact h

theorem attach (h : Attentive m w) {child parent : ObjectId}
    (hf : (m.attach w child parent).2.2.Fits) : Attentive
      ((m.attach w child parent).2.1.settle (m.attach w child parent).2.2).1
      ((m.attach w child parent).2.1.settle (m.attach w child parent).2.2).2 := by
  cases hp : m.entityOf w parent with
  | none =>
    have hsame : (m.attach w child parent).2 = (m, w) := by simp only [IdentityMap.attach, hp]
    rw [hsame, h.settle_self]
    exact h
  | some p =>
    rw [attach_eq m w hp] at hf ⊢
    have hv := wide_tends.setParent (m.ensured w child).2.2 (m.ensured w child).1 p
    have hensured := h.ensured (hv.1.leads.grows.fits hf)
    exact hensured.tend hensured.linked hensured.alive hv hf

theorem act (h : Attentive m w) {op : Operation} (hop : op.Ordinary) (hf : (w.perform op).Fits) :
    Attentive (m.settle (w.perform op)).1 (m.settle (w.perform op)).2 := by
  obtain ⟨acts, ht⟩ := h.world.perform_tells hop hf
  exact h.heed h.linked h.alive ht (h.world.perform op hf) (h.typed.perform h.world op hf)
    (h.named.perform h.world op hf) hf

theorem deed (h : Attentive m w) (d : Deed) (hd : d.Ordinary) (hf : (d.run m w).2.Fits) :
    Attentive (d.run m w).1 (d.run m w).2 := by
  have hself {n : IdentityMap} {u : World} (hn : Attentive n u) :
      Attentive (n.settle u).1 (n.settle u).2 := by
    rwa [hn.settle_self]
  cases d with
  | create o r => exact hself (h.created (fits_settle.1 hf))
  | spawn o =>
    have hf := fits_settle.1 hf
    refine hself ?_
    rw [spawn_eq] at hf ⊢
    exact h.ensured hf
  | attach child parent => exact h.attach (fits_settle.1 hf)
  | destroy o => exact hself (h.destroyed (fits_settle.1 hf))
  | act op => exact h.act hd (fits_settle.1 hf)
  | teardown =>
    have hop : Operation.shutdown.Ordinary := trivial
    exact h.announce.act hop (fits_settle.1 hf)

end Attentive

theorem Attended.attentive (h : Attended m w) : Attentive m w := by
  induction h with
  | @install w hw hears =>
    have hop : (w.listen .identityMap).Fits := ⟨hw.fits.slots, hw.fits.tables⟩
    refine ⟨hw.wellFormed.perform (.listen .identityMap) hop,
      hw.typed.perform hw.wellFormed (.listen .identityMap) hop,
      hw.named.perform hw.wellFormed (.listen .identityMap) hop, ?_, linked_empty, fun _ _ => nofun⟩
    have hlisten : (w.listen .identityMap).ears = w.ears ++ [⟨.identityMap, []⟩] :=
      List.filter_append _ _
    rw [hlisten, hears, List.nil_append]
  | deed d _ hd hf ih => exact ih.deed d hd hf
  | announce _ ih => exact ih.announce

theorem Attended.fits (h : Attended m w) : w.Fits := by
  induction h with
  | install hw _ => exact ⟨hw.fits.slots, hw.fits.tables⟩
  | deed _ _ _ hf _ => exact hf
  | announce _ ih => exact ih

end IdentityMap
end EntityWorld
