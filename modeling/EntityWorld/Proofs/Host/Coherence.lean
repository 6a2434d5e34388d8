import EntityWorld.Proofs.Host.Bindings
import EntityWorld.Proofs.Host.Records
import EntityWorld.Proofs.World.Deaths
set_option autoImplicit false

/-!
The map of host objects beside the world. Between two operations they agree, and each operation
takes them to agreement again: some bindings begin, and those end whose entity is released.
-/
namespace EntityWorld

namespace IdentityMap

open Allocator (Act)

variable {m m' m'' : IdentityMap} {w v w' w'' : World} {o : ObjectId} {e : Entity} {b : Binding}
variable {asked : ObjectId → Bool} {acts : List Act} {past news news' : List Entry}

theorem settle_eq (m : IdentityMap) (w : World) :
    m.settle w = (w.deaths.foldl onDespawn m, (w.takeHeard .identityMap).2) := rfl

theorem settle_of_silent (h : w.ears = [⟨.identityMap, []⟩]) : m.settle w = (m, w) := by
  rw [settle_eq, World.deaths, World.takeHeard_of_silent h]
  rfl

theorem Linked.bind_fresh (h : m.Linked)
    (halive : ∀ o b, m.byObject.get? o = some b → w.isAlive b.entity = true) (o : ObjectId)
    (he : w.isAlive e = false) : (m.bind o e).Linked := by
  refine h.bind o (Option.eq_none_iff_forall_ne_some.2 fun o' ho' => ?_)
  obtain ⟨b, hb, rfl⟩ := h.backward _ _ ho'
  rw [halive o' b hb] at he
  cases he

/-- Between two deeds the map and the world agree. -/
structure Coherent (m : IdentityMap) (w : World) : Prop where
  world : w.WellFormed
  ears : w.ears = [⟨.identityMap, []⟩]
  linked : m.Linked
  idle : ∀ o b, m.byObject.get? o = some b → b.destroying = false
  alive : ∀ o b, m.byObject.get? o = some b → w.isAlive b.entity = true

/-- From one state to another bindings begin and end as told, and those end that are there while
their entity is released. -/
structure Passes (news : List Entry) (m : IdentityMap) (w : World) (m' : IdentityMap)
    (w' : World) : Prop where
  coherent : Coherent m' w'
  balanced : ∀ past, Balanced past m → Balanced (past ++ news) m'
  acts : ∃ acts, w'.entities = w.entities.run acts ∧ ∀ x, x ∈ m'.bindings ↔
    (x ∈ m.bindings ∨ x ∈ news.filterMap Entry.begun?) ∧ x.2 ∉ w.entities.departed acts

namespace Coherent

theorem settle_self (h : Coherent m w) : m.settle w = (m, w) := settle_of_silent h.ears

theorem passes (h : Coherent m w) : Passes [] m w m w := by
  refine ⟨h, fun past hpast => by rwa [List.append_nil], [], rfl, fun x => ?_⟩
  simp [Allocator.departed]

theorem heed (h : Coherent m w) (hm : m.Marked asked m') (ht : w.Tells v acts) (hv : v.WellFormed)
    (hf : v.Fits) (hasked : ∀ o b, m.byObject.get? o = some b → asked o = true →
      b.entity ∈ w.entities.departed acts) :
    Passes (m.ends v.deaths asked) m w (m'.settle v).1 (m'.settle v).2 := by
  have hears : v.ears = [⟨.identityMap, w.entities.departed acts ++ []⟩] := by
    rw [ht.ears, h.ears]
    rfl
  have hmem (e : Entity) : e ∈ v.deaths ↔ e ∈ w.entities.departed acts := by
    rw [World.deaths_of_ears hears, List.append_nil, List.mem_reverse]
  have hb : m'.Buries v.deaths (m'.settle v).1 := buries_foldl (hm.linked h.linked) v.deaths
  have hget (o : ObjectId) (b : Binding) : (m'.settle v).1.byObject.get? o = some b ↔
      ∃ b₀, m.byObject.get? o = some b₀ ∧ b = ⟨b₀.entity, asked o⟩ ∧
        b₀.entity ∉ w.entities.departed acts := by
    rw [hb.get?, hm.byObject, Option.map_eq_some_iff, hmem]
    constructor
    · intro hold
      obtain ⟨⟨b₀, hb₀, rfl⟩, hout⟩ := hold
      exact ⟨b₀, hb₀, rfl, hout⟩
    · intro hold
      obtain ⟨b₀, hb₀, rfl, hout⟩ := hold
      exact ⟨⟨b₀, hb₀, rfl⟩, hout⟩
  refine ⟨⟨?_, ?_, hb.linked, fun o b hob => ?_, fun o b hob => ?_⟩, fun past hpast => ?_, acts,
    ht.entities, fun x => ?_⟩
  · exact (World.takeHeard_leads v _).keeps hv ⟨hf.slots, hf.tables⟩
  · exact World.ears_takeHeard_self hears
  · obtain ⟨b₀, hb₀, rfl, hout⟩ := (hget o b).1 hob
    exact Bool.eq_false_iff.2 fun hask => hout (hasked o b₀ hb₀ hask)
  · obtain ⟨b₀, hb₀, rfl, hout⟩ := (hget o b).1 hob
    exact (ht.isAlive h.world hf (h.alive o b₀ hb₀)).resolve_right hout
  · exact hpast.buries hm hb
  · obtain ⟨o, e⟩ := x
    rw [begun_ends, mem_bindings_iff, mem_bindings_iff, or_iff_left List.not_mem_nil]
    constructor
    · intro hex
      obtain ⟨b, hob, rfl⟩ := hex
      obtain ⟨b₀, hb₀, rfl, hout⟩ := (hget o b).1 hob
      exact ⟨⟨b₀, hb₀, rfl⟩, hout⟩
    · intro hold
      obtain ⟨⟨b₀, hb₀, rfl⟩, hout⟩ := hold
      exact ⟨⟨b₀.entity, asked o⟩, (hget o _).2 ⟨b₀, hb₀, rfl, hout⟩, rfl⟩

theorem bind (h : Coherent m w) (ho : m.byObject.get? o = none) (hf : w.spawn.2.Fits) :
    Passes [.begun o w.spawn.1] m w (m.bind o w.spawn.1) w.spawn.2 := by
  have htells := World.spawn_tells w
  have hroom : w.entities.HasRoom := fun _ => ((World.spawn_grows w).fits hf).slots
  have hhandle : w.spawn.1 = w.entities.allocate.1 := by
    obtain ⟨_, _, _, hspawn⟩ := World.spawn_eq h.world
    exact congrArg Prod.fst hspawn
  have halive (e : Entity) : w.spawn.2.isAlive e = true ↔ e = w.spawn.1 ∨ w.isAlive e = true := by
    rw [World.isAlive, htells.entities, hhandle]
    exact Allocator.isAlive_allocate h.world.entities hroom e
  have hdead : w.isAlive w.spawn.1 = false := by
    rw [hhandle]
    exact Allocator.isAlive_allocate_fst h.world.entities hroom
  have hget (o' : ObjectId) (b : Binding) (hb : (m.bind o w.spawn.1).byObject.get? o' = some b) :
      b = ⟨w.spawn.1, false⟩ ∨ m.byObject.get? o' = some b := by
    rw [IdentityMap.bind, FinMap.get?_insert] at hb
    split at hb
    · exact .inl (Option.some.inj hb).symm
    · exact .inr hb
  refine ⟨⟨(World.spawn_leads w).keeps h.world hf, ?_, h.linked.bind_fresh h.alive o hdead,
    fun o' b hb => ?_, fun o' b hb => ?_⟩, fun past hpast => hpast.bind ho _, [.allocate],
    htells.entities, fun x => ?_⟩
  · rw [htells.ears, h.ears]
    rfl
  · obtain rfl | hold := hget o' b hb
    · rfl
    · exact h.idle o' b hold
  · obtain rfl | hold := hget o' b hb
    · exact (halive _).2 (.inl rfl)
    · exact (halive _).2 (.inr (h.alive o' b hold))
  · have hnone : w.entities.departed [.allocate] = [] := rfl
    have hbegun : [Entry.begun o w.spawn.1].filterMap Entry.begun? = [(o, w.spawn.1)] := rfl
    rw [bindings_bind ho, hnone, hbegun, and_iff_left List.not_mem_nil, List.mem_cons,
      List.mem_singleton, or_comm]

end Coherent

theorem Passes.trans (h : Passes news m w m' w') (h' : Passes news' m' w' m'' w'')
    (hnone : news'.filterMap Entry.begun? = []) : Passes (news ++ news') m w m'' w'' := by
  obtain ⟨acts, hrun, hmem⟩ := h.acts
  obtain ⟨acts', hrun', hmem'⟩ := h'.acts
  refine ⟨h'.coherent, fun past hpast => ?_, acts ++ acts', ?_, fun x => ?_⟩
  · rw [← List.append_assoc]
    exact h'.balanced _ (h.balanced past hpast)
  · rw [hrun', hrun, Allocator.run_append]
  · rw [hmem', hnone, or_iff_left List.not_mem_nil, hmem, List.filterMap_append, hnone,
      List.append_nil, Allocator.departed_append, ← hrun, List.mem_append, not_or, and_assoc,
      and_comm (a := x.2 ∉ w.entities.departed acts)]

theorem fits_settle : (m.settle w).2.Fits ↔ w.Fits :=
  ⟨fun h => ⟨h.slots, h.tables⟩, fun h => ⟨h.slots, h.tables⟩⟩

/-! ### The operations -/

/-- The entity of an object, a new one if it has none. -/
def ensured (m : IdentityMap) (w : World) (o : ObjectId) : Entity × IdentityMap × World :=
  match m.entityOf w o with
  | some e => (e, m, w)
  | none => (w.spawn.1, m.bind o w.spawn.1, w.spawn.2)

def begins (m : IdentityMap) (w : World) (o : ObjectId) : List Entry :=
  match m.entityOf w o with
  | some _ => []
  | none => [.begun o w.spawn.1]

/-- What ends when the host ends an object: it has asked for that object and for no other. -/
def endsOf (m : IdentityMap) (w : World) (o : ObjectId) : List Entry :=
  match m.byObject.get? o with
  | none => []
  | some b => m.ends (w.despawn b.entity).2.deaths fun x => x = o

def resolver (m : IdentityMap) (w : World) (r : EntityRecord) (o : ObjectId) : Option Entity :=
  ((r.pairTargets.filterMap fun t => (m.entityOf w t).map fun e => (t, e)).find?
    fun p => p.1 == o).map Prod.snd

theorem destroyed_eq (ho : m.byObject.get? o = some b) (hidle : b.destroying = false)
    (halive : w.isAlive b.entity = true) : m.destroyed w o =
    (true, IdentityMap.settle
      { m with byObject := m.byObject.insert o { b with destroying := true } }
      (w.despawn b.entity).2) := by
  have hdied : (w.despawn b.entity).1 = true := by
    rw [World.despawn, if_pos halive]
  simp only [IdentityMap.destroyed, ho, hidle, hdied]
  rfl

namespace Coherent

theorem entityOf_eq_some (h : Coherent m w) :
    m.entityOf w o = some e ↔ ∃ b, m.byObject.get? o = some b ∧ b.entity = e := by
  rw [entityOf]
  cases hb : m.byObject.get? o with
  | none => simp
  | some b => simp [h.idle o b hb, h.alive o b hb]

theorem entityOf_eq_none (h : Coherent m w) :
    m.entityOf w o = none ↔ m.byObject.get? o = none := by
  rw [entityOf]
  cases hb : m.byObject.get? o with
  | none => simp
  | some b => simp [h.idle o b hb, h.alive o b hb]

theorem heed_none (h : Coherent m w) (hv : w.Informs v) (hf : v.Fits) :
    Passes (m.ends v.deaths fun _ => false) m w (m.settle v).1 (m.settle v).2 := by
  obtain ⟨acts, hacts⟩ := hv.tells h.world hf
  exact h.heed (.refl h.idle) hacts (hv.leads.keeps h.world hf) hf fun _ _ _ => nofun

theorem ensured (h : Coherent m w) (hf : (m.ensured w o).2.2.Fits) :
    Passes (m.begins w o) m w (m.ensured w o).2.1 (m.ensured w o).2.2 := by
  unfold IdentityMap.ensured at hf ⊢
  unfold begins
  cases he : m.entityOf w o with
  | some e => exact h.passes
  | none =>
    simp only [he] at hf
    exact h.bind (h.entityOf_eq_none.1 he) hf

theorem destroyed (h : Coherent m w) (hf : (m.destroyed w o).2.2.Fits) :
    Passes (m.endsOf w o) m w (m.destroyed w o).2.1 (m.destroyed w o).2.2 := by
  rw [endsOf]
  cases ho : m.byObject.get? o with
  | none =>
    have hsame : m.destroyed w o = (false, m, w) := by simp only [IdentityMap.destroyed, ho]
    rw [hsame]
    exact h.passes
  | some b =>
    rw [destroyed_eq ho (h.idle o b ho) (h.alive o b ho)] at hf ⊢
    have hv := World.wide_informs.despawn w b.entity
    have hfit := fits_settle.1 hf
    obtain ⟨acts, hacts⟩ := hv.tells h.world hfit
    refine h.heed (.insert h.idle ho) hacts (hv.leads.keeps h.world hfit) hfit ?_
    intro o' b' hb' hask
    obtain rfl := of_decide_eq_true hask
    rw [ho] at hb'
    obtain rfl := Option.some.inj hb'
    refine (hacts.isAlive h.world hfit (h.alive o' b ho)).resolve_left fun hlive => ?_
    rw [h.world.not_isAlive_despawn hfit] at hlive
    cases hlive

theorem teardown (h : Coherent m w) (hf : w.shutdown.Fits) :
    Passes (m.ends w.shutdown.deaths fun _ => true) m w (m.beginShutdown.settle w.shutdown).1
      (m.beginShutdown.settle w.shutdown).2 := by
  refine h.heed (.beginShutdown m) (World.shutdown_tells w) h.world.shutdown hf fun o b hb _ => ?_
  exact List.mem_reverse.2 ((Allocator.mem_live h.world.entities).2 (h.alive o b hb))

theorem act (h : Coherent m w) {op : Operation} (hop : op.Ordinary) (hf : (w.perform op).Fits) :
    Passes (m.ends (w.perform op).deaths fun _ => false) m w (m.settle (w.perform op)).1
      (m.settle (w.perform op)).2 := by
  obtain ⟨acts, hacts⟩ := h.world.perform_tells hop hf
  exact h.heed (.refl h.idle) hacts (h.world.perform op hf) hf fun _ _ _ => nofun

end Coherent

theorem spawn_eq (m : IdentityMap) (w : World) (o : ObjectId) :
    (m.spawn w o).2 = (m.ensured w o).2 := by
  unfold spawn ensured
  cases m.entityOf w o <;> rfl

theorem attach_eq (m : IdentityMap) (w : World) {child parent : ObjectId} {p : Entity}
    (hp : m.entityOf w parent = some p) : (m.attach w child parent).2 =
      ((m.ensured w child).2.1, ((m.ensured w child).2.2.setParent (m.ensured w child).1 p).2) := by
  unfold attach spawn ensured
  simp only [hp]
  cases he : m.entityOf w child with
  | none =>
    simp only [Option.isSome_none, if_neg Bool.false_ne_true]
    obtain ⟨result, v⟩ := w.spawn.2.setParent w.spawn.1 p
    cases result <;> rfl
  | some c =>
    dsimp only
    obtain ⟨result, v⟩ := w.setParent c p
    cases result <;> rfl

theorem created_eq (m : IdentityMap) (w : World) {o : ObjectId} {r : EntityRecord}
    (hr : r.participates w.registry = true) (ho : m.entityOf w o = none)
    {x : Except BridgeError Unit × World}
    (hx : r.apply (m.resolver w r) w.spawn.1 w.spawn.2 = x) :
    (m.created w o r).2 =
      match x.1 with
      | .ok () => (m.bind o w.spawn.1).settle x.2
      | .error _ => (((m.bind o w.spawn.1).settle x.2).1.destroyed
          ((m.bind o w.spawn.1).settle x.2).2 o).2 := by
  have hspawn : m.spawn w o = (.ok w.spawn.1, m.bind o w.spawn.1, w.spawn.2) := by
    rw [spawn, ho]
    rfl
  unfold resolver at hx
  simp only [created, hr, hspawn, hx, Bool.not_true, if_neg Bool.false_ne_true]
  obtain ⟨result, v⟩ := x
  cases result <;> rfl

theorem created_refused (m : IdentityMap) (w : World) {o : ObjectId} {r : EntityRecord}
    (hc : ¬ (r.participates w.registry && (m.entityOf w o).isNone) = true) :
    (m.created w o r).2 = (m, w) := by
  unfold created spawn
  cases hr : r.participates w.registry with
  | false => rfl
  | true =>
    rw [hr, Bool.true_and, Bool.not_eq_true, Option.isNone_eq_false_iff] at hc
    simp only [hc, Bool.not_true, if_neg Bool.false_ne_true, if_true]

theorem destroyed_grows (m : IdentityMap) (w : World) (o : ObjectId) :
    w.Grows (m.destroyed w o).2.2 := by
  unfold destroyed
  split
  · exact .refl w
  · next b _ =>
    split
    · exact .refl w
    · exact (World.throughout_leads.despawn w b.entity).grows.trans
        (World.takeHeard_leads _ _).grows

theorem apply_fits {r : EntityRecord} (hr : r.participates w.registry = true)
    (ho : m.entityOf w o = none) (hf : (m.created w o r).2.2.Fits) :
    (r.apply (m.resolver w r) w.spawn.1 w.spawn.2).2.Fits := by
  rw [created_eq m w hr ho rfl] at hf
  split at hf
  · exact fits_settle.1 hf
  · exact fits_settle.1 ((destroyed_grows _ _ o).fits hf)

theorem begun_endsOf (m : IdentityMap) (w : World) (o : ObjectId) :
    (m.endsOf w o).filterMap Entry.begun? = [] := by
  unfold endsOf
  split
  · rfl
  · exact begun_ends m _ _

/-! ### What the map shows -/

theorem state_eq_unbound : m.state o = .unbound ↔ m.byObject.get? o = none := by
  unfold state
  cases m.byObject.get? o with
  | none => simp
  | some b => cases hd : b.destroying <;> simp [hd]

theorem destroyed_of_unbound (ho : m.state o = .unbound) : m.destroyed w o = (false, m, w) := by
  simp only [destroyed, state_eq_unbound.1 ho]

namespace Coherent

theorem state_eq_bound (h : Coherent m w) :
    m.state o = .bound e ↔ ∃ b, m.byObject.get? o = some b ∧ b.entity = e := by
  unfold state
  cases hb : m.byObject.get? o with
  | none => simp
  | some b => simp [h.idle o b hb]

theorem state_ne_destroying (h : Coherent m w) : m.state o ≠ .destroying e := by
  unfold state
  cases hb : m.byObject.get? o with
  | none => nofun
  | some b => simp [h.idle o b hb]

end Coherent
end IdentityMap
end EntityWorld
