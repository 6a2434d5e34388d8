import EntityWorld.Proofs.Host.Coherence
set_option autoImplicit false

/-!
The life of host objects. Whatever a host does with its objects and with the world, its map and the
world agree afterwards, and each binding ends once, when its entity is released.
-/
namespace EntityWorld

namespace IdentityMap

variable {m m' : IdentityMap} {w w' : World} {o : ObjectId} {e : Entity} {past news : List Entry}

inductive Deed where
  | create (o : ObjectId) (r : EntityRecord)
  | spawn (o : ObjectId)
  | attach (child parent : ObjectId)
  | destroy (o : ObjectId)
  | act (op : Operation)
  | teardown

def Deed.run (m : IdentityMap) (w : World) : Deed → IdentityMap × World
  | .create o r => (m.created w o r).2.1.settle (m.created w o r).2.2
  | .spawn o => (m.spawn w o).2.1.settle (m.spawn w o).2.2
  | .attach child parent => (m.attach w child parent).2.1.settle (m.attach w child parent).2.2
  | .destroy o => (m.destroyed w o).2.1.settle (m.destroyed w o).2.2
  | .act op => m.settle (w.perform op)
  | .teardown => m.beginShutdown.settle w.shutdown

/-- Nothing about the listener of the map itself. -/
def Deed.Ordinary : Deed → Prop
  | .act op => op.Ordinary
  | _ => True

/-- What begins and ends by a deed. The host has asked for the end of what it destroys, of an
object whose record fails, and of all in a teardown, and for nothing else. -/
def Deed.entries (m : IdentityMap) (w : World) : Deed → List Entry
  | .create o r =>
    if r.participates w.registry && (m.entityOf w o).isNone then
      let n := m.bind o w.spawn.1
      let x := r.apply (m.resolver w r) w.spawn.1 w.spawn.2
      .begun o w.spawn.1 :: n.ends x.2.deaths (fun _ => false) ++
        match x.1 with
        | .ok () => []
        | .error _ => (n.settle x.2).1.endsOf (n.settle x.2).2 o
    else []
  | .spawn o => m.begins w o
  | .attach child parent =>
    match m.entityOf w parent with
    | none => []
    | some p =>
      let (c, n, v) := m.ensured w child
      m.begins w child ++ n.ends (v.setParent c p).2.deaths fun _ => false
  | .destroy o => m.endsOf w o
  | .act op => m.ends (w.perform op).deaths fun _ => false
  | .teardown => m.ends w.shutdown.deaths fun _ => true

namespace Coherent

theorem created (h : Coherent m w) {r : EntityRecord} (hf : (m.created w o r).2.2.Fits) :
    Passes (Deed.entries m w (.create o r)) m w (m.created w o r).2.1 (m.created w o r).2.2 := by
  rw [Deed.entries]
  split
  · next hc =>
    obtain ⟨hr, ho⟩ := Bool.and_eq_true_iff.1 hc
    rw [Option.isNone_iff_eq_none] at ho
    obtain ⟨x, hx⟩ : ∃ x, r.apply (m.resolver w r) w.spawn.1 w.spawn.2 = x := ⟨_, rfl⟩
    have hv : w.spawn.2.Informs x.2 := by
      rw [← hx]
      exact EntityRecord.wide_apply World.wide_informs _ r _ _
    have hbound (hfit : x.2.Fits) := h.bind (h.entityOf_eq_none.1 ho) (hv.leads.grows.fits hfit)
    have happlied (hfit : x.2.Fits) :=
      (hbound hfit).trans ((hbound hfit).coherent.heed_none hv hfit) (begun_ends _ _ _)
    rw [created_eq m w hr ho hx] at hf ⊢
    simp only [hx]
    cases hresult : x.1 with
    | ok _ =>
      rw [hresult] at hf
      exact (List.append_nil _).symm ▸ happlied (fits_settle.1 hf)
    | error _ =>
      rw [hresult] at hf
      have hsettled := happlied (fits_settle.1 ((destroyed_grows _ _ o).fits hf))
      exact hsettled.trans (hsettled.coherent.destroyed hf) (begun_endsOf _ _ o)
  · next hc =>
    rw [created_refused m w hc]
    exact h.passes

theorem attach (h : Coherent m w) {child parent : ObjectId}
    (hf : (m.attach w child parent).2.2.Fits) : Passes (Deed.entries m w (.attach child parent)) m w
      ((m.attach w child parent).2.1.settle (m.attach w child parent).2.2).1
      ((m.attach w child parent).2.1.settle (m.attach w child parent).2.2).2 := by
  rw [Deed.entries]
  cases hp : m.entityOf w parent with
  | none =>
    have hsame : (m.attach w child parent).2 = (m, w) := by simp only [IdentityMap.attach, hp]
    rw [hsame, h.settle_self]
    exact h.passes
  | some p =>
    rw [attach_eq m w hp] at hf ⊢
    have hv := World.wide_informs.setParent (m.ensured w child).2.2 (m.ensured w child).1 p
    have hensured := h.ensured (hv.leads.grows.fits hf)
    exact hensured.trans (hensured.coherent.heed_none hv hf) (begun_ends _ _ _)

end Coherent

theorem Deed.passes (d : Deed) (h : Coherent m w) (hd : d.Ordinary) (hf : (d.run m w).2.Fits) :
    Passes (d.entries m w) m w (d.run m w).1 (d.run m w).2 := by
  have hself {m' : IdentityMap} {w' : World} {news : List Entry} (hp : Passes news m w m' w') :
      Passes news m w (m'.settle w').1 (m'.settle w').2 := by
    rwa [hp.coherent.settle_self]
  cases d with
  | create o r => exact hself (h.created (fits_settle.1 hf))
  | spawn o =>
    have hf := fits_settle.1 hf
    refine hself ?_
    rw [spawn_eq] at hf ⊢
    exact h.ensured hf
  | attach child parent => exact h.attach (fits_settle.1 hf)
  | destroy o => exact hself (h.destroyed (fits_settle.1 hf))
  | act op => exact h.act hd (fits_settle.1 hf)
  | teardown => exact h.teardown (fits_settle.1 hf)

/-! ### All deeds -/

/-- What has become of all bindings, the map and the world, some deeds after the map was
installed. -/
inductive Lived : List Entry → IdentityMap → World → Prop where
  | install {w : World} : w.Reachable → w.ears = [] → Lived [] .empty (w.listen .identityMap)
  | deed {past : List Entry} {m : IdentityMap} {w : World} (d : Deed) : Lived past m w →
      d.Ordinary → (d.run m w).2.Fits →
      Lived (past ++ d.entries m w) (d.run m w).1 (d.run m w).2

theorem linked_empty : Linked .empty := ⟨fun _ _ => nofun, fun _ _ => nofun⟩

theorem Lived.coherent (h : Lived past m w) : Coherent m w ∧ Balanced past m := by
  induction h with
  | @install w hw hears =>
    refine ⟨⟨hw.wellFormed.perform (.listen .identityMap) ⟨hw.fits.slots, hw.fits.tables⟩, ?_,
      linked_empty, fun _ _ => nofun, fun _ _ => nofun⟩, rfl, rfl, .nil, rfl, .nil⟩
    have hlisten : (w.listen .identityMap).ears = w.ears ++ [⟨.identityMap, []⟩] :=
      List.filter_append _ _
    rw [hlisten, hears, List.nil_append]
  | deed d _ hd hf ih =>
    have hpasses := d.passes ih.1 hd hf
    exact ⟨hpasses.coherent, hpasses.balanced _ ih.2⟩

/-- An object has lost its entity, and neither can be ended again. -/
structure Gone (o : ObjectId) (e : Entity) (m : IdentityMap) (w : World) : Prop where
  unbound : m.state o = .unbound
  dead : w.isAlive e = false
  destroyed : m.destroyed w o = (false, m, w)
  despawn : w.despawn e = (false, w)

/-- The map tells the truth about the world, and about what has become of all bindings. -/
structure Exact (past : List Entry) (m : IdentityMap) (w : World) : Prop where
  inverse : ∀ o e, m.state o = .bound e ↔ m.objectOf e = some o
  alive : ∀ o e, m.objectOf e = some o → w.isAlive e = true
  entityOf : ∀ o e, m.entityOf w o = some e ↔ m.objectOf e = some o
  idle : ∀ o e, m.state o ≠ .destroying e
  unique : ∀ o e e', m.objectOf e = some o → m.objectOf e' = some o → e = e'
  count : m.boundCount + m.stats.unbound = m.stats.bound
  bindings : m.bindings.Nodup ∧ ∀ o e, (o, e) ∈ m.bindings ↔ m.objectOf e = some o
  once : (past.filterMap Entry.begun?).Perm (m.bindings ++ past.filterMap Entry.ended?)
  bound : m.stats.bound = (past.filterMap Entry.begun?).length
  ended : m.stats.unbound = (past.filterMap Entry.ended?).length
  told : m.notices.Perm (past.filterMap Entry.unasked?)
  externalDeletes : m.stats.externalDeletes = m.notices.length
  next : ∀ d : Deed, d.Ordinary → (d.run m w).2.Fits → ∃ acts,
    (d.run m w).2.entities = w.entities.run acts ∧ ∀ x, x ∈ (d.run m w).1.bindings ↔
      (x ∈ m.bindings ∨ x ∈ (d.entries m w).filterMap Entry.begun?) ∧
        x.2 ∉ w.entities.departed acts
  destroyed : ∀ o e, m.state o = .bound e → (m.destroyed w o).2.2.Fits →
    (m.destroyed w o).1 = true ∧ Gone o e (m.destroyed w o).2.1 (m.destroyed w o).2.2
  despawned : ∀ o e, m.state o = .bound e → (w.despawn e).2.Fits → (w.despawn e).1 = true ∧
    Gone o e (m.settle (w.despawn e).2).1 (m.settle (w.despawn e).2).2
  unbound : ∀ o, m.state o = .unbound → m.destroyed w o = (false, m, w)
  dead : ∀ e, w.isAlive e = false → w.despawn e = (false, w) ∧ m.settle w = (m, w)

namespace Coherent

theorem gone (h : Coherent m w) (hp : Passes news m w m' w')
    (hnone : news.filterMap Entry.begun? = []) (ho : m.state o = .bound e)
    (hdead : w'.isAlive e = false) : Gone o e m' w' := by
  have hunbound : m'.state o = .unbound := by
    rw [state_eq_unbound, Option.eq_none_iff_forall_ne_some]
    intro b hb
    obtain ⟨acts, -, hmem⟩ := hp.acts
    have hold := ((hmem (o, b.entity)).1 (mem_bindings_iff.2 ⟨b, hb, rfl⟩)).1
    rw [hnone, or_iff_left List.not_mem_nil, mem_bindings_iff] at hold
    have hsame : b.entity = e := by
      have hbound := h.state_eq_bound.2 hold
      rw [ho] at hbound
      exact (BindingState.bound.inj hbound).symm
    rw [← hsame, hp.coherent.alive o b hb] at hdead
    cases hdead
  refine ⟨hunbound, hdead, destroyed_of_unbound hunbound, ?_⟩
  rw [World.despawn, hdead, if_neg Bool.false_ne_true]

theorem gone_destroyed (h : Coherent m w) (ho : m.state o = .bound e)
    (hf : (m.destroyed w o).2.2.Fits) : (m.destroyed w o).1 = true ∧
      Gone o e (m.destroyed w o).2.1 (m.destroyed w o).2.2 := by
  have hp := h.destroyed hf
  obtain ⟨b, hb, rfl⟩ := h.state_eq_bound.1 ho
  have heq := destroyed_eq hb (h.idle o b hb) (h.alive o b hb)
  refine ⟨by rw [heq], h.gone hp (begun_endsOf m w o) ho ?_⟩
  rw [heq] at hf ⊢
  exact h.world.not_isAlive_despawn (fits_settle.1 hf)

theorem gone_despawned (h : Coherent m w) (ho : m.state o = .bound e)
    (hf : (w.despawn e).2.Fits) : (w.despawn e).1 = true ∧
      Gone o e (m.settle (w.despawn e).2).1 (m.settle (w.despawn e).2).2 := by
  have hp := h.heed_none (World.wide_informs.despawn w e) hf
  obtain ⟨b, hb, rfl⟩ := h.state_eq_bound.1 ho
  refine ⟨by rw [World.despawn, if_pos (h.alive o b hb)], h.gone hp (begun_ends m _ _) ho ?_⟩
  exact h.world.not_isAlive_despawn hf

theorem exact (h : Coherent m w) (hb : Balanced past m) : Exact past m w where
  inverse o e := by rw [h.state_eq_bound, h.linked.objectOf_iff]
  alive o e he := by
    obtain ⟨b, hob, rfl⟩ := h.linked.objectOf_iff.1 he
    exact h.alive o b hob
  entityOf o e := by rw [h.entityOf_eq_some, h.linked.objectOf_iff]
  idle _ _ := h.state_ne_destroying
  unique o e e' he he' := by
    obtain ⟨b, hob, rfl⟩ := h.linked.objectOf_iff.1 he
    obtain ⟨b', hob', rfl⟩ := h.linked.objectOf_iff.1 he'
    rw [hob] at hob'
    rw [Option.some.inj hob']
  count := by
    have hlength := hb.once.length_eq
    rw [List.length_append, ← hb.bound, ← hb.unbound, IdentityMap.bindings, List.length_map]
      at hlength
    exact hlength.symm
  bindings := by
    refine ⟨.of_map Prod.fst ?_, fun o e => ?_⟩
    · rw [IdentityMap.bindings, List.map_map]
      exact m.byObject.nodup_keys
    · rw [mem_bindings_iff, h.linked.objectOf_iff]
  once := hb.once
  bound := hb.bound
  ended := hb.unbound
  told := hb.notices
  externalDeletes := hb.external
  next d hd hf := (d.passes h hd hf).acts
  destroyed _ _ := h.gone_destroyed
  despawned _ _ := h.gone_despawned
  unbound _ := destroyed_of_unbound
  dead e he := ⟨by rw [World.despawn, he, if_neg Bool.false_ne_true], h.settle_self⟩

end Coherent

/-- Whatever the host does with its objects and the world, in whatever order. -/
theorem Lived.map_exact (h : Lived past m w) : Exact past m w := h.coherent.1.exact h.coherent.2

def Deed.after (x : List Entry × IdentityMap × World) (d : Deed) :
    List Entry × IdentityMap × World :=
  (x.1 ++ d.entries x.2.1 x.2.2, d.run x.2.1 x.2.2)

def FitsAlong (x : List Entry × IdentityMap × World) : List Deed → Prop
  | [] => True
  | d :: rest => (d.after x).2.2.Fits ∧ FitsAlong (d.after x) rest

instance decidableFitsAlong (x : List Entry × IdentityMap × World) :
    (ds : List Deed) → Decidable (FitsAlong x ds)
  | [] => .isTrue trivial
  | d :: rest =>
    have := decidableFitsAlong (d.after x) rest
    inferInstanceAs (Decidable ((d.after x).2.2.Fits ∧ FitsAlong (d.after x) rest))

theorem Lived.foldl {x : List Entry × IdentityMap × World} {ds : List Deed}
    (h : Lived x.1 x.2.1 x.2.2) (hds : ∀ d ∈ ds, d.Ordinary) (hf : FitsAlong x ds) :
    Lived (ds.foldl Deed.after x).1 (ds.foldl Deed.after x).2.1 (ds.foldl Deed.after x).2.2 := by
  induction ds generalizing x with
  | nil => exact h
  | cons d rest ih =>
    exact ih (h.deed d (hds d List.mem_cons_self) hf.1)
      (fun d hd => hds d (List.mem_cons_of_mem _ hd)) hf.2

/-- A child dies with its parent, an object is created in vain and another one for good, that one
is ended twice, and two worlds come to their end, the second one announced. -/
def lives : List Deed :=
  [.spawn ⟨10⟩, .attach ⟨11⟩ ⟨10⟩, .create ⟨12⟩ (.default ⟨1⟩ (.pair ⟨1⟩ ⟨99⟩ .nil)),
    .create ⟨13⟩ (.pair ⟨1⟩ ⟨11⟩ (.sub "mast" (.default ⟨1⟩ .nil) .nil)), .act (.despawn ⟨4, 0⟩),
    .destroy ⟨13⟩, .destroy ⟨13⟩, .spawn ⟨14⟩, .act .shutdown, .spawn ⟨15⟩, .teardown, .spawn ⟨16⟩]

def saga : List Entry × IdentityMap × World :=
  lives.foldl Deed.after ([], .empty, World.family.listen .identityMap)

theorem lived_saga : Lived saga.1 saga.2.1 saga.2.2 := by
  have hstart : Lived [] .empty (World.family.listen .identityMap) :=
    .install World.reachable_family (by decide +kernel)
  refine hstart.foldl (fun d hd => ?_) (by decide +kernel)
  simp only [lives, List.mem_cons, List.not_mem_nil, or_false] at hd
  obtain rfl | rfl | rfl | rfl | rfl | rfl | rfl | rfl | rfl | rfl | rfl | rfl := hd <;> trivial

theorem map_exact_saga :
    saga.1.filterMap Entry.unasked? = [(⟨11⟩, ⟨5, 0⟩), (⟨10⟩, ⟨4, 0⟩), (⟨14⟩, ⟨7, 1⟩)] ∧
      saga.2.1.bindings = [(⟨16⟩, ⟨7, 3⟩)] ∧ Lived saga.1 saga.2.1 saga.2.2 ∧
      Exact saga.1 saga.2.1 saga.2.2 :=
  ⟨by decide +kernel, by decide +kernel, lived_saga, lived_saga.map_exact⟩

end IdentityMap
end EntityWorld
