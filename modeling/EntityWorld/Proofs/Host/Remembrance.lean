import EntityWorld.Host.Bridge
import EntityWorld.Proofs.Host.Coherence
import EntityWorld.Proofs.Replication.Memory
import EntityWorld.Proofs.Schedule.Survival
set_option autoImplicit false

/-!
What a bridge remembers of the dead. Whatever is remembered for replication belongs to a live
entity, as long as no module ends an entity that something is remembered of while it loads or
unloads, and no such entity ends with the one that is taken back when an object cannot be created:
nothing is looked through after these operations, and after all others nothing is left to be found.
-/
namespace EntityWorld

open World (LosesNone furnishing_losesNone)

theorem World.losesNone_despawn {w : World} {e : Entity} (h : (w.despawn e).1 = false) :
    w.LosesNone (w.despawn e).2 := by
  unfold World.despawn at h ⊢
  split
  · next he =>
    rw [if_pos he] at h
    cases h
  · exact furnishing_losesNone.refl w

namespace IdentityMap

variable {m m' : IdentityMap} {w v : World} {o : ObjectId}

theorem losesNone_ensured (m : IdentityMap) (w : World) (o : ObjectId) :
    w.LosesNone (m.ensured w o).2.2 := by
  unfold ensured
  split
  · exact furnishing_losesNone.refl w
  · exact furnishing_losesNone.spawn w

theorem losesNone_attach (m : IdentityMap) (w : World) (child parent : ObjectId) :
    w.LosesNone (m.attach w child parent).2.2 := by
  cases hp : m.entityOf w parent with
  | none =>
    have hsame : (m.attach w child parent).2 = (m, w) := by simp only [attach, hp]
    rw [hsame]
    exact furnishing_losesNone.refl w
  | some p =>
    rw [attach_eq m w hp]
    exact furnishing_losesNone.trans (losesNone_ensured m w child)
      (furnishing_losesNone.setParent _ _ p)

theorem losesNone_created {r : EntityRecord} {made : Option Entity}
    (hr : m.created w o r = (.ok made, m', v)) : w.LosesNone v := by
  unfold created at hr
  split at hr
  · obtain ⟨-, -, rfl⟩ := (Prod.mk.inj hr).imp_right Prod.mk.inj
    exact furnishing_losesNone.refl w
  · simp only at hr
    split at hr
    · cases (Prod.mk.inj hr).1
    · next e n u hspawn =>
      have hspawned : w.LosesNone u := by
        have hensured := losesNone_ensured m w o
        rw [← spawn_eq, hspawn] at hensured
        exact hensured
      split at hr
      · next t hrecord =>
        obtain ⟨-, -, rfl⟩ := (Prod.mk.inj hr).imp_right Prod.mk.inj
        have happlied := EntityRecord.furnishing_apply _ furnishing_losesNone hrecord
        exact furnishing_losesNone.trans hspawned happlied
      · cases (Prod.mk.inj hr).1

theorem destroyed_cases (m : IdentityMap) (w : World) (o : ObjectId) :
    (∃ e, m.state o = .bound e ∧ (m.destroyed w o).1 = true) ∨ m.destroyed w o = (false, m, w) := by
  unfold destroyed state
  cases m.byObject.get? o with
  | none => exact .inr rfl
  | some b =>
    cases hb : b.destroying with
    | true => exact .inr (by simp only [hb, if_true])
    | false => exact .inl ⟨b.entity, by simp [hb], by simp [hb]⟩

end IdentityMap

namespace Bridge

variable {Note : Type} {b : Bridge Note}

/-- Whatever is remembered belongs to a live entity. -/
def Current (b : Bridge Note) : Prop :=
  ∀ e, b.replicator.Remembers e → b.world.isAlive e = true

/-- A use of a bridge: an operation of its own, or of the replicator that it hands out. -/
inductive Act (Note : Type) where
  | registerType (d : TypeDescription)
  | spawn
  | destroy (e : Entity)
  | add (e : Entity) (h : TypeHandle) (value : Option ComponentValue)
  | set (e : Entity) (h : TypeHandle) (t : HostType) (v : Value)
  | remove (e : Entity) (h : TypeHandle)
  | get (e : Entity) (h : TypeHandle) (t : HostType)
  | getValue (e : Entity) (h : TypeHandle)
  | createObject (o : ObjectId) (r : EntityRecord)
  | spawnObject (o : ObjectId)
  | attach (child parent : ObjectId)
  | destroyObject (o : ObjectId)
  | registerSystem (sys : SystemBuilder Note)
  | unregisterSystem (h : SystemHandle)
  | tick (phase : Phase) (delta : UInt32)
  | progress (delta : UInt32)
  | loadModule (m : Module Note)
  | unloadModule (name : String)
  | snapshot (e : Entity) (components : List TypeHandle)
  | snapshotAll (e : Entity)
  | snapshotDelta (e : Entity)
  | applySnapshot (e : Entity) (bytes : Bytes)
  | shutdown
  | markLocalWrite (e : Entity) (h : TypeHandle)
  | writeLocal (e : Entity) (h : TypeHandle) (t : HostType) (v : Value)
  | callIds (c : NetworkIds.Call)
  | forget (e : Entity)

def act (b : Bridge Note) : Act Note → Bridge Note
  | .registerType d => (b.registerType d).2
  | .spawn => b.spawn.2
  | .destroy e => (b.destroy e).2
  | .add e h value => (b.add e h value).2
  | .set e h t v => (b.set e h t v).2
  | .remove e h => (b.remove e h).2
  | .get e h t => (b.get e h t).2
  | .getValue e h => (b.getValue e h).2
  | .createObject o r => (b.createObject o r).2
  | .spawnObject o => (b.spawnObject o).2
  | .attach child parent => (b.attach child parent).2
  | .destroyObject o => (b.destroyObject o).2
  | .registerSystem sys => (b.registerSystem sys).2
  | .unregisterSystem h => (b.unregisterSystem h).2
  | .tick phase delta => (b.tick phase delta).2
  | .progress delta => (b.progress delta).2
  | .loadModule m => (b.loadModule m).2.2
  | .unloadModule name => (b.unloadModule name).2.2
  | .snapshot e components => (b.snapshot e components).2
  | .snapshotAll e => (b.snapshotAll e).2
  | .snapshotDelta e => (b.snapshotDelta e).2
  | .applySnapshot e bytes => (b.applySnapshot e bytes).2
  | .shutdown => b.shutdown.2
  | .markLocalWrite e h => (b.onReplicator fun p w => ((), p.markLocalWrite e h, w)).2
  | .writeLocal e h t v => (b.onReplicator fun p w => p.writeLocal w e h t v).2
  | .callIds c => (b.onReplicator fun p w => ((), { p with ids := p.ids.call c }, w)).2
  | .forget e => (b.onReplicator fun p w => ((), p.forget e, w)).2

def run (b : Bridge Note) (acts : List (Act Note)) : Bridge Note := acts.foldl act b

/-- Local writes are marked, and ids given, for live entities alone. -/
def Act.Heedful (b : Bridge Note) : Act Note → Prop
  | .markLocalWrite e _ => b.world.isAlive e = true
  | .callIds c => ∀ e, c.bound? = some e → b.world.isAlive e = true
  | _ => True

/-- Entities may end in it, and what is remembered is not looked through afterwards. -/
def Act.Unswept (b : Bridge Note) : Act Note → Prop
  | .createObject o r => ∃ err, (b.createObject o r).1 = .error err
  | .loadModule _ | .unloadModule _ => True
  | _ => False

/-! ### One step -/

theorem current_new (config : BridgeConfig) : (Bridge.new config : Bridge Note).Current :=
  fun _ he => absurd he (Replicator.not_remembers_new _ _)

theorem current_forgetDead (b : Bridge Note) : b.forgetDead.Current :=
  fun _ he => (Replicator.remembers_retainAlive.1 he).2

namespace Current

theorem onWorld {α : Type} (h : b.Current) {f : World → α × World}
    (hf : b.world.LosesNone (f b.world).2) : (b.onWorld f).2.Current :=
  fun x hx => hf x (h x hx)

theorem onIdentities {α : Type} (h : b.Current) {f : IdentityMap → World → α × IdentityMap × World}
    (hf : b.world.LosesNone (f b.identities b.world).2.2) : (b.onIdentities f).2.Current :=
  fun x hx => hf x (h x hx)

theorem onReplicator {α : Type} (h : b.Current) {f : Replicator → World → α × Replicator × World}
    (hp : ∀ x, (f b.replicator b.world).2.1.Remembers x →
      b.replicator.Remembers x ∨ b.world.isAlive x = true)
    (hf : b.world.LosesNone (f b.replicator b.world).2.2) : (b.onReplicator f).2.Current :=
  fun x hx => hf x ((hp x hx).elim (h x) id)

theorem destroy (h : b.Current) (e : Entity) : (b.destroy e).2.Current := by
  unfold Bridge.destroy
  simp only
  split
  · exact current_forgetDead _
  · next hdied => exact h.onWorld (World.losesNone_despawn (Bool.eq_false_iff.2 hdied))

theorem add (h : b.Current) (e : Entity) (k : TypeHandle) (value : Option ComponentValue) :
    (b.add e k value).2.Current := by
  refine h.onWorld ?_
  cases value with
  | none => exact furnishing_losesNone.add b.world e _
  | some v =>
    simp only
    split
    · exact furnishing_losesNone.writeValue b.world e v
    · exact furnishing_losesNone.events b.world _

theorem createObject (h : b.Current) {o : ObjectId} {r : EntityRecord}
    (hs : ¬(Act.createObject o r).Unswept b) : (b.createObject o r).2.Current := by
  refine h.onIdentities ?_
  cases hr : b.identities.created b.world o r with
  | mk result mw =>
    obtain ⟨m, v⟩ := mw
    cases result with
    | error err => exact absurd ⟨err, congrArg Prod.fst hr⟩ hs
    | ok made => exact IdentityMap.losesNone_created hr

theorem destroyObject (h : b.Current) (o : ObjectId) : (b.destroyObject o).2.Current := by
  unfold Bridge.destroyObject
  obtain ⟨x, hstate, hended⟩ | hsame := b.identities.destroyed_cases b.world o
  · have hend : (b.onIdentities fun m w => m.destroyed w o).1 = true := hended
    simp only [hstate, hend]
    exact current_forgetDead _
  · have hend : (b.onIdentities fun m w => m.destroyed w o).1 = false := congrArg Prod.fst hsame
    have hkept : (b.onIdentities fun m w => m.destroyed w o).2.Current := by
      refine h.onIdentities ?_
      rw [hsame]
      exact furnishing_losesNone.refl b.world
    simp only [hend]
    cases b.identities.state o <;> exact hkept

theorem tick (h : b.Current) (phase : Phase) (delta : UInt32) :
    (b.tick phase delta).2.Current := by
  unfold Bridge.tick
  cases hr : b.scheduler.runPhase b.world phase delta with
  | mk result sw =>
    obtain ⟨s, v⟩ := sw
    cases result with
    | error err =>
      obtain ⟨-, rfl⟩ := Scheduler.runPhase_error hr
      exact h
    | ok report =>
      simp only
      split
      · exact current_forgetDead _
      · next hnone =>
        have hlost := Scheduler.losesNone_runPhase hr (Nat.eq_zero_of_not_pos hnone)
        exact fun x hx => hlost x (h x hx)

theorem progress (b : Bridge Note) (delta : UInt32) : (b.progress delta).2.Current := by
  obtain ⟨report, hok⟩ := b.scheduler.exists_progress_eq_ok b.world delta
  unfold Bridge.progress
  simp only [hok]
  exact current_forgetDead _

theorem shutdown (b : Bridge Note) : b.shutdown.2.Current :=
  fun _ hx => absurd hx (Replicator.not_remembers_new _ _)

theorem act_of_swept (h : b.Current) {a : Act Note} (ha : a.Heedful b) (hs : ¬a.Unswept b) :
    (b.act a).Current := by
  cases a with
  | registerType d =>
    refine h.onWorld ?_
    exact furnishing_losesNone.registerType b.world d
  | spawn => exact h.onWorld (furnishing_losesNone.spawn b.world)
  | destroy e => exact h.destroy e
  | add e k value => exact h.add e k value
  | set e k t v => exact h.onWorld (furnishing_losesNone.putTyped b.world e k t v .move)
  | remove e k => exact h.onWorld (furnishing_losesNone.remove b.world e _)
  | get e k t => exact h.onWorld (furnishing_losesNone.read b.world e k t)
  | getValue e k => exact h.onWorld (furnishing_losesNone.readValue b.world e _)
  | createObject o r => exact h.createObject hs
  | spawnObject o =>
    refine h.onIdentities ?_
    rw [IdentityMap.spawn_eq]
    exact IdentityMap.losesNone_ensured b.identities b.world o
  | attach child parent =>
    exact h.onIdentities (IdentityMap.losesNone_attach b.identities b.world child parent)
  | destroyObject o => exact h.destroyObject o
  | registerSystem sys => exact h
  | unregisterSystem k => exact h
  | tick phase delta => exact h.tick phase delta
  | progress delta => exact .progress b delta
  | loadModule m => exact absurd trivial hs
  | unloadModule name => exact absurd trivial hs
  | snapshot e ks => exact h.onWorld (furnishing_losesNone.snapshot b.world e ks)
  | snapshotAll e => exact h.onWorld (furnishing_losesNone.snapshot b.world e _)
  | snapshotDelta e =>
    refine h.onReplicator (fun x hx => ?_) (furnishing_losesNone.snapshotDelta _ b.world e)
    obtain hx | ⟨rfl, he⟩ := Replicator.remembers_snapshotDelta hx
    · exact .inl hx
    · exact .inr he
  | applySnapshot e bytes =>
    exact h.onReplicator (fun x hx => .inl (Replicator.remembers_apply hx))
      (furnishing_losesNone.apply _ b.world e bytes)
  | shutdown => exact .shutdown b
  | markLocalWrite e k =>
    refine h.onReplicator (fun x hx => ?_) (furnishing_losesNone.refl b.world)
    obtain hx | rfl := Replicator.remembers_markLocalWrite hx
    · exact .inl hx
    · exact .inr ha
  | writeLocal e k t v =>
    refine h.onReplicator (fun x hx => ?_) (furnishing_losesNone.writeLocal _ b.world e k t v)
    obtain hx | ⟨rfl, he⟩ := Replicator.remembers_writeLocal hx
    · exact .inl hx
    · exact .inr he
  | callIds c =>
    exact h.onReplicator (fun x hx => (Replicator.remembers_call hx).imp_right (ha x))
      (furnishing_losesNone.refl b.world)
  | forget e =>
    exact h.onReplicator (fun x hx => .inl (Replicator.remembers_forget hx))
      (furnishing_losesNone.refl b.world)

end Current

theorem replicator_act_of_unswept {a : Act Note} (h : a.Unswept b) :
    (b.act a).replicator = b.replicator := by
  cases a with
  | createObject | loadModule | unloadModule => rfl
  | _ => exact h.elim

theorem Current.act_iff (h : b.Current) {a : Act Note} (ha : a.Heedful b) :
    (b.act a).Current ↔
      (a.Unswept b → ∀ e, b.replicator.Remembers e → (b.act a).world.isAlive e = true) := by
  by_cases hs : a.Unswept b
  · rw [Current, replicator_act_of_unswept hs]
    exact ⟨fun hall _ => hall, fun hall => hall hs⟩
  · exact iff_of_true (h.act_of_swept ha hs) fun hs' => absurd hs' hs

/-! ### All steps -/

def HeedfulAlong (b : Bridge Note) (acts : List (Act Note)) : Prop :=
  ∀ before a, before ++ [a] <+: acts → a.Heedful (b.run before)

theorem HeedfulAlong.nil (b : Bridge Note) : HeedfulAlong b [] := by
  intro before a hb
  simp at hb

theorem HeedfulAlong.cons {a : Act Note} {acts : List (Act Note)} (ha : a.Heedful b)
    (h : HeedfulAlong (b.act a) acts) : HeedfulAlong b (a :: acts) := by
  intro before x hb
  cases before with
  | nil =>
    obtain ⟨rfl, -⟩ := List.cons_prefix_cons.1 hb
    exact ha
  | cons y rest =>
    obtain ⟨rfl, hrest⟩ := List.cons_prefix_cons.1 hb
    exact h rest x hrest

theorem run_concat (b : Bridge Note) (acts : List (Act Note)) (a : Act Note) :
    b.run (acts ++ [a]) = (b.run acts).act a := List.foldl_concat ..

/-- Along a run, whatever is remembered belongs to a live entity, exactly as long as nothing is
remembered of those who end while a module loads or unloads or with an object that cannot be
created. -/
theorem current_along_iff {config : BridgeConfig} {acts : List (Act Note)}
    (h : HeedfulAlong (.new config) acts) :
    (∀ before, before <+: acts → ((Bridge.new config).run before).Current) ↔
      ∀ before a, before ++ [a] <+: acts → a.Unswept ((Bridge.new config).run before) →
        ∀ e, ((Bridge.new config).run before).replicator.Remembers e →
          ((Bridge.new config).run (before ++ [a])).world.isAlive e = true := by
  constructor
  · intro hall before a hb hs
    have hcurrent := hall before ((List.prefix_append _ _).trans hb)
    have hafter := hall _ hb
    rw [run_concat] at hafter ⊢
    exact (hcurrent.act_iff (h before a hb)).1 hafter hs
  · intro hspared before hb
    induction before using List.reverseRecOn with
    | nil => exact current_new config
    | append_singleton before a ih =>
      have hcurrent := ih ((List.prefix_append _ _).trans hb)
      have hstep := hspared before a hb
      rw [run_concat] at hstep ⊢
      exact (hcurrent.act_iff (h before a hb)).2 hstep

/-! ### A reaper -/

def reaper : Module Unit where
  name := "reaper"
  dependencies := []
  load := .done (.ok ())
  unload w := ((w.despawn ⟨0, 0⟩).2, [])

/-- The first entity was sent, written locally and given an id before the reaper comes and goes. -/
def harvest : List (Act Unit) :=
  [.registerType ((TypeDescription.plain .hp "Game.Health").replicated (.raw .hp)), .spawn,
    .set ⟨0, 0⟩ ⟨1⟩ .hp (.plain [3, 0, 0, 0]), .snapshotDelta ⟨0, 0⟩, .markLocalWrite ⟨0, 0⟩ ⟨1⟩,
    .callIds (.allocate ⟨0, 0⟩), .loadModule reaper, .unloadModule "reaper"]

theorem heedfulAlong_harvest : HeedfulAlong (.new {}) harvest := by
  have hlast (b : Bridge Unit) : HeedfulAlong b [.loadModule reaper, .unloadModule "reaper"] :=
    .cons trivial (.cons trivial (.nil _))
  refine .cons trivial (.cons trivial (.cons trivial (.cons trivial
    (.cons ?_ (.cons ?_ (hlast _))))))
  · show World.isAlive _ _ = true
    decide +kernel
  · intro e he
    obtain rfl := Option.some.inj he
    decide +kernel

theorem current_along_harvest : HeedfulAlong (.new {}) harvest ∧
    ((∀ before, before <+: harvest → ((Bridge.new {}).run before).Current) ↔
      ∀ before a, before ++ [a] <+: harvest → a.Unswept ((Bridge.new {}).run before) →
        ∀ e, ((Bridge.new {}).run before).replicator.Remembers e →
          ((Bridge.new {}).run (before ++ [a])).world.isAlive e = true) :=
  ⟨heedfulAlong_harvest, current_along_iff heedfulAlong_harvest⟩

/-- The entity is dead, and all three things are still remembered of it. -/
theorem harvest_not_current : HeedfulAlong (.new {}) harvest ∧
    ((Bridge.new {}).run harvest).world.isAlive ⟨0, 0⟩ = false ∧
    (((Bridge.new {}).run harvest).replicator.baselines.get? ⟨0, 0⟩).isSome = true ∧
    ((Bridge.new {}).run harvest).replicator.hasLocalWrite ⟨0, 0⟩ ⟨1⟩ = true ∧
    ((Bridge.new {}).run harvest).replicator.ids.networkId? ⟨0, 0⟩ = some ⟨0⟩ ∧
    ¬((Bridge.new {}).run harvest).Current := by
  have hdead : ((Bridge.new {}).run harvest).world.isAlive ⟨0, 0⟩ = false := by decide +kernel
  have hmark : ((Bridge.new {}).run harvest).replicator.hasLocalWrite ⟨0, 0⟩ ⟨1⟩ = true := by
    decide +kernel
  refine ⟨heedfulAlong_harvest, hdead, by decide +kernel, hmark, by decide +kernel, fun h => ?_⟩
  have halive := h ⟨0, 0⟩ (.localWrite hmark)
  rw [hdead] at halive
  cases halive

end Bridge
end EntityWorld
