import EntityWorld.Proofs.World.Along
set_option autoImplicit false

/-!
Everything a host can do with a world, and the worlds that it can reach that way. All of them are
well formed, so in all of them entities, places and tables fit together.
-/
namespace EntityWorld

inductive Operation where
  | registerType (d : TypeDescription)
  | spawn
  | despawn (e : Entity)
  | edit (x : Edit)
  | ensureDefaultTyped (e : Entity) (h : TypeHandle) (t : HostType)
  | read (e : Entity) (h : TypeHandle) (t : HostType)
  | readValue (e : Entity) (id : Id)
  | overwrite (e : Entity) (id : Id) (v : Value)
  | rowSet (r : Row) (h : TypeHandle) (t : HostType) (v : Value)
  | addPair (e : Entity) (relation : TypeHandle) (target : Entity)
  | removePair (e : Entity) (relation : TypeHandle) (target : Entity)
  | setParent (child parent : Entity)
  | setName (e : Entity) (name : String)
  | applyCommands (b : CommandBuffer)
  | listen (s : Subscriber)
  | takeHeard (s : Subscriber)
  | note (events : List HookEvent)
  | takeEvents
  | shutdown

/-- Neither a buffer of commands nor the end of everything. -/
def Operation.Plain : Operation → Prop
  | .applyCommands _ | .shutdown => False
  | _ => True

/-- Nothing about listeners. -/
def Operation.Deaf : Operation → Prop
  | .listen _ | .takeHeard _ => False
  | _ => True

/-- No entity ends by it, and it is not about listeners. -/
def Operation.Sparing : Operation → Prop
  | .despawn _ | .listen _ | .takeHeard _ | .applyCommands _ | .shutdown => False
  | _ => True

theorem Operation.Sparing.plain {op : Operation} (h : op.Sparing) : op.Plain := by
  cases op with
  | applyCommands | shutdown => exact h
  | _ => trivial

theorem Operation.Sparing.deaf {op : Operation} (h : op.Sparing) : op.Deaf := by
  cases op with
  | listen | takeHeard => exact h
  | _ => trivial

theorem Operation.Plain.single {op : Operation} (h : op.Plain) (b : CommandBuffer) :
    op ≠ .applyCommands b := by
  intro hop
  subst hop
  exact h

def World.perform (w : World) : Operation → World
  | .registerType d => (w.registerType d).2
  | .spawn => w.spawn.2
  | .despawn e => (w.despawn e).2
  | .edit x => (x.run w).2
  | .ensureDefaultTyped e h t => (w.ensureDefaultTyped e h t).2
  | .read e h t => (w.read e h t).2
  | .readValue e id => (w.readValue e id).2
  | .overwrite e id v => w.overwrite e id v
  | .rowSet r h t v => (w.rowSet r h t v).2
  | .addPair e relation target => (w.addPair e relation target).2
  | .removePair e relation target => (w.removePair e relation target).2
  | .setParent child parent => (w.setParent child parent).2
  | .setName e name => (w.setName e name).2
  | .applyCommands b => (w.applyCommands b).2
  | .listen s => w.listen s
  | .takeHeard s => (w.takeHeard s).2
  | .note events => w.note events
  | .takeEvents => w.takeEvents.2
  | .shutdown => w.shutdown

namespace World

/-- The worlds that operations lead to from a new one, as long as there is room for one more slot
and one more table. -/
inductive Reachable : World → Prop where
  | new : Reachable World.new
  | step {w : World} (op : Operation) : Reachable w → (w.perform op).Fits → Reachable (w.perform op)

def run (w : World) (ops : List Operation) : World := ops.foldl perform w

def FitsAlong (w : World) : List Operation → Prop
  | [] => True
  | op :: rest => (w.perform op).Fits ∧ (w.perform op).FitsAlong rest

instance decidableFitsAlong (w : World) : (ops : List Operation) → Decidable (w.FitsAlong ops)
  | [] => .isTrue trivial
  | op :: rest =>
    have := decidableFitsAlong (w.perform op) rest
    inferInstanceAs (Decidable ((w.perform op).Fits ∧ (w.perform op).FitsAlong rest))

variable {u v w : World} {e x : Entity} {id : Id}

theorem Reachable.run {ops : List Operation} (h : w.Reachable) (hf : w.FitsAlong ops) :
    (w.run ops).Reachable := by
  induction ops generalizing w with
  | nil => exact h
  | cons op rest ih => exact ih (h.step op hf.1) hf.2

theorem Reachable.fits (h : w.Reachable) : w.Fits := by
  cases h with
  | new => exact ⟨by decide, by decide⟩
  | step op _ hf => exact hf

/-- On the way from `w` to `v` nothing goes wrong: `v` is well formed if `w` is and `v` fits. -/
structure Leads (w v : World) : Prop where
  grows : w.Grows v
  keeps : w.WellFormed → v.Fits → v.WellFormed

namespace Leads

theorem refl (w : World) : w.Leads w := ⟨.refl w, fun h _ => h⟩

theorem trans (h₁ : u.Leads v) (h₂ : v.Leads w) : u.Leads w :=
  ⟨h₁.grows.trans h₂.grows, fun hu hf => h₂.keeps (h₁.keeps hu (h₂.grows.fits hf)) hf⟩

theorem of_fits (hg : w.Grows v) (h : w.WellFormed → w.Fits → v.WellFormed) : w.Leads v :=
  ⟨hg, fun hw hv => h hw (hg.fits hv)⟩

theorem of_same (hr : v.registry = w.registry) (he : v.entities = w.entities)
    (hs : v.storage = w.storage) (hl : v.slot? = w.slot?) : w.Leads v :=
  ⟨.of_eq he (by rw [hs]), fun h _ => h.congr hr he hs hl⟩

end Leads

/-! ### One step at a time -/

theorem spawn_leads (w : World) : w.Leads w.spawn.2 :=
  .of_fits (spawn_grows w) fun h hf => (h.spawn hf).1

theorem add_leads (w : World) (e : Entity) (id : Id) : w.Leads (w.add e id).2 :=
  .of_fits (add_grows w e id) fun h hf => (h.add hf e id).becomes.wellFormed

theorem remove_leads (w : World) (e : Entity) (id : Id) : w.Leads (w.remove e id).2 :=
  .of_fits (remove_grows w e id) fun h hf => (h.remove hf e id).becomes.wellFormed

theorem put_leads (w : World) (e : Entity) (id : Id) (v : Value) (how : Transfer) :
    w.Leads (w.put e id v how).2 :=
  .of_fits (put_grows w e id v how) fun h hf => (h.put hf e id v how).becomes.wellFormed

theorem write_table_leads {i : ArchetypeId} {a : Archetype} (ha : w.storage.get? i = some a)
    (id : Id) {row : Nat} {f : Column → Column × List HookEvent} {u : Value}
    (htype : ∀ c, (f c).1.type = c.type)
    (hrows : ∀ c, (f c).1.rows = c.rows.setIfInBounds row u) :
    w.Leads { w with storage := w.storage.set (a.updateColumn id f).1 } :=
  .of_fits (.of_eq rfl (Storage.size_set _ _)) fun h _ => h.write_table ha id htype hrows

theorem registerType_leads (w : World) (d : TypeDescription) : w.Leads (w.registerType d).2 := by
  refine .of_fits ?_ fun h _ => h.registerType d
  unfold registerType
  split <;> exact .of_eq rfl rfl

theorem throughout_leads : Throughout Leads where
  refl := .refl
  trans := .trans
  setName w e name := by
    obtain ⟨n, k, heq⟩ := setName_eq w e name
    rw [heq]
    exact .of_same rfl rfl rfl rfl
  listeners _ _ := .of_same rfl rfl rfl rfl
  events _ _ := .of_same rfl rfl rfl rfl
  spawn := spawn_leads
  add := add_leads
  remove := remove_leads
  despawnOne he := .of_fits (despawnOne_grows _ _) fun h _ => (h.despawnOne he).wellFormed
  registerType := registerType_leads
  put := put_leads
  writeTable id ha := write_table_leads ha id

/-- `P` is about what stands beside the rows, and holds along the steps of well-formed worlds that
have room. -/
structure Rowless (P : World → World → Prop) : Prop where
  refl (w : World) : P w w
  trans {u v w : World} : P u v → P v w → P u w
  rows (w : World) (places : Array (Option Location)) (s : Storage) (told : List HookEvent) :
    P w { w with locations := places, storage := s, events := told }
  listeners (w : World) (heard : List Listener) : P w { w with listeners := heard }
  setName (w : World) (e : Entity) (name : String) : P w (w.setName e name).2
  registerType (w : World) (d : TypeDescription) : P w (w.registerType d).2
  allocate {w : World} : w.WellFormed → w.Fits → P w { w with entities := w.entities.allocate.2 }
  despawnOne {w : World} {e : Entity} : w.WellFormed → w.isAlive e = true → P w (w.despawnOne e)

structure LeadsBy (P : World → World → Prop) (w v : World) : Prop where
  leads : w.Leads v
  holds : w.WellFormed → v.Fits → P w v

namespace Rowless

variable {P : World → World → Prop} (h : Rowless P)
include h

theorem becomes {c : Contents} (hb : w.Becomes c v) : P w v := by
  rw [hb.frame]
  exact h.rows w _ _ _

theorem spawn (hw : w.WellFormed) (hf : w.Fits) : P w w.spawn.2 := by
  obtain ⟨a, -, -, heq⟩ := spawn_eq hw
  rw [heq]
  exact h.trans (h.allocate hw hf) (h.rows _ _ _ w.events)

theorem throughout : Throughout (LeadsBy P) where
  refl w := ⟨.refl w, fun _ _ => h.refl w⟩
  trans huv hvw := ⟨huv.leads.trans hvw.leads, fun hu hf =>
    have hv := hvw.leads.grows.fits hf
    h.trans (huv.holds hu hv) (hvw.holds (huv.leads.keeps hu hv) hf)⟩
  setName w e name := ⟨throughout_leads.setName w e name, fun _ _ => h.setName w e name⟩
  listeners w heard := ⟨throughout_leads.listeners w heard, fun _ _ => h.listeners w heard⟩
  events w told := ⟨throughout_leads.events w told, fun _ _ => h.rows w _ _ told⟩
  spawn w := ⟨spawn_leads w, fun hw hf => h.spawn hw ((spawn_grows w).fits hf)⟩
  add w e id := ⟨add_leads w e id, fun hw hf =>
    h.becomes (hw.add ((add_grows w e id).fits hf) e id).becomes⟩
  remove w e id := ⟨remove_leads w e id, fun hw hf =>
    h.becomes (hw.remove ((remove_grows w e id).fits hf) e id).becomes⟩
  put w e id x how := ⟨put_leads w e id x how, fun hw hf =>
    h.becomes (hw.put ((put_grows w e id x how).fits hf) e id x how).becomes⟩
  despawnOne he := ⟨throughout_leads.despawnOne he, fun hw _ => h.despawnOne hw he⟩
  registerType w d := ⟨registerType_leads w d, fun _ _ => h.registerType w d⟩
  writeTable id ha htype hrows :=
    ⟨write_table_leads ha id htype hrows, fun _ _ => h.rows _ _ _ _⟩

end Rowless

theorem WellFormed.sweepPairs (sources : List (Entity × Id × CleanupPolicy)) (h : w.WellFormed)
    (doomed : List Entity) (hf : (w.sweepPairs doomed sources).1.Fits) :
    w.Becomes (w.sweepPairs doomed sources).1.contents (w.sweepPairs doomed sources).1 := by
  induction sources generalizing w doomed with
  | nil => exact .refl h
  | cons s rest ih =>
    obtain ⟨x, id, policy⟩ := s
    cases policy with
    | delete => exact ih h _ hf
    | remove =>
      have hgrows := (throughout_leads.sweepPairs rest (w.remove x id).2 doomed).grows
      have hremove := (h.remove ((remove_grows w x id).fits (hgrows.fits hf)) x id).becomes
      exact hremove.trans (ih hremove.wellFormed _ hf)

/-! ### Commands -/

theorem Furnishing.sparing {R : World → World → Prop} (h : Furnishing R) (w : World)
    {op : Operation} (hop : op.Sparing) : R w (w.perform op) := by
  cases op with
  | registerType d => exact h.registerType w d
  | spawn => exact h.spawn w
  | edit x => exact h.edit w x
  | ensureDefaultTyped e k t => exact h.ensureDefaultTyped w e k t
  | read e k t => exact h.read w e k t
  | readValue e id => exact h.readValue w e id
  | overwrite e id v => exact h.overwrite w e id v
  | rowSet r k t v => exact h.rowSet w r k t v
  | addPair e relation target => exact h.addPair w e relation target
  | removePair e relation target => exact h.remove w e _
  | setParent child parent => exact h.setParent w child parent
  | setName e name => exact h.setName w e name
  | note events => exact h.events w _
  | takeEvents => exact h.events w []
  | despawn _ | listen _ | takeHeard _ | applyCommands _ | shutdown => exact hop.elim

theorem Wide.plain {R : World → World → Prop} (h : Wide R) (w : World) {op : Operation}
    (hop : op.Plain) (hdeaf : op.Deaf) : R w (w.perform op) := by
  cases op with
  | despawn e => exact h.despawn w e
  | listen _ | takeHeard _ => exact hdeaf.elim
  | applyCommands _ | shutdown => exact hop.elim
  | _ => exact h.sparing w trivial

theorem applyCommand_cases (w : World) (buffer : UInt32) (spawned : List Entity) (c : Command) :
    (∃ e, w.applyCommand buffer spawned c = (.ok none, (w.despawn e).2)) ∨
      ∃ op : Operation, op.Sparing ∧ (w.applyCommand buffer spawned c).2 = w.perform op := by
  have hsame : w = w.perform (.note []) := rfl
  cases c with
  | spawn => exact .inr ⟨.spawn, trivial, rfl⟩
  | despawn target =>
    unfold applyCommand
    simp only
    split
    · exact .inr ⟨.note [], trivial, hsame⟩
    · next e _ => exact .inl ⟨e, rfl⟩
  | insert target value =>
    refine .inr ?_
    unfold applyCommand
    simp only
    split
    · exact ⟨.note value.dropEvents, trivial, rfl⟩
    · next e _ => exact ⟨.edit (.writeValue e value), trivial, rfl⟩
  | add target id =>
    refine .inr ?_
    unfold applyCommand
    simp only
    split
    · exact ⟨.note [], trivial, hsame⟩
    · next e _ => exact ⟨.edit (.add e id), trivial, rfl⟩
  | remove target id =>
    refine .inr ?_
    unfold applyCommand
    simp only
    split
    · exact ⟨.note [], trivial, hsame⟩
    · next e _ => exact ⟨.edit (.remove e id), trivial, rfl⟩
  | addPair target relation object =>
    refine .inr ?_
    unfold applyCommand
    simp only
    split
    · exact ⟨.note [], trivial, hsame⟩
    · exact ⟨.note [], trivial, hsame⟩
    · next e o _ _ => exact ⟨.addPair e relation o, trivial, rfl⟩
  | removePair target relation object =>
    refine .inr ?_
    unfold applyCommand
    simp only
    split
    · exact ⟨.note [], trivial, hsame⟩
    · exact ⟨.note [], trivial, hsame⟩
    · next e o _ _ => exact ⟨.removePair e relation o, trivial, rfl⟩

theorem applyCommand_eq_perform (w : World) (buffer : UInt32) (spawned : List Entity)
    (c : Command) : ∃ op : Operation, op.Plain ∧ op.Deaf ∧
      (w.applyCommand buffer spawned c).2 = w.perform op := by
  obtain ⟨e, heq⟩ | ⟨op, hop, heq⟩ := w.applyCommand_cases buffer spawned c
  · exact ⟨.despawn e, trivial, trivial, congrArg Prod.snd heq⟩
  · exact ⟨op, hop.plain, hop.deaf, heq⟩

theorem Wide.applyCommand {R : World → World → Prop} (h : Wide R) (w : World) (buffer : UInt32)
    (spawned : List Entity) (c : Command) : R w (w.applyCommand buffer spawned c).2 := by
  obtain ⟨op, hop, hdeaf, heq⟩ := applyCommand_eq_perform w buffer spawned c
  rw [heq]
  exact h.plain w hop hdeaf

theorem Wide.applyAll {R : World → World → Prop} (h : Wide R) (buffer : UInt32)
    (commands : List Command) (w : World) (report : CommandReport) :
    R w (applyAll buffer w report commands).2 := by
  induction commands generalizing w report with
  | nil => exact h.refl w
  | cons c rest ih =>
    have hc := h.applyCommand w buffer report.spawned c
    unfold World.applyAll
    split
    · next hr =>
      rw [hr] at hc
      exact h.trans hc (ih _ _)
    · next hr =>
      rw [hr] at hc
      exact h.trans hc (ih _ _)

theorem Wide.perform {R : World → World → Prop} (h : Wide R) (w : World) {op : Operation}
    (hop : op ≠ .shutdown) (hdeaf : op.Deaf) : R w (w.perform op) := by
  cases op with
  | applyCommands b => exact h.applyAll b.id b.commands w .empty
  | shutdown => exact absurd rfl hop
  | listen _ | takeHeard _ => exact hdeaf.elim
  | _ => exact h.plain w trivial trivial

theorem Throughout.perform {R : World → World → Prop} (h : Throughout R) (w : World)
    {op : Operation} (hop : op ≠ .shutdown) : R w (w.perform op) := by
  cases op with
  | listen s => exact h.listen w s
  | takeHeard s => exact h.takeHeard w s
  | _ => exact h.toWide.perform w hop trivial

/-! ### Shutting down -/

theorem foldl_announce_eq (live : List Entity) (w : World) :
    ∃ heard, live.foldl announce w = { w with listeners := heard } := by
  induction live generalizing w with
  | nil => exact ⟨w.listeners, rfl⟩
  | cons e rest ih =>
    obtain ⟨heard, hrest⟩ := ih (w.announce e)
    exact ⟨heard, hrest⟩

theorem shutdown_eq (w : World) : ∃ heard, w.shutdown =
    { registry := builtins.2, entities := w.entities.clear, locations := #[], storage := .empty,
      names := .empty, entityNames := .empty, listeners := heard, childOf := builtins.1,
      events := w.storage.dropAll.reverse ++ w.events } := by
  have hend : ∀ v : World, ∃ heard,
      { w.entities.live.foldl announce v with registry := builtins.2, childOf := builtins.1 } =
        { v with registry := builtins.2, childOf := builtins.1, listeners := heard } := by
    intro v
    obtain ⟨heard, hlive⟩ := foldl_announce_eq w.entities.live v
    rw [hlive]
    exact ⟨heard, rfl⟩
  obtain ⟨heard, h⟩ := hend { w.note w.storage.dropAll with
    storage := .empty
    entities := w.entities.clear
    locations := #[]
    names := .empty
    entityNames := .empty }
  exact ⟨heard, h⟩

theorem WellFormed.shutdown (h : w.WellFormed) : w.shutdown.WellFormed := by
  obtain ⟨heard, heq⟩ := shutdown_eq w
  rw [heq]
  refine ⟨WellFormed.new.registry, h.entities.clear, .empty _, fun i l => ?_, fun e => ?_⟩
  · constructor
    · intro hs
      simp [slot?] at hs
    · intro hex
      obtain ⟨y, k, hl, _⟩ := hex
      rw [Storage.row?_empty] at hl
      cases hl
  · constructor
    · intro he
      rw [isAlive, Allocator.not_isAlive_clear] at he
      cases he
    · intro hex
      obtain ⟨k, l, hl⟩ := hex
      rw [Storage.row?_empty] at hl
      cases hl

/-! ### All steps -/

theorem WellFormed.perform (h : w.WellFormed) (op : Operation) (hf : (w.perform op).Fits) :
    (w.perform op).WellFormed := by
  by_cases hop : op = .shutdown
  · subst hop
    exact h.shutdown
  · exact (throughout_leads.perform w hop).keeps h hf

theorem Reachable.wellFormed (h : w.Reachable) : w.WellFormed := by
  induction h with
  | new => exact .new
  | step op _ hf ih => exact ih.perform op hf

/-- A small world: the entities 0 and 1 are children of each other, 2 is a child of 1 and likes 0,
and 3 likes 0. -/
def family : World :=
  World.new.run [.registerType ((TypeDescription.tag "Game.Likes").relationship .remove),
    .spawn, .spawn, .spawn, .spawn, .addPair ⟨0, 0⟩ ⟨0⟩ ⟨1, 0⟩, .addPair ⟨1, 0⟩ ⟨0⟩ ⟨0, 0⟩,
    .addPair ⟨2, 0⟩ ⟨0⟩ ⟨1, 0⟩, .addPair ⟨2, 0⟩ ⟨1⟩ ⟨0, 0⟩, .addPair ⟨3, 0⟩ ⟨1⟩ ⟨0, 0⟩]

theorem reachable_family : family.Reachable := Reachable.new.run (by decide +kernel)

end World
end EntityWorld
