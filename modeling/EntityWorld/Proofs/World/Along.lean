import EntityWorld.Proofs.World.Edits
set_option autoImplicit false

/-!
Most operations are made of a few others. A relation between worlds that holds along those and goes
on from step to step holds along all of them.
-/
namespace EntityWorld.World

/-- `R` holds along the steps that the end of an entity is made of. -/
structure Waning (R : World → World → Prop) : Prop where
  refl (w : World) : R w w
  trans {u v w : World} : R u v → R v w → R u w
  remove (w : World) (e : Entity) (id : Id) : R w (w.remove e id).2
  despawnOne {w : World} {e : Entity} : w.isAlive e = true → R w (w.despawnOne e)

/-- `R` holds along the steps that end no entity. -/
structure Building (R : World → World → Prop) : Prop where
  refl (w : World) : R w w
  trans {u v w : World} : R u v → R v w → R u w
  remove (w : World) (e : Entity) (id : Id) : R w (w.remove e id).2
  setName (w : World) (e : Entity) (name : String) : R w (w.setName e name).2
  spawn (w : World) : R w w.spawn.2
  add (w : World) (e : Entity) (id : Id) : R w (w.add e id).2

/-- `R` holds along the steps that structural operations are made of. -/
structure Within (R : World → World → Prop) : Prop extends Waning R, Building R

/-- Listeners may come, and may be asked. -/
structure Along (R : World → World → Prop) : Prop extends Within R where
  listeners (w : World) (heard : List Listener) : R w { w with listeners := heard }

/-- Types and values may come, and hooks may be called; no entity ends. -/
structure Furnishing (R : World → World → Prop) : Prop extends Building R where
  events (w : World) (told : List HookEvent) : R w { w with events := told }
  registerType (w : World) (d : TypeDescription) : R w (w.registerType d).2
  put (w : World) (e : Entity) (id : Id) (v : Value) (how : Transfer) : R w (w.put e id v how).2
  writeTable {w : World} {i : ArchetypeId} {a : Archetype} {row : Nat}
    {f : Column → Column × List HookEvent} {v : Value} (id : Id) : w.storage.get? i = some a →
    (∀ c, (f c).1.type = c.type) → (∀ c, (f c).1.rows = c.rows.setIfInBounds row v) →
    R w { w with storage := w.storage.set (a.updateColumn id f).1 }

/-- Types and values may come, and hooks may be called. -/
structure Wide (R : World → World → Prop) : Prop extends Within R, Furnishing R

/-- `R` holds along the steps that all operations but a shutdown are made of. -/
structure Throughout (R : World → World → Prop) : Prop extends Along R, Wide R

theorem Wide.and {R S : World → World → Prop} (h : Wide R) (h' : Wide S) :
    Wide fun w v => R w v ∧ S w v where
  refl w := ⟨h.refl w, h'.refl w⟩
  trans huv hvw := ⟨h.trans huv.1 hvw.1, h'.trans huv.2 hvw.2⟩
  remove w e id := ⟨h.remove w e id, h'.remove w e id⟩
  despawnOne he := ⟨h.despawnOne he, h'.despawnOne he⟩
  setName w e name := ⟨h.setName w e name, h'.setName w e name⟩
  spawn w := ⟨h.spawn w, h'.spawn w⟩
  add w e id := ⟨h.add w e id, h'.add w e id⟩
  events w told := ⟨h.events w told, h'.events w told⟩
  registerType w d := ⟨h.registerType w d, h'.registerType w d⟩
  put w e id v how := ⟨h.put w e id v how, h'.put w e id v how⟩
  writeTable id ha htype hrows := ⟨h.writeTable id ha htype hrows, h'.writeTable id ha htype hrows⟩

theorem setName_eq (w : World) (e : Entity) (name : String) :
    ∃ n k, (w.setName e name).2 = { w with names := n, entityNames := k } := by
  unfold setName
  split
  · exact ⟨_, _, rfl⟩
  · cases w.names.get? name with
    | none => exact ⟨_, _, rfl⟩
    | some owner =>
      simp only
      split <;> exact ⟨_, _, rfl⟩

theorem moveTo_frame (w : World) (e : Entity) (l : Location) (j : ArchetypeId) :
    ∃ places s told,
      w.moveTo e l j = { w with locations := places, storage := s, events := told } := by
  unfold moveTo
  split
  · rw [relocate_eq]
    exact ⟨_, _, _, rfl⟩
  · exact ⟨_, _, _, rfl⟩

theorem remove_eq (w : World) (e : Entity) (id : Id) : ∃ places s told,
    (w.remove e id).2 = { w with locations := places, storage := s, events := told } := by
  unfold remove
  split
  · exact ⟨_, _, _, rfl⟩
  · next l _ =>
    split
    · exact ⟨_, _, _, rfl⟩
    · next j s _ =>
      simp only
      split
      · exact ⟨_, _, _, rfl⟩
      · obtain ⟨_, _, _, heq⟩ := moveTo_frame { w with storage := s } e l j
        rw [heq]
        exact ⟨_, _, _, rfl⟩

theorem entities_sweepPairs (sources : List (Entity × Id × CleanupPolicy)) (w : World)
    (doomed : List Entity) : (w.sweepPairs doomed sources).1.entities = w.entities := by
  induction sources generalizing w doomed with
  | nil => rfl
  | cons s rest ih =>
    obtain ⟨x, id, policy⟩ := s
    cases policy with
    | remove =>
      obtain ⟨_, _, _, heq⟩ := remove_eq w x id
      rw [World.sweepPairs, ih, heq]
    | delete => exact ih w _

theorem isAlive_of_dropWhile {w : World} {e : Entity} {pending rest : List Entity}
    (h : pending.dropWhile (fun x => !w.isAlive x) = e :: rest) : w.isAlive e = true := by
  have hhead := List.head?_dropWhile_not (fun x => !w.isAlive x) pending
  rw [h] at hhead
  simpa using hhead

theorem Along.listen {R : World → World → Prop} (h : Along R) (w : World) (s : Subscriber) :
    R w (w.listen s) := h.listeners w _

theorem Along.takeHeard {R : World → World → Prop} (h : Along R) (w : World) (s : Subscriber) :
    R w (w.takeHeard s).2 := h.listeners w _

namespace Waning

variable {R : World → World → Prop} (h : Waning R)
include h

theorem sweepPairs (sources : List (Entity × Id × CleanupPolicy)) (w : World)
    (doomed : List Entity) : R w (w.sweepPairs doomed sources).1 := by
  induction sources generalizing w doomed with
  | nil => exact h.refl w
  | cons s rest ih =>
    obtain ⟨x, id, policy⟩ := s
    cases policy with
    | remove => exact h.trans (h.remove w x id) (ih _ _)
    | delete => exact ih _ _

/-- The entity that a round of the cascade ends is alive: sweeping its pairs ends nobody. -/
theorem cascade (rounds : Nat) (w : World) (pending : List Entity) :
    R w (cascade rounds w pending) := by
  induction rounds generalizing w pending with
  | zero => exact h.refl w
  | succ n ih =>
    unfold World.cascade
    split
    · exact h.refl w
    · next next rest hnext =>
      have hsweep := h.sweepPairs (w.pairSources next) w rest
      have halive : (w.sweepPairs rest (w.pairSources next)).1.isAlive next = true := by
        rw [isAlive, entities_sweepPairs]
        exact isAlive_of_dropWhile hnext
      exact h.trans (h.trans hsweep (h.despawnOne halive)) (ih _ _)

theorem despawn (w : World) (e : Entity) : R w (w.despawn e).2 := by
  unfold World.despawn
  split
  · exact h.cascade _ w _
  · exact h.refl w

end Waning

namespace Building

variable {R : World → World → Prop} (h : Building R)
include h

theorem ensureDefault (w : World) (e : Entity) (id : Id) : R w (w.ensureDefault e id).2 := by
  have hadd := h.add w e id
  unfold World.ensureDefault
  split
  · next hr =>
    rw [hr] at hadd
    exact hadd
  · next hr =>
    rw [hr] at hadd
    split <;> exact hadd

theorem ensureDefaultTyped (w : World) (e : Entity) (k : TypeHandle) (t : HostType) :
    R w (w.ensureDefaultTyped e k t).2 := by
  have hadd := h.add w e (Id.component k)
  unfold World.ensureDefaultTyped
  split
  · exact h.refl w
  · split
    · exact h.refl w
    · split
      · next hr =>
        rw [hr] at hadd
        exact hadd
      · next hr =>
        rw [hr] at hadd
        split <;> exact hadd

theorem addPair (w : World) (e : Entity) (relation : TypeHandle) (target : Entity) :
    R w (w.addPair e relation target).2 := by
  unfold World.addPair
  split
  · exact h.add w e _
  · exact h.refl w

theorem removePairsExcept (e : Entity) (relation : TypeHandle) (kept : Entity) (old : List Entity)
    (w : World) : R w (w.removePairsExcept e relation kept old).2 := by
  induction old generalizing w with
  | nil => exact h.refl w
  | cons x rest ih =>
    have hremove := h.remove w e (Id.pair relation x)
    unfold World.removePairsExcept World.removePair
    split
    · exact ih w
    · split
      · next hr =>
        rw [hr] at hremove
        exact h.trans hremove (ih _)
      · next hr =>
        rw [hr] at hremove
        exact hremove

theorem setParent (w : World) (child parent : Entity) : R w (w.setParent child parent).2 := by
  have hremove := h.removePairsExcept child w.childOf parent (w.targets child w.childOf) w
  unfold World.setParent
  split
  · next hr =>
    rw [hr] at hremove
    exact hremove
  · next hr =>
    rw [hr] at hremove
    exact h.trans hremove (h.addPair _ _ _ _)

end Building

/-! ### Reading -/

def copyOut (w : World) (h : TypeHandle) (t : HostType) (x : Option Value) :
    Except EcsError (Option Value) × World :=
  match w.descriptor h with
  | .error err => (.error err, w)
  | .ok d =>
    match d.checkTyped t with
    | .error err => (.error err, w)
    | .ok () =>
      match x with
      | some x => (.ok (some x), w.note (d.copyEvents x))
      | none => (.ok none, w)

theorem rowTryGet_eq (w : World) (r : Row) (k : TypeHandle) (t : HostType) :
    w.rowTryGet r k t = w.copyOut k t (w.rowPeek r (Id.component k)) := rfl

def valueOut (w : World) (id : Id) (x : Option Value) : Option ComponentValue × World :=
  match w.descriptor? id.typeHandle with
  | none => (none, w)
  | some d =>
    match x with
    | some x => (some ⟨d, x⟩, w.note (d.copyEvents x))
    | none => (none, w)

theorem readValue_eq (w : World) (e : Entity) (id : Id) :
    w.readValue e id = w.valueOut id (w.peek e id) := rfl

theorem rowValue_eq (w : World) (r : Row) (id : Id) :
    w.rowValue r id = w.valueOut id (w.rowPeek r id) := rfl

namespace Furnishing

variable {R : World → World → Prop} (h : Furnishing R)
include h

theorem putTyped (w : World) (e : Entity) (k : TypeHandle) (t : HostType) (v : Value)
    (how : Transfer) : R w (w.putTyped e k t v how).2 := by
  unfold World.putTyped
  split
  · exact h.refl w
  · split
    · exact h.refl w
    · exact h.put w e _ v how

theorem writeValue (w : World) (e : Entity) (v : ComponentValue) : R w (w.writeValue e v).2 := by
  have hput := h.put w e (Id.component v.handle) v.value .move
  unfold World.writeValue
  split
  · next hr =>
    rw [hr] at hput
    exact hput
  · next hr =>
    rw [hr] at hput
    exact h.trans hput (h.events _ _)

theorem writeBytes (w : World) (e : Entity) (k : TypeHandle) (bytes : Bytes) :
    R w (w.writeBytes e k bytes).2 := by
  unfold World.writeBytes
  split
  · exact h.refl w
  · exact h.writeValue w e _

theorem edit (w : World) (x : Edit) : R w (x.run w).2 := by
  cases x with
  | add e id => exact h.add w e id
  | remove e id => exact h.remove w e id
  | write e k t v => exact h.putTyped w e k t v .move
  | writeRef e k t v => exact h.putTyped w e k t v .copy
  | writeValue e v => exact h.writeValue w e v
  | writeValueRef e v => exact h.put w e _ v.value .copy
  | writeBytes e k bytes => exact h.writeBytes w e k bytes
  | ensureDefault e id => exact h.ensureDefault w e id

theorem copyOut (w : World) (k : TypeHandle) (t : HostType) (x : Option Value) :
    R w (w.copyOut k t x).2 := by
  unfold World.copyOut
  split
  · exact h.refl w
  · split
    · exact h.refl w
    · split
      · exact h.events w _
      · exact h.refl w

theorem valueOut (w : World) (id : Id) (x : Option Value) : R w (w.valueOut id x).2 := by
  unfold World.valueOut
  split
  · exact h.refl w
  · split
    · exact h.events w _
    · exact h.refl w

theorem read (w : World) (e : Entity) (k : TypeHandle) (t : HostType) :
    R w (w.read e k t).2 := h.copyOut w k t _

theorem readValue (w : World) (e : Entity) (id : Id) : R w (w.readValue e id).2 :=
  h.valueOut w id _

theorem overwrite (w : World) (e : Entity) (id : Id) (v : Value) : R w (w.overwrite e id v) := by
  unfold World.overwrite
  split
  · exact h.refl w
  · next l _ =>
    split
    · exact h.refl w
    · next ha =>
      let f : Column → Column × List HookEvent := fun c =>
        ({ c with rows := c.rows.setIfInBounds l.row v }, [])
      have hrows : ∀ c, (f c).1.rows = c.rows.setIfInBounds l.row v := fun _ => rfl
      exact h.writeTable id ha (fun _ => rfl) hrows

theorem rowSet (w : World) (r : Row) (k : TypeHandle) (t : HostType) (v : Value) :
    R w (w.rowSet r k t v).2 := by
  unfold World.rowSet
  split
  · exact h.refl w
  · split
    · exact h.refl w
    · split
      · exact h.refl w
      · split
        · exact h.refl w
        · next ha =>
          split
          · exact h.refl w
          · exact h.trans (h.writeTable _ ha (fun c => c.type_assign r.row v _)
              fun c => c.rows_assign r.row v _) (h.events _ _)

end Furnishing
end EntityWorld.World
