import EntityWorld.Proofs.World.Pairs
set_option autoImplicit false

/-!
Taking pairs off an entity. A look for a pair asks for the generation of the target, and a removal
asks for its slot alone, so a stale handle does not see a pair on its slot and still takes it off.
-/
namespace EntityWorld.World

variable {w : World} {e t : Entity} {relation : TypeHandle}

/-- A removal of a pair, at once or by a command, goes as it has to if `there` tells whether the
pair is there. -/
structure Takes (w : World) (e : Entity) (relation : TypeHandle) (t : Entity) (there : Bool) :
    Prop where
  answer : (w.removePair e relation t).1 = .ok there
  contents : (w.removePair e relation t).2.contents =
    if there then w.contents.unset e (Id.pair relation t) else w.contents
  deferred : ∀ buffer spawned target object, target.resolve buffer spawned = .ok e →
    object.resolve buffer spawned = .ok t →
    (w.applyCommand buffer spawned (.removePair target relation object)).1 = .ok none ∧
      (w.applyCommand buffer spawned (.removePair target relation object)).2.contents =
        if there then w.contents.unset e (Id.pair relation t) else w.contents

theorem applyCommand_removePair {buffer : UInt32} {spawned : List Entity} {target object : Target}
    (he : target.resolve buffer spawned = .ok e) (ht : object.resolve buffer spawned = .ok t) :
    w.applyCommand buffer spawned (.removePair target relation object) =
      ((w.removePair e relation t).1.map fun _ => none, (w.removePair e relation t).2) := by
  simp only [applyCommand, he, ht]

theorem Takes.of_removePair {there : Bool} (ha : (w.removePair e relation t).1 = .ok there)
    (hc : (w.removePair e relation t).2.contents =
      if there then w.contents.unset e (Id.pair relation t) else w.contents) :
    w.Takes e relation t there := by
  refine ⟨ha, hc, fun buffer spawned target object he ht => ?_⟩
  rw [applyCommand_removePair he ht]
  exact ⟨by rw [ha]; rfl, hc⟩

theorem WellFormed.takes_peek (h : w.WellFormed) (hf : w.Fits) (he : w.isAlive e = true)
    (relation : TypeHandle) (t : Entity) :
    w.Takes e relation t (w.peek e (Id.pair relation t)).isSome := by
  have hc : w.contents e = some (w.peek e) := if_pos he
  have hremove := h.remove hf e (Id.pair relation t)
  simp only [Contents.remove, hc] at hremove
  refine .of_removePair hremove.answer (hremove.becomes.contents.trans ?_)
  by_cases hthere : (w.peek e (Id.pair relation t)).isSome = true
  · rw [if_pos hthere]
  · rw [if_neg hthere]
    rw [Bool.not_eq_true, Option.isSome_eq_false_iff, Option.isNone_iff_eq_none] at hthere
    exact Contents.unset_eq_self hc hthere

/-- A removal takes a pair off whenever there is one on the slot. So it goes by what `hasPair` says
unless the target is dead and its slot is that of a pair. -/
theorem Reachable.takes_hasPair_iff (h : w.Reachable) (he : w.isAlive e = true)
    (relation : TypeHandle) (t : Entity) :
    w.Takes e relation t (w.peek e (Id.pair relation t)).isSome ∧
      (w.Takes e relation t (w.hasPair e relation t) ↔
        (w.Carries e (Id.pair relation t) → w.isAlive t = true)) := by
  have hslot := h.wellFormed.takes_peek h.fits he relation t
  have hseen : w.hasPair e relation t = true ↔ _ := h.wellFormed.hasPair_iff h.fits
  refine ⟨hslot, fun htakes hc => ?_, fun halive => ?_⟩
  · have heq := Except.ok.inj (htakes.answer.symm.trans hslot.answer)
    exact (hseen.1 (heq.trans hc)).1
  · have heq : w.hasPair e relation t = (w.peek e (Id.pair relation t)).isSome := by
      rw [Bool.eq_iff_iff, hseen]
      exact ⟨fun hp => hp.2, fun hc => ⟨halive hc, hc⟩⟩
    rwa [heq]

theorem takes_hasPair_family : family.Reachable ∧ family.isAlive ⟨2, 0⟩ = true ∧
    family.Takes ⟨2, 0⟩ ⟨1⟩ ⟨0, 0⟩ (family.peek ⟨2, 0⟩ (Id.pair ⟨1⟩ ⟨0, 0⟩)).isSome ∧
      (family.Takes ⟨2, 0⟩ ⟨1⟩ ⟨0, 0⟩ (family.hasPair ⟨2, 0⟩ ⟨1⟩ ⟨0, 0⟩) ↔
        (family.Carries ⟨2, 0⟩ (Id.pair ⟨1⟩ ⟨0, 0⟩) → family.isAlive ⟨0, 0⟩ = true)) := by
  have he : family.isAlive ⟨2, 0⟩ = true := by decide +kernel
  exact ⟨reachable_family, he, reachable_family.takes_hasPair_iff he ⟨1⟩ ⟨0, 0⟩⟩

/-- Entity 1 has died, and entity 0 likes the next one in its slot. -/
def successor : World :=
  World.new.run [.registerType ((TypeDescription.tag "Game.Likes").relationship .remove),
    .spawn, .spawn, .despawn ⟨1, 0⟩, .spawn, .addPair ⟨0, 0⟩ ⟨1⟩ ⟨1, 1⟩]

/-- The old handle does not see the pair with the new entity, and takes it off. -/
theorem successor_takes : successor.Reachable ∧ successor.isAlive ⟨0, 0⟩ = true ∧
    successor.hasPair ⟨0, 0⟩ ⟨1⟩ ⟨1, 0⟩ = false ∧ successor.hasPair ⟨0, 0⟩ ⟨1⟩ ⟨1, 1⟩ = true ∧
    (successor.removePair ⟨0, 0⟩ ⟨1⟩ ⟨1, 0⟩).1 = .ok true ∧
    (successor.removePair ⟨0, 0⟩ ⟨1⟩ ⟨1, 0⟩).2.hasPair ⟨0, 0⟩ ⟨1⟩ ⟨1, 1⟩ = false ∧
    ¬ successor.Takes ⟨0, 0⟩ ⟨1⟩ ⟨1, 0⟩ (successor.hasPair ⟨0, 0⟩ ⟨1⟩ ⟨1, 0⟩) := by
  have hno : successor.hasPair ⟨0, 0⟩ ⟨1⟩ ⟨1, 0⟩ = false := by decide +kernel
  have htook : (successor.removePair ⟨0, 0⟩ ⟨1⟩ ⟨1, 0⟩).1 = .ok true := by decide +kernel
  refine ⟨Reachable.new.run (by decide +kernel), by decide +kernel, hno, by decide +kernel, htook,
    by decide +kernel, fun h => ?_⟩
  rw [hno] at h
  have heq := Except.ok.inj (h.answer.symm.trans htook)
  cases heq

end EntityWorld.World
