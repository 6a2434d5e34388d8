import EntityWorld.Proofs.World.Calls
import EntityWorld.Proofs.World.Reachable
set_option autoImplicit false

/-!
Who ends an entity. Nothing but a despawn and a shutdown does: all other operations, and all
commands but a despawn, leave alive whoever was so. This needs no invariant of the world.
-/
namespace EntityWorld

namespace Allocator

variable {a : Allocator} {e : Entity}

theorem isAlive_allocate_of_isAlive (h : a.isAlive e = true) : a.allocate.2.isAlive e = true := by
  have hsize := index_lt_of_isAlive h
  rw [isAlive_iff] at h ⊢
  unfold allocate
  split
  · rw [slot?, Array.getElem?_push, if_neg (Nat.ne_of_lt hsize)]
    exact h
  · next index rest _ =>
    split
    · next s hs =>
      rw [slot?, Array.getElem?_setIfInBounds]
      split
      · next heq =>
        obtain rfl := UInt32.toNat_inj.1 heq
        obtain rfl := Option.some.inj (hs.symm.trans h)
        rw [if_pos hsize]
      · exact h
    · exact h

end Allocator

namespace World

variable {w v : World}

def LosesNone (w v : World) : Prop := ∀ e, w.isAlive e = true → v.isAlive e = true

theorem LosesNone.of_entities (h : v.entities = w.entities) : w.LosesNone v := by
  intro e he
  rw [isAlive, h]
  exact he

theorem insertWith_entities (w : World) (e : Entity) (l : Location) (id : Id)
    (fill : Column → Column × List HookEvent) :
    (w.insertWith e l id fill).2.entities = w.entities := by
  unfold insertWith
  split
  · rfl
  · next j s _ =>
    obtain ⟨_, _, _, heq⟩ := moveTo_frame { w with storage := s } e l j
    simp only [heq]
    split <;> rfl

theorem add_entities (w : World) (e : Entity) (id : Id) :
    (w.add e id).2.entities = w.entities := by
  unfold add
  split
  · rfl
  · split
    · rfl
    · split
      · rfl
      · split
        · rfl
        · exact insertWith_entities w e _ id _

theorem put_entities (w : World) (e : Entity) (id : Id) (x : Value) (how : Transfer) :
    (w.put e id x how).2.entities = w.entities := by
  unfold put
  split
  · rfl
  · split
    · rfl
    · split
      · split
        · rfl
        · exact insertWith_entities w e _ id _
      · exact insertWith_entities w e _ id _

theorem spawn_entities (w : World) : w.spawn.2.entities = w.entities.allocate.2 := by
  unfold spawn
  simp only
  split <;> rfl

theorem furnishing_losesNone : Furnishing LosesNone where
  refl _ _ he := he
  trans huv hvw e he := hvw e (huv e he)
  remove w e id := by
    obtain ⟨_, _, _, heq⟩ := remove_eq w e id
    exact .of_entities (by rw [heq])
  setName w e name := by
    obtain ⟨_, _, heq⟩ := setName_eq w e name
    exact .of_entities (by rw [heq])
  spawn w e he := by
    rw [isAlive, spawn_entities]
    exact Allocator.isAlive_allocate_of_isAlive he
  add w e id := .of_entities (add_entities w e id)
  events _ _ := .of_entities rfl
  registerType w d := by
    refine .of_entities ?_
    unfold registerType
    split <;> rfl
  put w e id x how := .of_entities (put_entities w e id x how)
  writeTable _ _ _ _ := .of_entities rfl

/-! ### Commands -/

theorem losesNone_applyCommand {buffer : UInt32} {spawned : List Entity} {c : Command}
    {err : EcsError} (hr : w.applyCommand buffer spawned c = (.error err, v)) : w.LosesNone v := by
  obtain ⟨e, heq⟩ | ⟨op, hop, heq⟩ := w.applyCommand_cases buffer spawned c
  · rw [heq] at hr
    cases (Prod.mk.inj hr).1
  · rw [hr] at heq
    rw [show v = w.perform op from heq]
    exact furnishing_losesNone.sparing w hop

theorem losesNone_applyAll (buffer : UInt32) (commands : List Command) {w : World}
    {report : CommandReport}
    (hnone : (applyAll buffer w report commands).1.applied = report.applied) :
    w.LosesNone (applyAll buffer w report commands).2 := by
  induction commands generalizing w report with
  | nil => exact furnishing_losesNone.refl w
  | cons c rest ih =>
    rw [applyAll_cons] at hnone ⊢
    cases hr : w.applyCommand buffer report.spawned c with
    | mk outcome v =>
      rw [hr] at hnone
      cases outcome with
      | ok made =>
        have hsum := congrArg CommandReport.applied
          (applyAll_fst v buffer (report.after (.ok made)) rest)
        rw [hnone] at hsum
        simp only [CommandReport.after, Outcome.isOk, Bool.toNat_true] at hsum
        omega
      | error err => exact furnishing_losesNone.trans (losesNone_applyCommand hr) (ih hnone)

end World
end EntityWorld
