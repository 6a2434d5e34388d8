import EntityWorld.Proofs.World.Reachable
set_option autoImplicit false

/-!
The types of a world. Until a shutdown types are only ever registered, and a shutdown leaves the
built-in ones; so the hierarchy relation is there at all times.
-/
namespace EntityWorld.World

variable {v w : World}

/-- The types are the built-in ones and others that were registered after them. -/
structure Typed (w : World) : Prop where
  registry : builtins.2.Grows w.registry
  childOf : w.childOf = builtins.1

theorem indexed_builtins : builtins.2.Indexed := by
  have hr : Registry.empty.register childOfDescription = .ok builtins := rfl
  exact Registry.Indexed.empty.register hr

theorem traced_builtins : builtins.2.Traced := by
  have hr : Registry.empty.register childOfDescription = .ok builtins := rfl
  exact Registry.Traced.empty.register hr

def Enrols (w v : World) : Prop := w.registry.Grows v.registry ∧ v.childOf = w.childOf

theorem rowless_enrols : Rowless Enrols where
  refl _ := ⟨.refl, rfl⟩
  trans huv hvw := ⟨huv.1.trans hvw.1, hvw.2.trans huv.2⟩
  rows _ _ _ _ := ⟨.refl, rfl⟩
  listeners _ _ := ⟨.refl, rfl⟩
  setName w e name := by
    obtain ⟨n, k, heq⟩ := setName_eq w e name
    rw [heq]
    exact ⟨.refl, rfl⟩
  registerType w d := by
    unfold registerType
    split
    · next hr => exact ⟨.register .refl hr, rfl⟩
    · exact ⟨.refl, rfl⟩
  allocate _ _ := ⟨.refl, rfl⟩
  despawnOne hw he := by
    obtain ⟨l, a, hs⟩ := hw.stands he
    obtain ⟨places, n, k, -, heq⟩ := hs.despawnOne_eq
    rw [heq]
    exact ⟨.refl, rfl⟩

namespace Typed

theorem new : World.new.Typed := ⟨.refl, rfl⟩

theorem shutdown (w : World) : w.shutdown.Typed := by
  obtain ⟨heard, heq⟩ := shutdown_eq w
  rw [heq]
  exact ⟨.refl, rfl⟩

theorem enrols (h : w.Typed) (hv : Enrols w v) : v.Typed :=
  ⟨h.registry.trans hv.1, hv.2.trans h.childOf⟩

theorem indexed (h : w.Typed) : w.registry.Indexed := h.registry.indexed indexed_builtins

theorem becomes {c : Contents} (h : w.Typed) (hv : w.Becomes c v) : v.Typed :=
  h.enrols ⟨hv.registry ▸ .refl, by rw [hv.frame]⟩

theorem traced (h : w.Typed) : w.registry.Traced := h.registry.traced traced_builtins

theorem descriptor?_childOf (h : w.Typed) :
    w.descriptor? w.childOf = some (Registry.freeze childOfDescription ⟨0⟩) := by
  rw [h.childOf]
  exact h.registry.descriptor? rfl

theorem perform (h : w.Typed) (hw : w.WellFormed) (op : Operation) (hf : (w.perform op).Fits) :
    (w.perform op).Typed := by
  by_cases hop : op = .shutdown
  · subst hop
    exact shutdown w
  · exact h.enrols ((rowless_enrols.throughout.perform w hop).holds hw hf)

end Typed

theorem Reachable.typed (h : w.Reachable) : w.Typed := by
  induction h with
  | new => exact .new
  | step op hr hf ih => exact ih.perform hr.wellFormed op hf

end EntityWorld.World
