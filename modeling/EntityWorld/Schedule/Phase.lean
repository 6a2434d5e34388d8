set_option autoImplicit false

/-!
Phases of a frame and the order in which they run.
-/
namespace EntityWorld

structure Phase where
  name : String
  deriving DecidableEq, Repr

namespace Phase

/-- Runs once, before the first frame. -/
def onStart : Phase := ⟨"OnStart"⟩
def onLoad : Phase := ⟨"OnLoad"⟩
def postLoad : Phase := ⟨"PostLoad"⟩
def preUpdate : Phase := ⟨"PreUpdate"⟩
def onUpdate : Phase := ⟨"OnUpdate"⟩
def onValidate : Phase := ⟨"OnValidate"⟩
def postUpdate : Phase := ⟨"PostUpdate"⟩
def preStore : Phase := ⟨"PreStore"⟩
def onStore : Phase := ⟨"OnStore"⟩

def inspect (p : Phase) : String := s!"Phase({p.name})"

end Phase

/-- The phases of every frame in order. The start phase comes before them and is not listed. -/
structure Pipeline where
  phases : List Phase
  deriving DecidableEq, Repr

namespace Pipeline

def standard : Pipeline :=
  ⟨[.onLoad, .postLoad, .preUpdate, .onUpdate, .onValidate, .postUpdate, .preStore, .onStore]⟩

def contains (p : Pipeline) (phase : Phase) : Bool :=
  phase == Phase.onStart || p.phases.contains phase

/-- Position in the order of execution; the start phase has rank 0. -/
def rank? (p : Pipeline) (phase : Phase) : Option Nat :=
  if phase = Phase.onStart then some 0 else (p.phases.idxOf? phase).map (· + 1)

/-- Put a new phase right after `anchor`; nothing happens if it is there already. `none` if the
anchor is not listed. -/
def insertAfter? (p : Pipeline) (anchor phase : Phase) : Option Pipeline :=
  if p.contains phase then some p
  else (p.phases.idxOf? anchor).map fun i => ⟨p.phases.insertIdx (i + 1) phase⟩

theorem insertAfter?_of_contains {p : Pipeline} {anchor phase : Phase}
    (h : p.contains phase = true) : p.insertAfter? anchor phase = some p := by
  simp [insertAfter?, h]

end Pipeline
end EntityWorld
