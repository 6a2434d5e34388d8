set_option autoImplicit false

/-!
Failures as a host gets to see them: the name of the innermost cause, and the wording of the
error as a whole.
-/
namespace EntityWorld

structure Failure where
  code : String
  message : String
  deriving DecidableEq, Repr

class Failing (ε : Type) where
  failure : ε → Failure

export Failing (failure)

instance : Failing Failure := ⟨id⟩

end EntityWorld
