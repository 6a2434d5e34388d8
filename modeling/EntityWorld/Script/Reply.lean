import EntityWorld.Recipe
set_option autoImplicit false

/-!
What scripts tell their host: the results of what they did, in a form that keeps the meaning of
every value.
-/
namespace EntityWorld

inductive Reply where
  | nothing
  | flag (b : Bool)
  | number (n : Nat)
  | text (s : String)
  | entity (e : Entity)
  | typed (t : HostType) (v : Value)
  | stored (v : ComponentValue)
  | list (replies : List Reply)
  | rows (n : Nat)
  | failure (e : RecipeError)

namespace Reply

def ofOption {α : Type} (f : α → Reply) : Option α → Reply
  | some a => f a
  | none => nothing

def isNothing : Reply → Bool
  | nothing => true
  | _ => false

end Reply
end EntityWorld
