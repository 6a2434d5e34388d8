import EntityWorld.World.Value
set_option autoImplicit false

/-!
Recipes: component values that are still to be made, once the types of a world are known.
-/
namespace EntityWorld

inductive Recipe where
  | typed (h : TypeHandle) (t : HostType) (v : Value)
  | bytes (h : TypeHandle) (bs : Bytes)
  | default (h : TypeHandle)
  | filled (h : TypeHandle) (bs : Bytes)
  deriving DecidableEq, Repr

inductive RecipeError where
  | ecs (cause : EcsError)
  /-- The host has another number of bytes than the place takes. -/
  | wrongLength
  deriving DecidableEq, Repr

namespace RecipeError

def message : RecipeError → String
  | ecs cause => cause.message
  | wrongLength => "wrong length"

def code : RecipeError → String
  | ecs cause => cause.code
  | wrongLength => "init"

def toEcsError : RecipeError → EcsError
  | ecs cause => cause
  | wrongLength => .tagValue "wrong length"

def ofEcs {α : Type} : Except EcsError α → Except RecipeError α
  | .ok a => .ok a
  | .error e => .error (.ecs e)

end RecipeError

instance : Failing RecipeError := ⟨fun e => ⟨e.code, e.message⟩⟩

def World.build (w : World) (r : Recipe) : Except RecipeError ComponentValue × World :=
  match r with
  | .typed h t v => (RecipeError.ofEcs (ComponentValue.ofTyped w.registry h t v), w)
  | .bytes h bs => (RecipeError.ofEcs (ComponentValue.ofBytes w.registry h bs), w)
  | .default h =>
    match ComponentValue.default w.registry h with
    | .ok (v, events) => (.ok v, w.note events)
    | .error e => (.error (.ecs e), w)
  | .filled h bs =>
    let fill (d : TypeDescriptor) : Except RecipeError Value :=
      if bs.length = d.size then .ok (.plain bs) else .error .wrongLength
    match ComponentValue.fill w.registry h fill with
    | .ok result => (result, w)
    | .error e => (.error (.ecs e), w)

end EntityWorld
