import EntityWorld.Schema.Registry
set_option autoImplicit false

/-!
Owned values of registered types, outside of any table. A value carries the type it was built
for, as that type was registered then.
-/
namespace EntityWorld

structure ComponentValue where
  type : TypeDescriptor
  value : Value

namespace ComponentValue

def handle (v : ComponentValue) : TypeHandle := v.type.handle

def find (r : Registry) (h : TypeHandle) : Except EcsError TypeDescriptor :=
  match r.descriptor? h with
  | some d => .ok d
  | none => .error (.unknownType h)

def ofTyped (r : Registry) (h : TypeHandle) (t : HostType) (v : Value) :
    Except EcsError ComponentValue := do
  let d ← find r h
  d.checkTyped t
  return ⟨d, v⟩

def default (r : Registry) (h : TypeHandle) :
    Except EcsError (ComponentValue × List HookEvent) := do
  let d ← find r h
  match d.default? with
  | some (v, events) => return (⟨d, v⟩, events)
  | none => throw (.schema (.noDefault d.path))

def ofBytes (r : Registry) (h : TypeHandle) (bytes : Bytes) : Except EcsError ComponentValue := do
  let d ← find r h
  if d.flags.trivial && bytes.length == d.size then return ⟨d, .plain bytes⟩
  else throw (.typeMismatch d.path d.size d.align bytes.length 1)

/-- A value that the host fills in by itself; its own fault is told apart from an unknown type. -/
def fill {ε : Type} (r : Registry) (h : TypeHandle) (init : TypeDescriptor → Except ε Value) :
    Except EcsError (Except ε ComponentValue) := do
  let d ← find r h
  return (init d).map fun v => ⟨d, v⟩

def get? (v : ComponentValue) (t : HostType) : Option Value :=
  if v.type.accepts t then some v.value else none

def bytes? (v : ComponentValue) : Option Bytes :=
  if v.type.flags.trivial then some v.value.bytes else none

def copyEvents (v : ComponentValue) : List HookEvent := v.type.copyEvents v.value

def dropEvents (v : ComponentValue) : List HookEvent := v.type.dropEvents v.value

def inspect (v : ComponentValue) : String :=
  s!"ComponentValue \x7b type: {Text.quote v.type.path}, size: {v.type.size} \x7d"

end ComponentValue
end EntityWorld
