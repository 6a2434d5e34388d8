import EntityWorld.Error
import EntityWorld.Payload
set_option autoImplicit false

/-!
Descriptions of component types as a host hands them in, and the checks a description has to
pass before it is registered.
-/
namespace EntityWorld

inductive Classification where
  | data
  | tag
  | relationship
  deriving DecidableEq, Repr

def Classification.name : Classification → String
  | .data => "Data"
  | .tag => "Tag"
  | .relationship => "Relationship"

/-- What becomes of a pair when its target is despawned: the pair is removed, or the entity that
holds it is despawned too. -/
inductive CleanupPolicy where
  | remove
  | delete
  deriving DecidableEq, Repr

def CleanupPolicy.name : CleanupPolicy → String
  | .remove => "Remove"
  | .delete => "Delete"

inductive FieldKind where
  | plain
  | owning
  | weak
  deriving DecidableEq, Repr

def FieldKind.name : FieldKind → String
  | .plain => "Plain"
  | .owning => "OwningReference"
  | .weak => "WeakReference"

structure Field where
  name : String
  offset : Nat
  kind : FieldKind
  deriving DecidableEq, Repr

/-- Hooks of the host for values of a type. Copying and moving keep a value as it is, so a hook
is known by its presence and a default hook by the value that it builds. A watched hook set is
one whose calls the host wants to see. -/
structure Hooks where
  default : Option Value := none
  copy : Bool := false
  move : Bool := false
  drop : Bool := false
  watched : Bool := false
  deriving DecidableEq, Repr

def Hooks.inspect (h : Hooks) : String :=
  "LifecycleHooks \x7b " ++
    s!"default: {h.default.isSome}, copy: {h.copy}, move: {h.move}, drop: {h.drop}" ++ " \x7d"

structure TypeFlags where
  trivial : Bool := false
  zeroInit : Bool := false
  replicable : Bool := false
  deriving DecidableEq, Repr

def TypeFlags.bits (f : TypeFlags) : Nat :=
  f.trivial.toNat + 2 * f.zeroInit.toNat + 4 * f.replicable.toNat

structure TypeDescription where
  path : String
  size : Nat
  align : Nat
  classification : Classification := .data
  hooks : Hooks := {}
  flags : TypeFlags := {}
  fields : List Field := []
  codec : Option PayloadCodec := none
  hostType : Option HostType := none
  cleanup : CleanupPolicy := .remove

namespace TypeDescription

def tag (path : String) : TypeDescription where
  path := path
  size := 0
  align := 1
  classification := .tag
  flags := { trivial := true, zeroInit := true }

def plain (t : HostType) (path : String) : TypeDescription where
  path := path
  size := t.size
  align := t.align
  hostType := some t
  flags := { trivial := true, zeroInit := true }

def managed (t : HostType) (path : String) : TypeDescription where
  path := path
  size := t.size
  align := t.align
  hostType := some t
  hooks := { copy := true, move := true, drop := t.ownsMemory }

def withDefault (d : TypeDescription) (t : HostType) : TypeDescription :=
  { d with hooks := { d.hooks with default := some t.default } }

def relationship (d : TypeDescription) (cleanup : CleanupPolicy) : TypeDescription :=
  { d with classification := .relationship, cleanup := cleanup }

def replicated (d : TypeDescription) (codec : PayloadCodec) : TypeDescription :=
  { d with flags := { d.flags with replicable := true }, codec := some codec }

def isPowerOfTwo (n : Nat) : Bool := n ≠ 0 && 1 <<< n.log2 == n

/-- The checks in their order; the first that fails is reported. -/
def check (d : TypeDescription) : Except SchemaError Unit :=
  if d.path.isEmpty then .error .emptyPath
  else if !isPowerOfTwo d.align then .error (.badAlignment d.path d.align)
  else if d.size % d.align ≠ 0 then .error (.badSize d.path d.size d.align)
  else if d.classification = .tag ∧ d.size ≠ 0 then .error (.sizedTag d.path d.size)
  else
    let owner := d.fields.find? fun f => f.kind = .owning
    if d.size = 0 then .ok ()
    else match owner, d.hooks.drop with
      | some f, false => .error (.missingDestructor d.path f.name)
      | _, _ =>
        if !d.flags.trivial && !d.hooks.copy then .error (.missingCopy d.path)
        else if d.size + d.align > 0x8000000000000000 then .error (.badSize d.path d.size d.align)
        else .ok ()

end TypeDescription
end EntityWorld
