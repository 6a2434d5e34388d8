import EntityWorld.FinMap
import EntityWorld.Schema.Descriptor
set_option autoImplicit false

/-!
The registry of component types. Types are numbered in order of registration and found by
handle, by path, by the hash of the path and by host type.
-/
namespace EntityWorld

structure Registry where
  entries : List TypeDescriptor
  byPath : FinMap String TypeHandle
  byStableId : FinMap UInt32 TypeHandle
  byHostType : FinMap HostType TypeHandle

namespace Registry

def empty : Registry := ⟨[], .empty, .empty, .empty⟩

/-- The largest handle that a pair id has room for. -/
def maxHandle : Nat := 0x7fffffff

def descriptor? (r : Registry) (h : TypeHandle) : Option TypeDescriptor := r.entries[h.raw.toNat]?

def contains (r : Registry) (h : TypeHandle) : Bool := h.raw.toNat < r.entries.length

def lookup (r : Registry) (path : String) : Option TypeHandle := r.byPath.get? path

def ofStableId? (r : Registry) (id : UInt32) : Option TypeHandle := r.byStableId.get? id

def handleOf? (r : Registry) (t : HostType) : Option TypeHandle := r.byHostType.get? t

def size (r : Registry) : Nat := r.entries.length

def pathOf (r : Registry) (h : TypeHandle) : String :=
  match r.descriptor? h with
  | some d => d.path
  | none => ""

/-- The type that a checked description becomes. A type of size zero has no hooks; it is a tag
unless it was described as a relationship. -/
def freeze (desc : TypeDescription) (handle : TypeHandle) : TypeDescriptor where
  handle := handle
  path := desc.path
  stableId := stableIdOf desc.path
  size := desc.size
  align := desc.align
  classification :=
    if desc.size = 0 ∧ desc.classification ≠ .relationship then .tag else desc.classification
  hooks := if desc.size = 0 then {} else desc.hooks
  flags :=
    if desc.size = 0 then { desc.flags with trivial := true, zeroInit := true } else desc.flags
  fields := desc.fields
  codec := desc.codec
  hostType := desc.hostType
  cleanup := desc.cleanup

def push (r : Registry) (d : TypeDescriptor) : Registry where
  entries := r.entries ++ [d]
  byPath := r.byPath.insert d.path d.handle
  byStableId := r.byStableId.insert d.stableId d.handle
  byHostType :=
    match d.hostType with
    | some t => r.byHostType.insert t d.handle
    | none => r.byHostType

def register (r : Registry) (desc : TypeDescription) : Except SchemaError (TypeHandle × Registry) :=
  match desc.check with
  | .error e => .error e
  | .ok () =>
    match r.lookup desc.path with
    | some h =>
      match r.descriptor? h with
      | some existing =>
        if existing.sameShape desc then .ok (h, r) else .error (.conflict desc.path)
      | none => .error (.conflict desc.path)
    | none =>
      match r.ofStableId? (stableIdOf desc.path) with
      | some other =>
        .error (.stableIdCollision desc.path (stableIdOf desc.path) (r.pathOf other))
      | none =>
        if r.size > maxHandle then .error (.registryFull desc.path)
        else
          let h : TypeHandle := ⟨UInt32.ofNat r.size⟩
          .ok (h, r.push (freeze desc h))

def registerAll (r : Registry) : List TypeDescription → Except SchemaError Registry
  | [] => .ok r
  | d :: rest =>
    match r.register d with
    | .ok (_, r) => r.registerAll rest
    | .error e => .error e

def inspect (r : Registry) : String := s!"TypeRegistry \x7b types: {r.size} \x7d"

end Registry
end EntityWorld
