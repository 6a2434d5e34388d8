import EntityWorld.ComponentValue
import EntityWorld.World.Structure
set_option autoImplicit false

/-!
Values going into a world and out of it. Reading hands out copies; writing moves an owned value
in or copies a borrowed one.
-/
namespace EntityWorld

inductive Transfer where
  | move
  | copy
  deriving DecidableEq, Repr

def Transfer.push (how : Transfer) (c : Column) (v : Value) : Column × List HookEvent :=
  match how with
  | .move => c.pushMove v
  | .copy => c.pushCopy v

def Transfer.assign (how : Transfer) (c : Column) (row : Nat) (v : Value) :
    Column × List HookEvent :=
  match how with
  | .move => c.assignMove row v
  | .copy => c.assignCopy row v

namespace World

/-- Put a value under `id`, in place of the old one or as a new id of the entity. -/
def put (w : World) (e : Entity) (id : Id) (v : Value) (how : Transfer) :
    Except EcsError Unit × World :=
  match w.place e with
  | .error err => (.error err, w)
  | .ok loc =>
    match w.checkId id with
    | .error err => (.error err, w)
    | .ok _ =>
      match w.storage.get? loc.archetype with
      | some a =>
        match a.column? id with
        | some _ =>
          let (a, events) := a.updateColumn id fun c => how.assign c loc.row v
          (.ok (), { w with storage := w.storage.set a }.note events)
        | none => w.insertWith e loc id fun c => how.push c v
      | none => w.insertWith e loc id fun c => how.push c v

/-- Copy out a value as a host type; `none` if the entity lacks it or is dead. -/
def read (w : World) (e : Entity) (h : TypeHandle) (t : HostType) :
    Except EcsError (Option Value) × World :=
  match w.descriptor h with
  | .error err => (.error err, w)
  | .ok d =>
    match d.checkTyped t with
    | .error err => (.error err, w)
    | .ok () =>
      match w.peek e (Id.component h) with
      | some v => (.ok (some v), w.note (d.copyEvents v))
      | none => (.ok none, w)

def readValue (w : World) (e : Entity) (id : Id) : Option ComponentValue × World :=
  match w.descriptor? id.typeHandle with
  | none => (none, w)
  | some d =>
    match w.peek e id with
    | some v => (some ⟨d, v⟩, w.note (d.copyEvents v))
    | none => (none, w)

def putTyped (w : World) (e : Entity) (h : TypeHandle) (t : HostType) (v : Value) (how : Transfer) :
    Except EcsError Unit × World :=
  match w.descriptor h with
  | .error err => (.error err, w)
  | .ok d =>
    match d.checkTyped t with
    | .error err => (.error err, w)
    | .ok () => w.put e (Id.component h) v how

def write (w : World) (e : Entity) (h : TypeHandle) (t : HostType) (v : Value) :
    Except EcsError Unit × World :=
  w.putTyped e h t v .move

def writeRef (w : World) (e : Entity) (h : TypeHandle) (t : HostType) (v : Value) :
    Except EcsError Unit × World :=
  w.putTyped e h t v .copy

/-- Move an owned value into storage. It is used up: if it cannot be stored, it is destroyed. -/
def writeValue (w : World) (e : Entity) (v : ComponentValue) : Except EcsError Unit × World :=
  match w.put e (Id.component v.handle) v.value .move with
  | (.ok (), w) => (.ok (), w)
  | (.error err, w) => (.error err, w.note v.dropEvents)

def writeValueRef (w : World) (e : Entity) (v : ComponentValue) : Except EcsError Unit × World :=
  w.put e (Id.component v.handle) v.value .copy

def writeBytes (w : World) (e : Entity) (h : TypeHandle) (bytes : Bytes) :
    Except EcsError Unit × World :=
  match ComponentValue.ofBytes w.registry h bytes with
  | .error err => (.error err, w)
  | .ok v => w.writeValue e v

/-- Make sure that `e` has `id`, with the default value if need be; tells the type. -/
def ensureDefault (w : World) (e : Entity) (id : Id) : Except EcsError TypeDescriptor × World :=
  match w.add e id with
  | (.error err, w) => (.error err, w)
  | (.ok _, w) =>
    match w.peek e id with
    | none => (.error (.staleHandle e), w)
    | some _ => (w.descriptor id.typeHandle, w)

def ensureDefaultTyped (w : World) (e : Entity) (h : TypeHandle) (t : HostType) :
    Except EcsError Value × World :=
  match w.descriptor h with
  | .error err => (.error err, w)
  | .ok d =>
    match d.checkTyped t with
    | .error err => (.error err, w)
    | .ok () =>
      match w.add e (Id.component h) with
      | (.error err, w) => (.error err, w)
      | (.ok _, w) =>
        match w.peek e (Id.component h) with
        | none => (.error (.staleHandle e), w)
        | some v => (.ok v, w)

/-- Overwrite a stored value where it stands, without any hook. -/
def overwrite (w : World) (e : Entity) (id : Id) (v : Value) : World :=
  match w.location? e with
  | none => w
  | some loc =>
    match w.storage.get? loc.archetype with
    | none => w
    | some a =>
      let (a, _) := a.updateColumn id fun c =>
        ({ c with rows := c.rows.setIfInBounds loc.row v }, [])
      { w with storage := w.storage.set a }

inductive OverwriteError where
  | notTrivial
  | length (size : Nat)
  deriving DecidableEq, Repr

def overwriteBytes (w : World) (e : Entity) (id : Id) (d : TypeDescriptor) (bytes : Bytes) :
    Except OverwriteError Unit × World :=
  if !d.flags.trivial then (.error .notTrivial, w)
  else if bytes.length ≠ d.size then (.error (.length d.size), w)
  else (.ok (), w.overwrite e id (.plain bytes))

/-- Overwrite a stored value of type `d` as a host type; tells the old value, or `none` if the
host type does not fit. -/
def overwriteTyped (w : World) (e : Entity) (id : Id) (d : TypeDescriptor) (t : HostType)
    (v : Value) : Option Value × World :=
  if d.accepts t then (w.peek e id, w.overwrite e id v) else (none, w)

end World
end EntityWorld
