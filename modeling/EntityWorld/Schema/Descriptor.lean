import EntityWorld.Schema.Description
set_option autoImplicit false

/-!
Registered types, and what happens to a value of a type when it is built, copied, moved or
destroyed. The hooks that run are told as events, in the order in which they run.
-/
namespace EntityWorld

/-- A registered type. It never changes after registration. -/
structure TypeDescriptor where
  handle : TypeHandle
  path : String
  stableId : UInt32
  size : Nat
  align : Nat
  classification : Classification
  hooks : Hooks
  flags : TypeFlags
  fields : List Field
  codec : Option PayloadCodec
  hostType : Option HostType
  cleanup : CleanupPolicy

/-- How a value came about or went away: built by the default hook, built as zeros, copied by the
copy hook, moved by the move hook, or destroyed by the drop hook. -/
inductive EventKind where
  | constructed
  | zeroed
  | copied
  | moved
  | dropped
  deriving DecidableEq, Repr

structure HookEvent where
  kind : EventKind
  type : TypeDescriptor
  value : Value

def HookEvent.text (e : HookEvent) : String :=
  match e.kind with
  | .constructed => "default"
  | .zeroed => "zero"
  | .copied => s!"copy {e.value.toNat}"
  | .moved => s!"move {e.value.toNat}"
  | .dropped => s!"drop {e.value.toNat}"

/-- The calls of hooks that are watched. A value of zeros is made without a hook. -/
def HookEvent.watchedCalls (events : List HookEvent) : List HookEvent :=
  events.filter fun e => e.type.hooks.watched && e.kind ≠ .zeroed

/-- Hash of a path that is the same on every machine: 32-bit FNV-1a over its UTF-8 bytes. -/
def stableIdOf (path : String) : UInt32 :=
  (utf8 path).foldl (fun h b => (h ^^^ b.toUInt32) * 0x01000193) 0x811c9dc5

namespace TypeDescriptor

def isTag (d : TypeDescriptor) : Bool := d.size == 0

def canDefault (d : TypeDescriptor) : Bool :=
  d.hooks.default.isSome || d.flags.zeroInit || d.size == 0

def event (d : TypeDescriptor) (kind : EventKind) (v : Value) : HookEvent := ⟨kind, d, v⟩

def default? (d : TypeDescriptor) : Option (Value × List HookEvent) :=
  match d.hooks.default with
  | some v => some (v, [d.event .constructed v])
  | none =>
    if d.canDefault then
      let v := Value.zeros d.size
      some (v, [d.event .zeroed v])
    else none

def copyEvents (d : TypeDescriptor) (v : Value) : List HookEvent :=
  if d.hooks.copy then [d.event .copied v] else []

def dropEvents (d : TypeDescriptor) (v : Value) : List HookEvent :=
  if d.hooks.drop then [d.event .dropped v] else []

/-- Without a move hook, a trivial value is moved bytewise and any other one is copied and then
destroyed at its old place. -/
def moveEvents (d : TypeDescriptor) (v : Value) : List HookEvent :=
  if d.hooks.move then [d.event .moved v]
  else if d.flags.trivial || !d.hooks.copy then []
  else d.copyEvents v ++ d.dropEvents v

def accepts (d : TypeDescriptor) (t : HostType) : Bool :=
  d.size == t.size && d.align == t.align &&
    match d.hostType with
    | none => true
    | some own => own == t

def checkTyped (d : TypeDescriptor) (t : HostType) : Except EcsError Unit :=
  if d.size ≠ t.size ∨ d.align ≠ t.align then
    .error (.typeMismatch d.path d.size d.align t.size t.align)
  else match d.hostType with
    | none => .ok ()
    | some own => if own = t then .ok () else .error (.foreignType d.path)

theorem checkTyped_isOk_iff (d : TypeDescriptor) (t : HostType) :
    d.checkTyped t = .ok () ↔ d.accepts t = true := by
  unfold checkTyped accepts
  by_cases h : d.size ≠ t.size ∨ d.align ≠ t.align
  · rw [if_pos h]
    rcases h with h | h <;> simp [h]
  · rw [if_neg h]
    have h' : d.size = t.size ∧ d.align = t.align := by
      refine ⟨Decidable.byContradiction fun e => h (.inl e),
        Decidable.byContradiction fun e => h (.inr e)⟩
    cases d.hostType with
    | none => simp [h'.1, h'.2]
    | some own => by_cases ho : own = t <;> simp [h'.1, h'.2, ho]

def sameShape (d : TypeDescriptor) (desc : TypeDescription) : Bool :=
  d.size == desc.size && d.align == desc.align &&
    (d.classification == desc.classification || (d.classification == .tag && desc.size == 0))

end TypeDescriptor
end EntityWorld
