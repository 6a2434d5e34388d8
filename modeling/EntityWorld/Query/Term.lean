import EntityWorld.Id
set_option autoImplicit false

/-!
Terms of a query: what an entity must have, must not have or may have, and how its values are
used.
-/
namespace EntityWorld

inductive Access where
  | none
  | read
  | write
  deriving DecidableEq, Repr

inductive TermRole where
  | required
  | excluded
  | optional
  deriving DecidableEq, Repr

inductive TermTarget where
  | entity (e : Entity)
  | any
  deriving DecidableEq, Repr

inductive TermId where
  | component (h : TypeHandle)
  | pair (relation : TypeHandle) (target : TermTarget)
  deriving DecidableEq, Repr

structure Term where
  id : TermId
  role : TermRole
  access : Access
  deriving DecidableEq, Repr

abbrev TermList := List Term

namespace Term

def read (h : TypeHandle) : Term := ⟨.component h, .required, .read⟩
def write (h : TypeHandle) : Term := ⟨.component h, .required, .write⟩
def having (h : TypeHandle) : Term := ⟨.component h, .required, .none⟩
def without (h : TypeHandle) : Term := ⟨.component h, .excluded, .none⟩
def optionalRead (h : TypeHandle) : Term := ⟨.component h, .optional, .read⟩
def optionalWrite (h : TypeHandle) : Term := ⟨.component h, .optional, .write⟩
def pair (relation : TypeHandle) (target : Entity) : Term :=
  ⟨.pair relation (.entity target), .required, .none⟩
def pairAny (relation : TypeHandle) : Term := ⟨.pair relation .any, .required, .none⟩
def withoutPair (relation : TypeHandle) (target : TermTarget) : Term :=
  ⟨.pair relation target, .excluded, .none⟩

def accessText : Access → String
  | .none => "None"
  | .read => "Read"
  | .write => "Write"

def roleText : TermRole → String
  | .required => "And"
  | .excluded => "Not"
  | .optional => "Optional"

def idText : TermId → String
  | .component h => s!"Component({h.inspect})"
  | .pair relation (.entity e) => s!"Pair({relation.inspect}, Entity({e.inspect}))"
  | .pair relation .any => s!"Pair({relation.inspect}, Any)"

def inspect (t : Term) : String :=
  s!"Term \x7b id: {idText t.id}, oper: {roleText t.role}, access: {accessText t.access} \x7d"

end Term

namespace TermList

def accessed (terms : TermList) (access : Access) : List TypeHandle :=
  terms.filterMap fun t =>
    match t.id with
    | .component h => if t.access = access ∧ t.role ≠ .excluded then some h else none
    | .pair _ _ => none

def reads (terms : TermList) : List TypeHandle := accessed terms .read

def writes (terms : TermList) : List TypeHandle := accessed terms .write

end TermList
end EntityWorld
