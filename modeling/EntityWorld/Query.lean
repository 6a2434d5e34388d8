import EntityWorld.Query.Term
import EntityWorld.World.Row
set_option autoImplicit false

/-!
Queries: lists of terms compiled for a world. A query remembers which tables match and how many
tables it has seen; tables created later are looked at when the query is next used.
-/
namespace EntityWorld

structure CompiledTerm where
  id : Id
  role : TermRole
  target : Option Entity
  deriving DecidableEq, Repr

structure Query where
  terms : List CompiledTerm
  source : TermList
  /-- Tables known to match, in creation order. -/
  matched : List ArchetypeId
  /-- Number of tables looked at. -/
  seen : Nat
  deriving DecidableEq, Repr

namespace Query

def compileTerm (w : World) (t : Term) : Except QueryError CompiledTerm :=
  match t.id with
  | .component h =>
    match w.descriptor? h with
    | none => .error (.unknownType h)
    | some d =>
      if t.access = .write ∧ d.isTag then .error (.writeToTag d.path)
      else .ok ⟨Id.component h, t.role, none⟩
  | .pair relation target =>
    match w.descriptor? relation with
    | none => .error (.unknownType relation)
    | some d =>
      if d.classification ≠ .relationship then .error (.notRelationship d.path)
      else match target with
        | .any => .ok ⟨Id.wildcard relation, t.role, none⟩
        | .entity e =>
          if w.isAlive e then .ok ⟨Id.pair relation e, t.role, some e⟩
          else .error (.staleTarget e)

/-- The first required id that is also excluded. -/
def contradiction? (terms : List CompiledTerm) : Option Id :=
  (terms.find? fun t =>
    t.role = .required && terms.any fun u => u.role = .excluded && u.id == t.id).map (·.id)

/-- Compile a list of terms: every term in order, then the check for contradictions. -/
def compile (w : World) (source : TermList) : Except QueryError Query := do
  let terms ← source.mapM (compileTerm w)
  match contradiction? terms with
  | some id =>
    match w.descriptor? id.typeHandle with
    | some d => throw (.contradiction d.path)
    | none => throw (.contradiction id.inspect)
  | none => return ⟨terms, source, [], 0⟩

def admits (q : Query) (a : Archetype) : Bool :=
  q.terms.all fun t =>
    match t.role with
    | .required => a.contains t.id
    | .excluded => !a.contains t.id
    | .optional => true

/-- Some required target has died since the query was compiled. -/
def targetLost (q : Query) (w : World) : Bool :=
  q.terms.any fun t =>
    t.role = .required &&
      match t.target with
      | some e => !w.isAlive e
      | none => false

/-- Look at the tables not seen yet. A query that has seen more tables than there are starts
again. -/
def refresh (q : Query) (w : World) : Query :=
  let count := w.storage.size
  if q.seen = count then q
  else
    let q := if q.seen > count then { q with matched := [], seen := 0 } else q
    let fresh := ((w.storage.since q.seen).filter q.admits).map (·.id)
    { q with matched := q.matched ++ fresh, seen := count }

def candidates (q : Query) (w : World) : Query × List ArchetypeId :=
  if q.targetLost w then (q, [])
  else
    let q := q.refresh w
    (q, q.matched)

/-- A place between two rows of an iteration: the tables from the present one on, and the rows
of that table that are behind. -/
structure Cursor where
  tables : List ArchetypeId
  row : Nat
  deriving DecidableEq, Repr

def Cursor.advance (w : World) : List ArchetypeId → Nat → Option (Row × Cursor)
  | [], _ => none
  | id :: rest, row =>
    match w.storage.get? id with
    | none => none
    | some a =>
      match a.entities[row]? with
      | some e => some (⟨e, id, row⟩, ⟨id :: rest, row + 1⟩)
      | none => Cursor.advance w rest 0

def Cursor.next (c : Cursor) (w : World) : Option (Row × Cursor) := Cursor.advance w c.tables c.row

def Cursor.remaining (c : Cursor) (w : World) : Nat :=
  (c.tables.filterMap w.storage.get?).foldl (fun n a => n + a.size) 0 - c.row

/-- Numbers of rows still to come: at the beginning and after each of at most `n` rows. -/
def Cursor.lengths (w : World) : Nat → Cursor → List Nat
  | 0, c => [c.remaining w]
  | n + 1, c =>
    match c.next w with
    | some (_, next) => c.remaining w :: lengths w n next
    | none => [c.remaining w]

def start (q : Query) (w : World) : Query × Cursor :=
  let (q, tables) := q.candidates w
  (q, ⟨tables, 0⟩)

def tableRows (a : Archetype) : List Row :=
  a.entities.toList.zipIdx.map fun p => ⟨p.1, a.id, p.2⟩

def rows (q : Query) (w : World) : Query × List Row :=
  let (q, tables) := q.candidates w
  (q, (tables.filterMap w.storage.get?).flatMap tableRows)

def chunks (q : Query) (w : World) : Query × List Archetype :=
  let (q, tables) := q.candidates w
  (q, (tables.filterMap w.storage.get?).filter fun a => a.size ≠ 0)

def count (q : Query) (w : World) : Query × Nat :=
  let (q, tables) := q.chunks w
  (q, tables.foldl (fun n a => n + a.size) 0)

def inspect (q : Query) : String :=
  s!"Query \x7b term_count: {q.terms.length}, matching_archetypes: {q.matched.length} \x7d"

end Query
end EntityWorld
