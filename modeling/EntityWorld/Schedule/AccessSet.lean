import EntityWorld.Query.Term
set_option autoImplicit false

/-!
The component types that a system reads and writes, and the types over which two systems clash.
-/
namespace EntityWorld

/-- Types written, and types read but not written. -/
structure AccessSet where
  reads : List TypeHandle
  writes : List TypeHandle
  deriving DecidableEq, Repr

namespace AccessSet

/-- Append the members of `hs` that are neither barred nor there already. -/
def collect (barred : List TypeHandle) : List TypeHandle → List TypeHandle → List TypeHandle
  | acc, [] => acc
  | acc, h :: hs =>
    if barred.contains h || acc.contains h then collect barred acc hs
    else collect barred (acc ++ [h]) hs

def ofTerms (terms : TermList) : AccessSet :=
  let writes := collect [] [] terms.writes
  ⟨collect writes [] terms.reads, writes⟩

def canWrite (s : AccessSet) (h : TypeHandle) : Bool := s.writes.contains h

def canRead (s : AccessSet) (h : TypeHandle) : Bool := s.reads.contains h || s.canWrite h

/-- Types that one writes and the other reads or writes: first those written by `a`. -/
def conflicts (a b : AccessSet) : List TypeHandle :=
  (a.writes.filter fun h => b.writes.contains h || b.reads.contains h) ++
    b.writes.filter fun h => a.reads.contains h

end AccessSet
end EntityWorld
