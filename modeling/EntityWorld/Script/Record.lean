import EntityWorld.Host.Record
import EntityWorld.Recipe
set_option autoImplicit false

/-!
Records as data: their values are recipes.
-/
namespace EntityWorld

inductive RecordDraft where
  | nil
  | default (h : TypeHandle) (rest : RecordDraft)
  | value (v : Recipe) (rest : RecordDraft)
  | pair (relation : TypeHandle) (target : ObjectId) (rest : RecordDraft)
  | name (name : String) (rest : RecordDraft)
  | sub (name : String) (record : RecordDraft) (rest : RecordDraft)
  deriving DecidableEq, Repr

instance : Inhabited RecordDraft := ⟨.nil⟩

namespace RecordDraft

/-- Make the values of a draft in order; `made` puts the seeds made so far before a record. If a
value cannot be made, the values of its own record are given up first, then those around it. -/
def buildAfter (w : World) (made : EntityRecord → EntityRecord) :
    RecordDraft → Except RecipeError EntityRecord × World
  | nil => (.ok (made .nil), w)
  | default h rest => rest.buildAfter w fun r => made (.default h r)
  | pair relation target rest => rest.buildAfter w fun r => made (.pair relation target r)
  | name n rest => rest.buildAfter w fun r => made (.name n r)
  | value recipe rest =>
    match w.build recipe with
    | (.ok v, w) => rest.buildAfter w fun r => made (.value v r)
    | (.error e, w) => (.error e, w.note (made .nil).dropEvents)
  | sub n record rest =>
    match record.buildAfter w id with
    | (.ok inner, w) => rest.buildAfter w fun r => made (.sub n inner r)
    | (.error e, w) => (.error e, w.note (made .nil).dropEvents)

def build (d : RecordDraft) (w : World) : Except RecipeError EntityRecord × World :=
  d.buildAfter w id

end RecordDraft
end EntityWorld
