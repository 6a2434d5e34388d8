import EntityWorld.Id
import EntityWorld.Text.Quoted
import EntityWorld.Failure
set_option autoImplicit false

/-!
Why a registration, a query or an operation on a world fails, and the wording of each cause.
-/
namespace EntityWorld

inductive SchemaError where
  | emptyPath
  | badAlignment (path : String) (align : Nat)
  | badSize (path : String) (size align : Nat)
  | sizedTag (path : String) (size : Nat)
  | missingDestructor (path field : String)
  | missingCopy (path : String)
  | noDefault (path : String)
  | conflict (path : String)
  | stableIdCollision (path : String) (stableId : UInt32) (existing : String)
  | registryFull (path : String)
  deriving DecidableEq, Repr

def SchemaError.message : SchemaError → String
  | .emptyPath => "type description has an empty path"
  | .badAlignment path align => s!"type {path}: alignment {align} is not a power of two"
  | .badSize path size align =>
    s!"type {path}: size {size} is not a multiple of alignment {align}"
  | .sizedTag path size => s!"type {path}: tags must be zero-sized, got {size} bytes"
  | .missingDestructor path field =>
    s!"type {path}: field {field} owns a reference but no destructor hook was supplied"
  | .missingCopy path => s!"type {path}: non-trivial types must supply a copy hook"
  | .noDefault path => s!"type {path}: no default-construct hook and not zero-initialisable"
  | .conflict path => s!"type {path} already registered with a different layout"
  | .stableIdCollision path stableId existing =>
    s!"type {path} hashes to stable id 0x{Text.hex8 stableId.toNat}, already used by {existing}"
  | .registryFull path => s!"type {path}: relationship ids are limited to 31 bits"

def SchemaError.code : SchemaError → String
  | .emptyPath => "SchemaError.EmptyPath"
  | .badAlignment .. => "SchemaError.BadAlignment"
  | .badSize .. => "SchemaError.BadSize"
  | .sizedTag .. => "SchemaError.SizedTag"
  | .missingDestructor .. => "SchemaError.MissingDestructor"
  | .missingCopy .. => "SchemaError.MissingCopy"
  | .noDefault .. => "SchemaError.NoDefault"
  | .conflict .. => "SchemaError.Conflict"
  | .stableIdCollision .. => "SchemaError.StableIdCollision"
  | .registryFull .. => "SchemaError.RegistryFull"

inductive QueryError where
  | unknownType (handle : TypeHandle)
  | contradiction (path : String)
  | writeToTag (path : String)
  | notRelationship (path : String)
  | wildcardStored (path : String)
  | staleTarget (target : Entity)
  deriving DecidableEq, Repr

def QueryError.message : QueryError → String
  | .unknownType handle => s!"term references unregistered type {handle.inspect}"
  | .contradiction path => s!"type {path} is both required and excluded"
  | .writeToTag path => s!"type {path} is a tag and cannot be written"
  | .notRelationship path => s!"type {path} is not a relationship"
  | .wildcardStored path => s!"wildcard pair on {path} cannot be stored on an entity"
  | .staleTarget target => s!"pair target {target.text} is not alive"

def QueryError.code : QueryError → String
  | .unknownType .. => "QueryError.UnknownType"
  | .contradiction .. => "QueryError.Contradiction"
  | .writeToTag .. => "QueryError.WriteToTag"
  | .notRelationship .. => "QueryError.NotRelationship"
  | .wildcardStored .. => "QueryError.WildcardStored"
  | .staleTarget .. => "QueryError.StaleTarget"

inductive EcsError where
  | schema (cause : SchemaError)
  | query (cause : QueryError)
  | typeMismatch (path : String) (expectedSize expectedAlign foundSize foundAlign : Nat)
  | foreignType (path : String)
  | staleHandle (entity : Entity)
  | unknownType (handle : TypeHandle)
  | missingComponent (entity : Entity) (path : String)
  | accessViolation (path : String)
  | tagValue (path : String)
  | foreignPending (index : UInt32)
  deriving DecidableEq, Repr

def EcsError.message : EcsError → String
  | .schema cause => cause.message
  | .query cause => cause.message
  | .typeMismatch path expectedSize expectedAlign foundSize foundAlign =>
    s!"type mismatch on {path}: expected {expectedSize}b/align {expectedAlign}, " ++
      s!"got {foundSize}b/align {foundAlign}"
  | .foreignType path => s!"type mismatch on {path}: value belongs to a different Rust type"
  | .staleHandle entity => s!"entity {entity.text} is stale or was never allocated"
  | .unknownType handle => s!"type {handle.inspect} is not registered"
  | .missingComponent entity path => s!"entity {entity.text} has no {path}"
  | .accessViolation path => s!"{path} is not in the write set of this system"
  | .tagValue path => s!"{path} is a tag and carries no value"
  | .foreignPending index => s!"pending entity #{index} was not spawned by this command buffer"

def EcsError.code : EcsError → String
  | .schema cause => cause.code
  | .query cause => cause.code
  | .typeMismatch .. => "EcsError.TypeMismatch"
  | .foreignType .. => "EcsError.ForeignType"
  | .staleHandle .. => "EcsError.StaleHandle"
  | .unknownType .. => "EcsError.UnknownType"
  | .missingComponent .. => "EcsError.MissingComponent"
  | .accessViolation .. => "EcsError.AccessViolation"
  | .tagValue .. => "EcsError.TagValue"
  | .foreignPending .. => "EcsError.ForeignPending"

instance : Failing SchemaError := ⟨fun e => ⟨e.code, e.message⟩⟩

instance : Failing QueryError := ⟨fun e => ⟨e.code, e.message⟩⟩

instance : Failing EcsError := ⟨fun e => ⟨e.code, e.message⟩⟩

end EntityWorld
