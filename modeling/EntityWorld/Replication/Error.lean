import EntityWorld.Error
import EntityWorld.Payload
set_option autoImplicit false

/-!
Why a snapshot cannot be made or is refused as a whole.
-/
namespace EntityWorld

/-- An id of an entity that all peers agree on. -/
structure NetworkId where
  raw : UInt32
  deriving DecidableEq, Repr

def NetworkId.text (n : NetworkId) : String := s!"net#{n.raw}"

inductive ReplicationError where
  | malformed (offset needed : Nat)
  | trailingBytes (count : Nat)
  | outOfOrder (typeId : UInt32)
  | recordTooLarge (size : Nat)
  | staleEntity (entity : Entity)
  | unboundNetworkId (id : NetworkId)
  | serialize (path : String) (cause : PayloadError)
  | writerFull
  | ecs (cause : EcsError)
  deriving DecidableEq, Repr

def ReplicationError.message : ReplicationError → String
  | .malformed offset needed =>
    s!"payload truncated at byte {offset}: {needed} more bytes expected"
  | .trailingBytes count => s!"{count} trailing bytes after the last record"
  | .outOfOrder typeId =>
    s!"record type id 0x{Text.hex8 typeId.toNat} is out of ascending order"
  | .recordTooLarge size => s!"record of {size} bytes does not fit the length field"
  | .staleEntity entity => s!"entity {entity.text} is stale"
  | .unboundNetworkId id => s!"network id {id.text} is not bound to an entity"
  | .serialize path cause => s!"failed to serialize {path}: {cause.message}"
  | .writerFull => "IO error: failed to write whole buffer"
  | .ecs cause => cause.message

def ReplicationError.code : ReplicationError → String
  | .malformed .. => "ReplicationError.Malformed"
  | .trailingBytes .. => "ReplicationError.TrailingBytes"
  | .outOfOrder .. => "ReplicationError.OutOfOrder"
  | .recordTooLarge .. => "ReplicationError.RecordTooLarge"
  | .staleEntity .. => "ReplicationError.StaleEntity"
  | .unboundNetworkId .. => "ReplicationError.UnboundNetworkId"
  | .serialize .. => "ReplicationError.Serialize"
  | .writerFull => "ReplicationError.Io"
  | .ecs cause => cause.code

instance : Failing ReplicationError := ⟨fun e => ⟨e.code, e.message⟩⟩

end EntityWorld
