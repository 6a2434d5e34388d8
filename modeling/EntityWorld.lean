import EntityWorld.Allocator
import EntityWorld.Archetype
import EntityWorld.Archetype.Storage
import EntityWorld.Bytes
import EntityWorld.Column
import EntityWorld.Command
import EntityWorld.ComponentValue
import EntityWorld.Entity
import EntityWorld.Error
import EntityWorld.Failure
import EntityWorld.FinMap
import EntityWorld.Host.Bridge
import EntityWorld.Host.Config
import EntityWorld.Host.Error
import EntityWorld.Host.IdentityMap
import EntityWorld.Host.Module
import EntityWorld.Host.Record
import EntityWorld.Host.Session
import EntityWorld.Id
import EntityWorld.Payload
import EntityWorld.Payload.Form
import EntityWorld.Query
import EntityWorld.Query.Term
import EntityWorld.Recipe
import EntityWorld.Replication.Authority
import EntityWorld.Replication.Error
import EntityWorld.Replication.NetworkIds
import EntityWorld.Replication.Replicator
import EntityWorld.Replication.Wire
import EntityWorld.Schedule.AccessSet
import EntityWorld.Schedule.Action
import EntityWorld.Schedule.Config
import EntityWorld.Schedule.Error
import EntityWorld.Schedule.Phase
import EntityWorld.Schedule.Plan
import EntityWorld.Schedule.Run
import EntityWorld.Schedule.Scheduler
import EntityWorld.Schema.Description
import EntityWorld.Schema.Descriptor
import EntityWorld.Schema.Registry
import EntityWorld.Script.Draft
import EntityWorld.Script.Module
import EntityWorld.Script.Record
import EntityWorld.Script.Reply
import EntityWorld.Script.RowAct
import EntityWorld.Script.System
import EntityWorld.Text.Blank
import EntityWorld.Text.Hex
import EntityWorld.Text.Json
import EntityWorld.Text.Printable
import EntityWorld.Text.Quoted
import EntityWorld.Text.Utf8
import EntityWorld.Value
import EntityWorld.World.Basic
import EntityWorld.World.Despawn
import EntityWorld.World.Name
import EntityWorld.World.Relation
import EntityWorld.World.Row
import EntityWorld.World.Structure
import EntityWorld.World.Value
import EntityWorld.Proofs.Allocator
import EntityWorld.Proofs.Archetype
import EntityWorld.Proofs.RowMoves
import EntityWorld.Proofs.Placement
import EntityWorld.Proofs.StorageRows
import EntityWorld.Proofs.Registry
import EntityWorld.Proofs.World.WellFormed
import EntityWorld.Proofs.World.Changes
import EntityWorld.Proofs.World.Entities
import EntityWorld.Proofs.World.Edits
import EntityWorld.Proofs.World.Along
import EntityWorld.Proofs.World.Reachable
import EntityWorld.Proofs.World.Invariant
import EntityWorld.Proofs.World.Refinement
import EntityWorld.Proofs.World.Cascade
import EntityWorld.Proofs.World.Pairs
import EntityWorld.Proofs.World.Removal
import EntityWorld.Proofs.World.Tables
import EntityWorld.Proofs.World.Mask
import EntityWorld.Proofs.World.Agreement
import EntityWorld.Proofs.IdSets
import EntityWorld.Proofs.World.Calls
import EntityWorld.Proofs.World.Commands
import EntityWorld.Proofs.Query.Matching
import EntityWorld.Proofs.Query.Cache
import EntityWorld.Proofs.Query.Rows
import EntityWorld.Proofs.Query.Exact
import EntityWorld.Proofs.Ledger.Goods
import EntityWorld.Proofs.Ledger.Tables
import EntityWorld.Proofs.Ledger.World
import EntityWorld.Proofs.Ledger.Commands
import EntityWorld.Proofs.Ledger.Operations
import EntityWorld.Proofs.Ledger.Layout
import EntityWorld.Proofs.Ledger.Estate
import EntityWorld.Proofs.Handles
import EntityWorld.Proofs.Query.Teardown
import EntityWorld.Proofs.Schedule.AccessSet
import EntityWorld.Proofs.Schedule.Layers
import EntityWorld.Proofs.Schedule.Plan
import EntityWorld.Proofs.Schedule.Changes
import EntityWorld.Proofs.Schedule.Registration
import EntityWorld.Proofs.Schedule.Upkeep
import EntityWorld.Proofs.Schedule.Reachable
import EntityWorld.Proofs.Schedule.Confined
import EntityWorld.Proofs.Schedule.Interleaving
import EntityWorld.Proofs.Schedule.Renumbering
import EntityWorld.Proofs.Schedule.Confluence
import EntityWorld.Proofs.Schedule.Access
import EntityWorld.Proofs.Schedule.Execution
import EntityWorld.Proofs.Schedule.Reordering
import EntityWorld.Proofs.Schedule.Settings
import EntityWorld.Proofs.Schedule.Frame
import EntityWorld.Proofs.Schedule.Lifetime
import EntityWorld.Proofs.Schedule.FrameOrder
import EntityWorld.Proofs.FinMap
import EntityWorld.Proofs.Host.Bindings
import EntityWorld.Proofs.Host.Lifecycle
import EntityWorld.Proofs.Replication.Wire
import EntityWorld.Proofs.World.Types
import EntityWorld.Proofs.Replication.Collection
import EntityWorld.Proofs.Replication.Arrival
import EntityWorld.Proofs.Replication.Transfer
import EntityWorld.Proofs.World.Names
import EntityWorld.Proofs.Host.Attendance
import EntityWorld.Proofs.Host.Seeds
import EntityWorld.Proofs.Host.Offspring
import EntityWorld.Proofs.Host.Creation
import EntityWorld.Proofs.Host.Rollback
import EntityWorld.Proofs.Replication.NetworkIds
import EntityWorld.Proofs.Replication.Account
import EntityWorld.Proofs.Replication.Stream
import EntityWorld.Proofs.World.Survival
import EntityWorld.Proofs.Schedule.Survival
import EntityWorld.Proofs.Replication.Memory
import EntityWorld.Proofs.Host.Remembrance
import EntityWorld.Proofs.Catalogue
import EntityWorld.Proofs.Host.Loading
import EntityWorld.Proofs.Host.Modules
import EntityWorld.Proofs.World.Unregistered
import EntityWorld.Proofs.Compatibility
import EntityWorld.Proofs.Query.Relations
import EntityWorld.Proofs.Replication.Skipping
import EntityWorld.Proofs.Replication.Framing
import EntityWorld.Proofs.Replication.Rebinding
import EntityWorld.Proofs.World.Naming
import EntityWorld.Proofs.Replication.Canonical
import EntityWorld.Proofs.Schedule.Insertion
import EntityWorld.Proofs.World.Presence
import EntityWorld.Proofs.Schedule.Cycles
import EntityWorld.Proofs.Replication.Losses
import EntityWorld.Proofs.Schedule.Conflicts
import EntityWorld.Proofs.Column.Calls
