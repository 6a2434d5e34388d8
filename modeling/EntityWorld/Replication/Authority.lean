import EntityWorld.Id
import EntityWorld.Text.Blank
set_option autoImplicit false

/-!
Who wins when a value arrives for a component that was also written locally.
-/
namespace EntityWorld

inductive NetRole where
  | server
  | client
  deriving DecidableEq, Repr

namespace NetRole

def name : NetRole → String
  | .server => "server"
  | .client => "client"

def inspect : NetRole → String
  | .server => "Server"
  | .client => "Client"

def parse (s : String) : Option NetRole :=
  match Text.keyword s with
  | "server" => some .server
  | "client" => some .client
  | _ => none

end NetRole

inductive Resolution where
  | acceptRemote
  | keepLocal
  deriving DecidableEq, Repr

/-- A remote value for a component written locally since the last snapshot was applied. -/
structure Conflict where
  entity : Entity
  handle : TypeHandle
  path : String
  role : NetRole
  deriving DecidableEq, Repr

abbrev AuthorityPolicy := Conflict → Resolution

inductive AuthorityMode where
  | serverAuthoritative
  | preferLocal
  | preferRemote
  deriving DecidableEq, Repr

namespace AuthorityMode

def name : AuthorityMode → String
  | .serverAuthoritative => "server_authoritative"
  | .preferLocal => "prefer_local"
  | .preferRemote => "prefer_remote"

def all : List AuthorityMode := [.serverAuthoritative, .preferLocal, .preferRemote]

def ofName? (s : String) : Option AuthorityMode := all.find? fun m => m.name == s

/-- Under server authority, a server keeps its own write and a client takes the server's. -/
def policy : AuthorityMode → AuthorityPolicy
  | .serverAuthoritative, c =>
    match c.role with
    | .server => .keepLocal
    | .client => .acceptRemote
  | .preferLocal, _ => .keepLocal
  | .preferRemote, _ => .acceptRemote

end AuthorityMode
end EntityWorld
