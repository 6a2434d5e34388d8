import EntityWorld.Replication.Authority
import EntityWorld.Schedule.Config
import EntityWorld.Text.Json
set_option autoImplicit false

/-!
Settings of a bridge, read from Json and overridden by variables. In Json, a group of settings
is an object with any of them or an array with the first few in their order; a named choice is
its name, or an object that maps its name to null.
-/
namespace EntityWorld

structure BridgeConfig where
  worldName : String := "reflecs"
  scheduler : SchedulerConfig := {}
  authority : AuthorityMode := .serverAuthoritative
  role : NetRole := .server
  deriving DecidableEq, Repr

namespace Settings

open Text (Json)

/-- The value of a setting, if it is there; `none` if it is there twice or its key is broken. -/
def single? (key : String) (members : List (Option String × Json)) : Option (Option Json) :=
  if members.any fun m => m.1.isNone then none
  else
    match members.filter fun m => m.1 == some key with
    | [] => some none
    | [m] => some (some m.2)
    | _ => none

def group? (keys : List String) : Json → Option (List (Option Json))
  | .object members => keys.mapM fun key => single? key members
  | .array items =>
    if items.length ≤ keys.length then
      some (items.map some ++ List.replicate (keys.length - items.length) none)
    else none
  | _ => none

def setting? {α : Type} (read : Json → Option α) (default : α) : Option Json → Option α
  | some j => read j
  | none => some default

def text? : Json → Option String
  | .string s => s
  | _ => none

def switch? : Json → Option Bool
  | .bool b => some b
  | _ => none

def count? : Json → Option Nat
  | .number (some n) => if n < 0x10000000000000000 then some n else none
  | _ => none

def choice? {α : Type} (name : α → String) (choices : List α) : Json → Option α
  | .string (some s) => choices.find? fun a => name a == s
  | .object [(some s, .null)] => choices.find? fun a => name a == s
  | _ => none

def scheduler? (j : Json) : Option SchedulerConfig := do
  match ← group? ["worker_threads", "parallel"] j with
  | [workerThreads, parallel] =>
    let d : SchedulerConfig := {}
    return ⟨← setting? count? d.workerThreads workerThreads,
      ← setting? switch? d.parallel parallel⟩
  | _ => none

def bridge? (j : Json) : Option BridgeConfig := do
  match ← group? ["world_name", "scheduler", "authority", "role"] j with
  | [worldName, scheduler, authority, role] =>
    let d : BridgeConfig := {}
    return ⟨← setting? text? d.worldName worldName,
      ← setting? scheduler? d.scheduler scheduler,
      ← setting? (choice? AuthorityMode.name AuthorityMode.all) d.authority authority,
      ← setting? (choice? NetRole.name [.server, .client]) d.role role⟩
  | _ => none

end Settings

def SchedulerConfig.ofJson? (text : String) : Option SchedulerConfig := do
  Settings.scheduler? (← Text.Json.parse? text)

namespace BridgeConfig

def ofJson? (text : String) : Option BridgeConfig := do
  Settings.bridge? (← Text.Json.parse? text)

/-- Variables override the settings; a blank name and what cannot be read are passed over. -/
def withEnv (c : BridgeConfig) (lookup : String → Option String) : BridgeConfig where
  worldName := ((lookup "REFLECS_WORLD").filter fun s => !(Text.trim s).isEmpty).getD c.worldName
  scheduler := c.scheduler.withEnv lookup
  authority := c.authority
  role := ((lookup "REFLECS_ROLE").bind NetRole.parse).getD c.role

end BridgeConfig
end EntityWorld
