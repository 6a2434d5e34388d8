import EntityWorld.Host.Module
import EntityWorld.Script.System
set_option autoImplicit false

/-!
Modules as data: what is done while a module loads, up to the first failure, and what is done
when it is unloaded. Every result is told.
-/
namespace EntityWorld

inductive LoadItem where
  | registerType (d : TypeDescription)
  | registerSystem (b : SystemBuilder Reply)
  | pause
  | spawn
  | info
  | dropSystem (h : SystemHandle)
  | fail (o : ObjectId)

inductive UnloadItem where
  | spawn
  | despawn (e : Entity)
  deriving DecidableEq, Repr

namespace LoadItem

def loader (name : String) : List LoadItem → Loader Reply
  | [] => .done (.ok ())
  | registerType d :: rest => .registerType d fun
    | .ok h => .tell (.number h.raw.toNat) (loader name rest)
    | .error e => .done (.error (.ecs (.schema e)))
  | registerSystem b :: rest => .registerSystem b fun
    | .ok h => .tell (.number h.raw.toNat) (loader name rest)
    | .error e => .done (.error (.schedule e))
  | pause :: rest => .useScheduler (fun s => s.setPaused true) fun _ =>
    .tell .nothing (loader name rest)
  | spawn :: rest => .useWorld id fun w =>
    let (e, w) := w.spawn
    .useWorld (fun _ => w) fun _ => .tell (.entity e) (loader name rest)
  | info :: rest => .useWorld id fun w =>
    .tell (.list [.text name, .number w.entityCount]) (loader name rest)
  | dropSystem h :: rest => .useScheduler id fun s =>
    let found := (s.find? h).isSome
    .useScheduler (fun s => (s.unregister h).2) fun _ => .tell (.flag found) (loader name rest)
  | fail o :: _ => .done (.error (.notBound o))

end LoadItem

def UnloadItem.runAll : List UnloadItem → World → World × List Reply
  | [], w => (w, [.text "unloaded"])
  | spawn :: rest, w =>
    let (e, w) := w.spawn
    let (w, replies) := runAll rest w
    (w, .entity e :: replies)
  | despawn e :: rest, w =>
    let (died, w) := w.despawn e
    let (w, replies) := runAll rest w
    (w, .flag died :: replies)

def Module.ofItems (name : String) (dependencies : List String) (load : List LoadItem)
    (unload : List UnloadItem) : Module Reply where
  name := name
  dependencies := dependencies
  load := LoadItem.loader name load
  unload := UnloadItem.runAll unload

def Module.bare (name : String) : Module Reply where
  name := name
  dependencies := []
  load := .done (.ok ())
  unload := fun w => (w, [])

end EntityWorld
