import EntityWorld.Schedule.Action
import EntityWorld.Schedule.Error
set_option autoImplicit false

/-!
Plans of phases. The constraints between the systems of a phase put them into layers; within a
layer, systems that may run side by side and do not clash form one parallel stage, and every
other system is a stage of its own.
-/
namespace EntityWorld

structure System (Note : Type) where
  handle : SystemHandle
  name : String
  query : Query
  access : AccessSet
  phase : Phase
  after : List SystemHandle
  before : List SystemHandle
  parallelSafe : Bool
  runWhenPaused : Bool
  enabled : Bool
  body : SystemBody Note

/-- A step of a plan; systems are given by their positions. -/
inductive Stage where
  | serial (system : Nat)
  | parallel (systems : List Nat)
  deriving DecidableEq, Repr

def Stage.systems : Stage → List Nat
  | .serial i => [i]
  | .parallel is => is

/-- A system that could run side by side with others but clashes with one of them. -/
structure Overlap where
  system : String
  conflictsWith : String
  types : List TypeHandle
  deriving DecidableEq, Repr

structure PhasePlan where
  stages : List Stage
  overlaps : List Overlap
  deriving DecidableEq, Repr

namespace PhasePlan

variable {Note : Type}

def members (systems : List (System Note)) (phase : Phase) : List Nat :=
  (List.range systems.length).filter fun i =>
    match systems[i]? with
    | some s => s.phase == phase
    | none => false

def locate (systems : List (System Note)) (members : List Nat) (h : SystemHandle) : Option Nat :=
  members.find? fun i =>
    match systems[i]? with
    | some s => s.handle == h
    | none => false

/-- The constraints among members, each as (earlier, later). -/
def edges (systems : List (System Note)) (members : List Nat) : List (Nat × Nat) :=
  members.flatMap fun i =>
    match systems[i]? with
    | some s =>
      ((s.after.filterMap (locate systems members)).map fun p => (p, i)) ++
        (s.before.filterMap (locate systems members)).map fun n => (i, n)
    | none => []

def ready (members : List Nat) (edges : List (Nat × Nat)) (placed : List Nat) : List Nat :=
  members.filter fun i => !placed.contains i && edges.all fun e => e.2 != i || placed.contains e.1

/-- The layers of the members, given those placed before. Every layer but the last places a
member, so as many rounds as there are members are enough. -/
def layers (members : List Nat) (edges : List (Nat × Nat)) : Nat → List Nat → List (List Nat)
  | 0, _ => []
  | rounds + 1, placed =>
    match ready members edges placed with
    | [] => []
    | layer => layer :: layers members edges rounds (placed ++ layer)

/-- How a layer is split: the parallel group, the systems left to run alone, the clashes. -/
structure Split where
  group : List Nat
  serial : List Nat
  overlaps : List Overlap
  deriving DecidableEq, Repr

def clash? (systems : List (System Note)) (s : System Note) (group : List Nat) :
    Option (System Note × List TypeHandle) :=
  group.findSome? fun i =>
    match systems[i]? with
    | some other =>
      let types := s.access.conflicts other.access
      if types.isEmpty then none else some (other, types)
    | none => none

def splitStep (systems : List (System Note)) (parallel : Bool) (split : Split) (i : Nat) : Split :=
  match systems[i]? with
  | none => split
  | some s =>
    if !s.parallelSafe || !parallel then { split with serial := split.serial ++ [i] }
    else
      match clash? systems s split.group with
      | none => { split with group := split.group ++ [i] }
      | some (other, types) =>
        { split with serial := split.serial ++ [i],
                     overlaps := split.overlaps ++ [⟨s.name, other.name, types⟩] }

def splitLayer (systems : List (System Note)) (parallel : Bool) (layer : List Nat) : Split :=
  layer.foldl (splitStep systems parallel) ⟨[], [], []⟩

/-- A group of one needs no parallel stage. -/
def Split.stages (s : Split) : List Stage :=
  (match s.group with
    | [] => []
    | [i] => [.serial i]
    | is => [.parallel is]) ++ s.serial.map .serial

def build (systems : List (System Note)) (parallel : Bool) (phase : Phase) :
    Except ScheduleError PhasePlan :=
  let members := members systems phase
  let edges := edges systems members
  let layers := layers members edges members.length []
  let left := members.filter fun i => !layers.flatten.contains i
  if left.isEmpty then
    let splits := layers.map (splitLayer systems parallel)
    .ok ⟨splits.flatMap Split.stages, splits.flatMap Split.overlaps⟩
  else
    .error (.orderingCycle (left.filterMap fun i => systems[i]?.map System.name))

end PhasePlan
end EntityWorld
