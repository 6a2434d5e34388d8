import EntityWorld.Text.Blank
set_option autoImplicit false

/-!
Settings of the scheduler.
-/
namespace EntityWorld

/-- With zero worker threads their number is chosen by the host. -/
structure SchedulerConfig where
  workerThreads : Nat := 0
  parallel : Bool := true
  deriving DecidableEq, Repr

/-- A 64-bit number in decimal, perhaps after a plus sign. -/
def parseCount (s : String) : Option Nat :=
  let digits :=
    match s.toList with
    | '+' :: rest => rest
    | cs => cs
  if digits.isEmpty || !digits.all Char.isDigit then none
  else
    let n := digits.foldl (fun n c => 10 * n + (c.toNat - 48)) 0
    if n < 0x10000000000000000 then some n else none

/-- Variables override the settings; what cannot be read is passed over. -/
def SchedulerConfig.withEnv (c : SchedulerConfig) (lookup : String → Option String) :
    SchedulerConfig where
  workerThreads := ((lookup "REFLECS_WORKERS").bind parseCount).getD c.workerThreads
  parallel := ((lookup "REFLECS_PARALLEL").bind Text.switch?).getD c.parallel

end EntityWorld
