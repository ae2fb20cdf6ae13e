import Sh2Pair.Config.Slice
import Sh2Pair.World

/-!
# Schedulers

A scheduler shares time between the two processors. It is made for a registry, with or without
a poll detector of its own, and counts the slices completed and the cycles of each processor.
Making one is all or nothing: settings that are not accepted, and a detector that cannot be
registered, leave the registry as it was.
-/

namespace Sh2Pair

/-- The settings and the counts of a scheduler. -/
structure Scheduler where
  config : SliceConfig
  /-- The number of the registry it was made for. -/
  registry : Nat
  /-- The number of its poll detector, if it has one. -/
  poller : Option Nat
  /-- The number of slices completed. -/
  slices : Nat
  /-- The cycles credited to each processor. -/
  totals : Pair Nat

/-- Why a scheduler was not made. -/
inductive BuildFault where
  | config (cause : ConfigFault)
  | poller (cause : Duplicate)

/-- A context was passed in the place of the other processor. -/
structure Misplaced where
  expected : Cpu
  got : Cpu
  deriving DecidableEq

namespace BuildFault

/-- The message of a fault. -/
def message : BuildFault → List Char
  | .config cause => "invalid smp config: ".toList ++ cause.message
  | .poller cause => "poll detector: ".toList ++ cause.message

end BuildFault

namespace Misplaced

/-- The message of a misplaced context. -/
def message (misplaced : Misplaced) : List Char :=
  "context for ".toList ++ misplaced.got.name.toList ++ " passed in the ".toList ++
    misplaced.expected.name.toList ++ " slot".toList

end Misplaced

namespace Scheduler

variable {H : Host}

/-- A scheduler that has run no slice. -/
def fresh (config : SliceConfig) (registry : Nat) (poller : Option Nat) : Scheduler :=
  ⟨config, registry, poller, 0, .both 0⟩

/-- Makes a scheduler without a poll detector. It never passes over a turn. -/
def plain (config : SliceConfig) (registry : Nat) : Except BuildFault Scheduler :=
  match config.check with
  | .ok () => .ok (fresh config registry none)
  | .error cause => .error (.config cause)

/-- Makes a scheduler and attaches a poll detector to its registry. -/
def watching (config : SliceConfig) (registry : Nat) (world : World H) :
    Except BuildFault Scheduler × World H :=
  match config.check with
  | .ok () =>
    match world.attach registry config.poll with
    | (.ok poller, world) => (.ok (fresh config registry (some poller)), world)
    | (.error cause, world) => (.error (.poller cause), world)
  | .error cause => (.error (.config cause), world)

/-- Whether the turn of a processor is to be passed over. -/
def skips (scheduler : Scheduler) (hub : Hub) (cpu : Cpu) : Bool :=
  scheduler.config.skipPolling &&
    match scheduler.poller with
    | some number => (hub.detector number).polling cpu
    | none => false

/-- Credits the cycles of a turn to a processor. -/
def credit (scheduler : Scheduler) (cpu : Cpu) (ran : Int32) : Scheduler :=
  { scheduler with totals := scheduler.totals.modify cpu (· + Cycles.credit ran) }

end Scheduler

end Sh2Pair
