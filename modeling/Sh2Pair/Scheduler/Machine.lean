import Sh2Pair.Firing
import Sh2Pair.Scheduler.Basic

/-!
# Running slices

A machine is a scheduler with the contexts of both processors, a rig that only the executor
knows, and the world. In a slice, each processor in turn is granted its budget. If the detector
takes it to be polling at that moment, the turn is passed over and counts as used up; otherwise
the executor runs on the context and the rig.

The order of turns follows the settings. What the executor of the first turn fires is known to
the second. A context in the wrong place ends the slice before anything is touched. A panic
leaves the turns before it counted and the slice uncounted.
-/

namespace Sh2Pair

/-- A scheduler at work: its contexts, the rig of its executor, and the world. -/
structure Machine (H : Host) (ε : Type) where
  scheduler : Scheduler
  contexts : Pair Context
  rig : ε
  world : World H

/-- How a turn went. -/
structure Turn where
  /-- The cycles consumed, as the context says when the turn ends. -/
  ran : Int32
  skipped : Bool
  deriving DecidableEq

/-- How both turns of a slice went. -/
abbrev Report := Pair Turn

/-- What runs a processor in its turn, on its context and the rig. -/
abbrev Executor (H : Host) (ε : Type) := Program H (Context × ε) Unit

namespace Machine

variable {H : Host} {ε : Type}

/-- The first context that is in the wrong place, the master's place before the slave's. -/
def misplaced? (machine : Machine H ε) : Option Misplaced :=
  let wrong (cpu : Cpu) : Option Misplaced :=
    let got := (machine.contexts.get cpu).cpu
    if got = cpu then none else some ⟨cpu, got⟩
  match wrong .master with
  | some misplaced => some misplaced
  | none => wrong .slave

/-- Grants a processor the budget of a slice. -/
def grant (machine : Machine H ε) (cpu : Cpu) : Machine H ε :=
  { machine with
    contexts := machine.contexts.modify cpu (·.grant machine.scheduler.config.cycles) }

/-- Whether the turn of a processor would be passed over now. -/
def skips (machine : Machine H ε) (cpu : Cpu) : Bool :=
  machine.scheduler.skips machine.world.hub cpu

/-- Ends a turn: the cycles that the context shows are credited. -/
def settle (machine : Machine H ε) (cpu : Cpu) (skipped : Bool) : Turn × Machine H ε :=
  let ran := (machine.contexts.get cpu).ran
  (⟨ran, skipped⟩, { machine with scheduler := machine.scheduler.credit cpu ran })

/-- Passes over a turn: the whole budget counts as used. -/
def pass (machine : Machine H ε) (cpu : Cpu) : Turn × Machine H ε :=
  let context := machine.contexts.get cpu
  let machine := { machine with
    contexts := machine.contexts.set cpu { context with ran := context.cycles }
    world := machine.world.record (.skipped cpu context.cycles) }
  machine.settle cpu true

/-- Runs the executor on a processor. -/
def execute (setting : Setting H) (depth : Nat) (executor : Executor H ε)
    (machine : Machine H ε) (cpu : Cpu) : Outcome Unit × Machine H ε :=
  match setting.run depth executor (machine.contexts.get cpu, machine.rig)
      (machine.world.record (.turnBegan cpu)) with
  | (outcome, (context, rig), world) =>
    (outcome, { machine with contexts := machine.contexts.set cpu context, rig, world })

/-- Enters the end of an executed turn into the journal. -/
def close (machine : Machine H ε) (cpu : Cpu) : Machine H ε :=
  let context := machine.contexts.get cpu
  let world := machine.world.record (.turnEnded cpu context.ran)
  { machine with
    world := if context.ran.toInt ≤ 0 then world.record (.stalled cpu context.pc) else world }

/-- One turn of a processor. -/
def turn (setting : Setting H) (depth : Nat) (executor : Executor H ε) (machine : Machine H ε)
    (cpu : Cpu) : Outcome Turn × Machine H ε :=
  let machine := machine.grant cpu
  if machine.skips cpu then
    let (turn, machine) := machine.pass cpu
    (.done turn, machine)
  else
    Outcome.andThen (machine.execute setting depth executor cpu) fun _ machine =>
      let (turn, machine) := (machine.close cpu).settle cpu false
      (.done turn, machine)

/-- One slice: both turns, in the order of the settings. -/
def slice (setting : Setting H) (depth : Nat) (executor : Executor H ε)
    (machine : Machine H ε) : Outcome (Except Misplaced Report) × Machine H ε :=
  match machine.misplaced? with
  | some misplaced => (.done (.error misplaced), machine)
  | none =>
    let first := machine.scheduler.config.firstCpu
    Outcome.andThen (machine.turn setting depth executor first) fun firstTurn machine =>
      Outcome.andThen (machine.turn setting depth executor first.other) fun secondTurn machine =>
        let report := (Pair.both firstTurn).set first.other secondTurn
        let scheduler := { machine.scheduler with slices := machine.scheduler.slices + 1 }
        (.done (.ok report), { machine with scheduler })

/-- A number of slices, up to the first that fails. -/
def slices (setting : Setting H) (depth : Nat) (executor : Executor H ε) :
    Nat → Machine H ε → Outcome (Except Misplaced Unit) × Machine H ε
  | 0, machine => (.done (.ok ()), machine)
  | count + 1, machine =>
    Outcome.andThen (machine.slice setting depth executor) fun result machine =>
      match result with
      | .ok _ => slices setting depth executor count machine
      | .error misplaced => (.done (.error misplaced), machine)

end Machine

end Sh2Pair
