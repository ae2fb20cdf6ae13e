import Sh2Pair.Config.Slice
import Sh2Pair.Memory.Ram
import Sh2Pair.Panic
import Sh2Pair.Scheduler.Machine

/-!
# Answers of a session

What a step answers, and the record of what happened while it ran: the lines of the log, the
calls of scripted listeners, and the runs of executors. Calls and runs have records of their own
for the actions done in them, so the records form a tree.
-/

namespace Sh2Pair.Session

/-- How two contexts compare. -/
structure Comparison where
  control : Bool
  digest : Bool
  fetched : Bool
  /-- Whether both have the same devices, if both have any. -/
  devices : Option Bool

/-- Two contexts, compared. -/
def Comparison.of (left right : Context) : Comparison where
  control := left.sameControl right
  digest := left.digest = right.digest
  fetched := left.fetched = right.fetched
  devices :=
    match left.devices, right.devices with
    | some one, some other => some (one.number = other.number)
    | _, _ => none

/-- What a scheduler shows. -/
structure SchedulerView where
  slices : Nat
  totals : Pair Nat
  poller : Option (Pair Watch)
  /-- Whether its registry is the current one. -/
  current : Bool

/-- How one slice, or several, ended. -/
inductive SliceEnd where
  | report (report : Report)
  | complete
  | misplaced (cause : Misplaced)
  | panicked (cause : Panic)

/-- The answer of a step. -/
inductive Answer where
  | ok
  | flag (value : Bool)
  | natural (value : Nat)
  | integer (value : Int)
  | integers (values : List Int)
  | text (content : List Char)
  | texts (contents : List String)
  | context (context : Context)
  | fetched (opcode : UInt16) (context : Context)
  | comparison (comparison : Comparison)
  | device (payload : Option Payload)
  | bytes (bytes : List UInt8)
  | purges (places : List PurgedPlace)
  | requests (requests : List Access)
  | watches (watches : Pair Watch)
  | settings (config : PollConfig)
  | scheduler (view : SchedulerView)
  | slice (ending : SliceEnd) (view : SchedulerView)
  | unreadable (fault : Json.Fault)
  | duplicate (cause : Duplicate)
  | notBuilt (fault : BuildFault)
  | panicked (cause : Panic)
  /-- The step names something that is not there. -/
  | unusable

mutual

/-- A step or an action: its answer, and what happened while it ran. -/
inductive Result where
  | mk (answer : Answer) (log : List (List Char)) (calls : List Call) (runs : List Run)

/-- A call of a scripted listener, with the results of its actions. -/
inductive Call where
  | mk (tag : String) (number : Nat) (cpu : Cpu) (event : Event) (did : List Result)

/-- A run of an executor: what it found, the results of its actions if it is scripted, how it
panicked if it did, and what it left. -/
inductive Run where
  | mk (cpu : Cpu) (cycles ran : Int32) (did : Option (List Result)) (panic : Option Panic)
    (log : List (List Char)) (calls : List Call) (pcAfter : UInt32) (ranAfter : Int32)

end

namespace Call

/-- The tag of the listener. -/
def tag : Call → String
  | .mk tag _ _ _ _ => tag

/-- How often the listener had been called, this call included. -/
def number : Call → Nat
  | .mk _ number _ _ _ => number

/-- Calls in order: by tag, and by number under the same tag. -/
def sorted (calls : List Call) : List Call :=
  calls.mergeSort fun left right =>
    decide (left.tag < right.tag) || (left.tag = right.tag && left.number ≤ right.number)

end Call

end Sh2Pair.Session
