import Sh2Pair.Cpu
import Sh2Pair.Event
import Sh2Pair.Hub.Roster
import Sh2Pair.Memory.Store
import Sh2Pair.Text.Numeral

/-!
# The journal

Everything that happens leaves an entry in the journal, in the order in which it happens. Some
entries have a line in the log that users read; the others, such as the calls of listeners and
the stores of a program, are kept so that what a run did can be told from its journal. Fires are
numbered, and a call names the fire it belongs to, so the calls of nested fires can be told
apart.
-/

namespace Sh2Pair

/-- What a running program may put into the journal by itself, besides notes of its host. -/
inductive Remark (ν : Type) where
  /-- A context was reset while its debug flag was set. -/
  | reset (cpu : Cpu) (pc stack : UInt32)
  /-- A memory did not take a write. -/
  | dropped (cpu : Cpu) (address : UInt32) (width : Width)
  /-- An instruction word was fetched from an address. -/
  | fetched (cpu : Cpu) (address : UInt32)
  /-- An instruction stored a long word at an address. -/
  | stored (cpu : Cpu) (address : UInt32)
  /-- A note of the host. -/
  | note (content : ν)

/-- One thing that happened. -/
inductive Entry (ν : Type) where
  | opened (registry : Nat)
  | retired (registry : Nat)
  | registered (registry : Nat) (cpu : Cpu) (name : String) (listener : Listener)
  | registeredBoth (registry : Nat) (name : String) (listener : Listener)
  /-- A registration was refused because the name is in use. -/
  | refused (registry : Nat) (cpu : Cpu) (name : String)
  | removed (registry : Nat) (cpu : Cpu) (name : String)
  /-- A fire began; `count` listeners are going to be called. -/
  | fired (fire registry : Nat) (cpu : Cpu) (event : Event) (count : Nat)
  /-- A fire called a listener. -/
  | called (fire : Nat) (listener : Listener) (cpu : Cpu) (event : Event)
  /-- The listener that a fire called last came back. -/
  | returned (fire : Nat)
  /-- A listener was told about an event without a fire. -/
  | notified (listener : Listener) (cpu : Cpu) (event : Event)
  | pollStarted (detector : Nat) (cpu : Cpu)
  | pollEnded (detector : Nat) (cpu : Cpu) (event : Event)
  /-- A poll was cleared; `polling` says whether there was one. -/
  | pollCleared (detector : Nat) (cpu : Cpu) (polling : Bool)
  /-- The executor was given a turn. -/
  | turnBegan (cpu : Cpu)
  /-- The executor came back from its turn. -/
  | turnEnded (cpu : Cpu) (ran : Int32)
  /-- A turn was passed over because the processor polls. -/
  | skipped (cpu : Cpu) (cycles : Int32)
  /-- The executor came back without having consumed cycles. -/
  | stalled (cpu : Cpu) (pc : UInt32)
  | remark (content : Remark ν)

namespace Entry

open Text

variable {ν : Type}

/-- The field that names the processor. -/
def cpuField (cpu : Cpu) : List Char := " cpu=".toList ++ cpu.name.toList

/-- The field of a name, as it is. -/
def nameField (name : String) : List Char := " name=".toList ++ name.toList

/-- The field of an event. -/
def eventField (event : Event) : List Char := " event=".toList ++ event.name.toList

/-- The line of an entry in the log, if it has one. -/
def line? : Entry ν → Option (List Char)
  | .registered _ cpu name _ =>
    some ("DEBUG sys event listener registered".toList ++ cpuField cpu ++ nameField name)
  | .registeredBoth _ name _ =>
    some ("DEBUG sys event listener registered for both cpus".toList ++ nameField name)
  | .refused _ cpu name =>
    some ("WARN duplicate sys event listener".toList ++ cpuField cpu ++ nameField name)
  | .removed _ cpu name =>
    some ("DEBUG sys event listener removed".toList ++ cpuField cpu ++ nameField name)
  | .fired _ _ cpu event count =>
    some ("TRACE fire sys event".toList ++ cpuField cpu ++ eventField event ++
      " listeners=".toList ++ decimal count)
  | .pollStarted _ cpu => some ("DEBUG poll started".toList ++ cpuField cpu)
  | .pollEnded _ cpu event =>
    some ("DEBUG poll ended".toList ++ cpuField cpu ++ eventField event)
  | .skipped cpu cycles =>
    some ("DEBUG slice skipped while polling".toList ++ cpuField cpu ++ " cycles=".toList ++
      integer cycles.toInt)
  | .stalled cpu pc =>
    some ("WARN executor made no progress".toList ++ cpuField cpu ++ " pc=".toList ++
      decimal pc.toNat)
  | .remark (.reset cpu pc stack) =>
    some ("DEBUG sh2 reset".toList ++ cpuField cpu ++ " pc=".toList ++ decimal pc.toNat ++
      " sp=".toList ++ decimal stack.toNat)
  | .remark (.dropped cpu address width) =>
    some ("TRACE write outside flat memory dropped".toList ++ cpuField cpu ++
      " addr=".toList ++ decimal address.toNat ++ " size=".toList ++ width.title.toList)
  | _ => none

end Entry

end Sh2Pair
