/-!
# System events

The closed set of events that can be announced to the listeners of one processor. Eight of them
report something outside the processor; `startPolling` reports that the processor itself was
seen spinning on a memory location.
-/

namespace Sh2Pair

/-- A kind of system event. -/
inductive Event where
  /-- No event; listeners receive it like any other. -/
  | none
  /-- A change of an interrupt line. -/
  | int
  | sys
  | sdram
  /-- A write to the communication register between the processors. -/
  | comm
  | dma
  | pwm
  | vdp
  /-- The processor spins on a memory location. -/
  | startPolling
  deriving DecidableEq, Inhabited

namespace Event

/-- All events, in the order of their positions. -/
def all : List Event :=
  [.none, .int, .sys, .sdram, .comm, .dma, .pwm, .vdp, .startPolling]

/-- The position of an event in `all`. -/
def index : Event → Nat
  | .none => 0
  | .int => 1
  | .sys => 2
  | .sdram => 3
  | .comm => 4
  | .dma => 5
  | .pwm => 6
  | .vdp => 7
  | .startPolling => 8

/-- The name used in diagnostics and in configuration texts. -/
def name : Event → String
  | .none => "NONE"
  | .int => "INT"
  | .sys => "SYS"
  | .sdram => "SDRAM"
  | .comm => "COMM"
  | .dma => "DMA"
  | .pwm => "PWM"
  | .vdp => "VDP"
  | .startPolling => "START_POLLING"

/-- The name used in structural dumps. -/
def title : Event → String
  | .none => "None"
  | .int => "Int"
  | .sys => "Sys"
  | .sdram => "Sdram"
  | .comm => "Comm"
  | .dma => "Dma"
  | .pwm => "Pwm"
  | .vdp => "Vdp"
  | .startPolling => "StartPolling"

/-- The event of a name, if there is one. -/
def ofName? (name : String) : Option Event := all.find? (fun event => event.name = name)

/-- Every event can be found again by its name. -/
theorem ofName?_name (event : Event) : ofName? event.name = some event := by
  cases event <;> decide

end Event

end Sh2Pair
