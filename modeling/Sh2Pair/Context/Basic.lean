import Sh2Pair.Cpu
import Sh2Pair.Cycles
import Sh2Pair.Context.Fetched

/-!
# The execution context of a processor

A context is what has to be kept to stop a processor and to go on with it later: its registers,
the state of a delayed branch, the cycles of the current slice, the last fetch, and a handle to
the devices of the processor. The identity and the debug flag are fixed when it is made. The
one-letter tag of the processor is kept beside the identity: it is looked up once, when the context
is made, and read from there by everything that compares or prints contexts.

Two contexts agree in control when their control registers, the delay flag and the processor
agree. Data registers, cycle counts and fetch state do not count. `digest` is the list of values
that such a comparison looks at, in order, for use in hashing.
-/

namespace Sh2Pair

/-- What a device block holds, as far as contexts can tell. -/
inductive Payload where
  | word (value : UInt32)
  | text (value : String)
  deriving DecidableEq

/-- A handle to a device block. The number tells blocks of equal contents apart. -/
structure Device where
  number : Nat
  payload : Payload
  deriving DecidableEq

/-- The execution state of one processor. -/
structure Context where
  cpu : Cpu
  /-- The one-letter tag of the processor, as it was when the context was made. -/
  letter : Char
  debug : Bool
  regs : Vector UInt32 16
  gbr : UInt32
  vbr : UInt32
  sr : UInt32
  mach : UInt32
  macl : UInt32
  pr : UInt32
  pc : UInt32
  opcode : UInt16
  /-- The target of a branch whose delay slot is being executed. -/
  delayPc : UInt32
  delaySlot : Bool
  /-- The cycles granted for the current slice. -/
  cycles : Int32
  /-- The cycles consumed so far in the current slice. -/
  ran : Int32
  devices : Option Device
  fetched : Fetched
  deriving DecidableEq

namespace Context

/-- The status register after power-on: all four bits of the interrupt mask are set. -/
def statusAtPowerOn : UInt32 := 0xf0

/-- A context whose registers and counters are all zero. -/
def fresh (cpu : Cpu) (debug : Bool) : Context where
  cpu := cpu
  letter := cpu.letter
  debug := debug
  regs := .replicate 16 0
  gbr := 0
  vbr := 0
  sr := 0
  mach := 0
  macl := 0
  pr := 0
  pc := 0
  opcode := 0
  delayPc := 0
  delaySlot := false
  cycles := 0
  ran := 0
  devices := none
  fetched := .nothing

/-- A copy of a context, field by field. The devices are not copied: both contexts have a handle to
the same ones. -/
def copy (context : Context) : Context where
  cpu := context.cpu
  letter := context.letter
  debug := context.debug
  regs := context.regs
  gbr := context.gbr
  vbr := context.vbr
  sr := context.sr
  mach := context.mach
  macl := context.macl
  pr := context.pr
  pc := context.pc
  opcode := context.opcode
  delayPc := context.delayPc
  delaySlot := context.delaySlot
  cycles := context.cycles
  ran := context.ran
  devices := context.devices
  fetched := context.fetched

/-- A copy cannot be told from its original. -/
@[simp] theorem copy_eq (context : Context) : context.copy = context := rfl

/-- The register that a number denotes: its low four bits, as in an instruction word. -/
def register (number : Nat) : Fin 16 := ⟨number % 16, Nat.mod_lt _ (by decide)⟩

/-- The value of a register. -/
def reg (context : Context) (number : Nat) : UInt32 := context.regs[register number]

/-- Writes a register. -/
def setReg (context : Context) (number : Nat) (value : UInt32) : Context :=
  { context with regs := context.regs.set (register number) value }

/-- The state after a reset with the given entry point and stack pointer. Identity, debug flag,
devices and the registers that a reset does not define are kept. -/
def reset (context : Context) (pc stack : UInt32) : Context :=
  { context with
    regs := (Vector.replicate 16 0).set (register 15) stack
    pc := pc
    vbr := 0
    sr := statusAtPowerOn
    opcode := 0
    delayPc := 0
    delaySlot := false
    cycles := 0
    ran := 0
    fetched := .nothing }

/-- Starts a slice: the budget is granted and nothing of it is consumed yet. -/
def grant (context : Context) (cycles : Int32) : Context :=
  { context with cycles := cycles, ran := 0 }

/-- The cycles still to spend in this slice. -/
def left (context : Context) : Int32 := Cycles.satSub context.cycles context.ran

/-- How far what was granted is above what is consumed. This counts on where `left` stops at the
end of the counter. -/
def remaining (context : Context) : Nat := (context.cycles.toInt - context.ran.toInt).toNat

/-- Something remains of a budget exactly if less is consumed than was granted. -/
theorem remaining_ne_zero_iff {context : Context} :
    context.remaining ≠ 0 ↔ context.ran.toInt < context.cycles.toInt := by
  rw [remaining]
  omega

/-- Consumes cycles, stopping at the end of the counter. -/
def burn (context : Context) (cycles : Int32) : Context :=
  { context with ran := Cycles.satAdd context.ran cycles }

/-- One value that a digest passes on. -/
inductive Feed where
  | word (value : UInt32)
  | flag (value : Bool)
  | cpu (value : Cpu)
  | letter (value : Char)
  deriving DecidableEq

/-- The values that identify the control state, in order. -/
def digest (context : Context) : List Feed :=
  [.word context.gbr, .word context.vbr, .word context.sr, .word context.mach,
    .word context.macl, .word context.pr, .word context.pc, .flag context.delaySlot,
    .cpu context.cpu, .letter context.letter]

/-- Whether two contexts agree in control. -/
def sameControl (left right : Context) : Bool :=
  left.gbr == right.gbr && left.vbr == right.vbr && left.sr == right.sr &&
    left.mach == right.mach && left.macl == right.macl && left.pr == right.pr &&
    left.pc == right.pc && left.delaySlot == right.delaySlot && left.cpu == right.cpu &&
    left.letter == right.letter

end Context

end Sh2Pair
