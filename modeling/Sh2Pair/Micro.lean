import Sh2Pair.Bus
import Sh2Pair.Memory.Ram
import Sh2Pair.Program

/-!
# The small core

An executor for four instructions: doing nothing, loading a register with a signed byte, storing
a register at the address in another, and branching with a delay slot that may hold the idle
instruction only. It runs on a bus over flat memory and fires on one registry.

A store whose register holds exactly the address of the communication register announces `comm` to
the other processor, after the write. A branch to itself is reported as polling and uses up the
budget. Program counters are advanced with a check, while branch targets wrap.

Each instruction consumes at least one cycle. So a run ends after as many instructions, at most,
as the cycles granted are more than those consumed at its start, also where the counter cannot say
how many these are.
-/

namespace Sh2Pair.Micro

/-- What the core can execute. -/
inductive Instruction where
  /-- Does nothing. -/
  | idle
  /-- Loads a register. -/
  | load (register : Nat) (value : UInt32)
  /-- Stores the register `source` at the address in the register `target`. -/
  | store (target source : Nat)
  /-- Branches to a distance from four bytes behind the instruction. -/
  | branch (distance : UInt32)
  | unknown
  deriving DecidableEq

/-- The opcode of the idle instruction. -/
def idleOpcode : UInt16 := 0x0009

/-- The low byte of an opcode as a signed number. -/
def signedByte (opcode : UInt16) : UInt32 :=
  let low := (opcode &&& 0xff).toUInt32
  if low < 0x80 then low else low - 0x100

/-- Twice the low twelve bits of an opcode as a signed number. -/
def signedDistance (opcode : UInt16) : UInt32 :=
  let low := (opcode &&& 0xfff).toUInt32
  2 * (if low < 0x800 then low else low - 0x1000)

/-- The register number in bits 8 to 11. -/
def firstRegister (opcode : UInt16) : Nat := ((opcode >>> 8) &&& 0xf).toNat

/-- The register number in bits 4 to 7. -/
def secondRegister (opcode : UInt16) : Nat := ((opcode >>> 4) &&& 0xf).toNat

/-- The instruction that an opcode stands for. -/
def decode (opcode : UInt16) : Instruction :=
  let kind := opcode >>> 12
  if opcode = idleOpcode then .idle
  else if kind = 0xe then .load (firstRegister opcode) (signedByte opcode)
  else if kind = 0x2 ∧ opcode &&& 0xf = 0x2 then
    .store (firstRegister opcode) (secondRegister opcode)
  else if kind = 0xa then .branch (signedDistance opcode)
  else .unknown

/-- The address of the communication register. -/
def commAddress : UInt32 := 0x20

/-- What the core works on. -/
abbrev Desk := Context × Bus Ram

variable {H : Host}

/-- The context that the core works on. -/
def context : Program H Desk Context := .look fun desk => .ret desk.1

/-- Changes the context. -/
def adjust (f : Context → Context) : Program H Desk Unit :=
  Program.update fun (context, bus) => (f context, bus)

/-- Fetches the instruction at the program counter. -/
def fetch : Program H Desk UInt16 :=
  .look fun (context, bus) =>
    let (opcode, fetched, bus) := bus.fetch context
    .change (fun _ => (fetched, bus)) (.remark (.fetched context.cpu context.pc) (.ret opcode))

/-- Fetches the instruction of a delay slot. -/
def fetchSlot (pc : UInt32) : Program H Desk UInt16 :=
  .look fun (context, bus) =>
    let (opcode, fetched, bus) := bus.fetchSlot context pc
    .change (fun _ => (fetched, bus)) (.remark (.fetched context.cpu pc) (.ret opcode))

/-- Writes a long word. A write that the memory does not take is remarked on. -/
def store (address value : UInt32) : Program H Desk Unit :=
  .look fun (context, bus) =>
    let (taken, bus) := bus.write32 context.cpu address value
    .change (fun _ => (context, bus))
      (.remark (.stored context.cpu address)
        (if taken then .ret ()
         else .remark (.dropped context.cpu (Width.long.align address) .long) (.ret ())))

/-- The address behind an instruction, if there is one. -/
def following? (pc : UInt32) : Option UInt32 :=
  if pc.toNat + 2 < UInt32.size then some (pc + 2) else none

/-- Moves the program counter behind the instruction. -/
def stepOver : Program H Desk Unit := do
  match following? (← context).pc with
  | some pc => adjust ({ · with pc := pc })
  | none => .raise .overflow

/-- Consumes cycles. -/
def consume (cycles : Int32) : Program H Desk Unit := do
  match Cycles.checkedAdd? (← context).ran cycles with
  | some ran => adjust ({ · with ran := ran })
  | none => .raise .overflow

/-- Executes a branch. -/
def executeBranch (registry : Nat) (distance : UInt32) : Program H Desk Unit := do
  let start ← context
  let target := start.pc + 4 + distance
  match following? start.pc with
  | none => .raise .overflow
  | some slot =>
    adjust ({ · with delayPc := target, delaySlot := true })
    let opcode ← fetchSlot slot
    if opcode ≠ idleOpcode then .raise (.delaySlot opcode)
    else
      adjust ({ · with delaySlot := false })
      consume 2
      if target = start.pc then
        let _ ← Program.fire registry start.cpu .startPolling
        adjust fun context => { context with ran := context.cycles, pc := target }
      else adjust ({ · with pc := target })

/-- Executes a store. -/
def executeStore (registry : Nat) (target source : Nat) : Program H Desk Unit := do
  let start ← context
  let address := start.reg target
  store address (start.reg source)
  if address = commAddress then
    let _ ← Program.fire registry start.cpu.other .comm
    stepOver
  else stepOver
  consume 1

/-- Fetches and executes one instruction. -/
def step (registry : Nat) : Program H Desk Unit := do
  let opcode ← fetch
  match decode opcode with
  | .idle => do stepOver; consume 1
  | .load register value => do adjust (·.setReg register value); stepOver; consume 1
  | .store target source => executeStore registry target source
  | .branch distance => executeBranch registry distance
  | .unknown => .raise (.unknownOpcode opcode (← context).pc)

/-- Executes instructions as long as cycles are left, at most a given number of them. -/
def steps (registry : Nat) : Nat → Program H Desk Unit
  | 0 => .ret ()
  | bound + 1 => do
    if (← context).left.toInt ≤ 0 then .ret ()
    else
      step registry
      steps registry bound

/-- Runs the core until its budget is used up, firing on a registry. -/
def run (registry : Nat) : Program H Desk Unit := do
  let start ← context
  steps registry start.remaining

end Sh2Pair.Micro
