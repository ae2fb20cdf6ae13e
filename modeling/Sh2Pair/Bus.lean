import Sh2Pair.Context.Basic
import Sh2Pair.Memory.Store

/-!
# The bus

The bus stands between a processor and a memory. It drives every access at the natural
alignment of its width and carries no more bits than the width holds, in either direction, so
the memory sees exactly one aligned access for each request. There is an accessor for each width,
whose values have the type of that width. Instruction words are fetched as ordinary word reads.

A bus made with a cache forwards purges to the memory; one made without drops them.
-/

namespace Sh2Pair

/-- A memory behind an aligning adapter. -/
structure Bus (M : Type) where
  memory : M
  /-- Where purges go, for a memory with a cache. -/
  forward : Option (Cpu → UInt32 → Width → M → M)

namespace Bus

variable {M : Type}

/-- A bus that drops purges. -/
def plain (memory : M) : Bus M := ⟨memory, none⟩

/-- A bus that forwards purges to the memory. -/
def cached [CacheControl M] (memory : M) : Bus M := ⟨memory, some CacheControl.purge⟩

/-- Reads at the alignment of the width; only the bits of the width are kept. -/
def read [Store M] (bus : Bus M) (cpu : Cpu) (address : UInt32) (width : Width) :
    UInt32 × Bus M :=
  let (value, memory) := Store.read cpu (width.align address) width bus.memory
  (width.truncate value, { bus with memory := memory })

/-- Writes the bits of the width at its alignment. The flag says whether the memory took
them. -/
def write [Store M] (bus : Bus M) (cpu : Cpu) (address : UInt32) (width : Width)
    (value : UInt32) : Bool × Bus M :=
  let (taken, memory) :=
    Store.write cpu (width.align address) width (width.truncate value) bus.memory
  (taken, { bus with memory := memory })

/-- Forwards a purge if there is a cache, and says whether there is. -/
def purge (bus : Bus M) (cpu : Cpu) (address : UInt32) (width : Width) : Bool × Bus M :=
  match bus.forward with
  | some forward =>
    (true, { bus with memory := forward cpu (width.align address) width bus.memory })
  | none => (false, bus)

/-- Reads a byte. -/
def read8 [Store M] (bus : Bus M) (cpu : Cpu) (address : UInt32) : UInt8 × Bus M :=
  let (value, bus) := bus.read cpu address .byte
  (value.toUInt8, bus)

/-- Reads a word of two bytes. -/
def read16 [Store M] (bus : Bus M) (cpu : Cpu) (address : UInt32) : UInt16 × Bus M :=
  let (value, bus) := bus.read cpu address .word
  (value.toUInt16, bus)

/-- Reads a long word of four bytes. -/
def read32 [Store M] (bus : Bus M) (cpu : Cpu) (address : UInt32) : UInt32 × Bus M :=
  bus.read cpu address .long

/-- Writes a byte. -/
def write8 [Store M] (bus : Bus M) (cpu : Cpu) (address : UInt32) (value : UInt8) :
    Bool × Bus M :=
  bus.write cpu address .byte value.toUInt32

/-- Writes a word of two bytes. -/
def write16 [Store M] (bus : Bus M) (cpu : Cpu) (address : UInt32) (value : UInt16) :
    Bool × Bus M :=
  bus.write cpu address .word value.toUInt32

/-- Writes a long word of four bytes. -/
def write32 [Store M] (bus : Bus M) (cpu : Cpu) (address value : UInt32) : Bool × Bus M :=
  bus.write cpu address .long value

/-- Fetches the instruction at the program counter into the context and its fetch holder. -/
def fetch [Store M] (bus : Bus M) (context : Context) : UInt16 × Context × Bus M :=
  let (opcode, bus) := bus.read16 context.cpu context.pc
  (opcode,
    { context with opcode := opcode, fetched := ⟨context.pc, opcode, .missing⟩ },
    bus)

/-- Fetches the instruction of a delay slot into the context. The fetch holder goes on
describing the branch, and the pending target belongs to the interpreter. -/
def fetchSlot [Store M] (bus : Bus M) (context : Context) (pc : UInt32) :
    UInt16 × Context × Bus M :=
  let (opcode, bus) := bus.read16 context.cpu pc
  (opcode, { context with opcode := opcode }, bus)

end Bus

end Sh2Pair
