/-!
# The fetch holder

A context remembers the instruction word it fetched last, the address it came from, and the
compiled block it came out of. Blocks are numbered by a table; the greatest word is the number
of no block at all.
-/

namespace Sh2Pair

/-- A reference to a compiled block, as a number in the block table. -/
structure Block where
  number : UInt32
  deriving DecidableEq

namespace Block

/-- The reference to no block. -/
def missing : Block := ⟨0xffffffff⟩

instance : Inhabited Block := ⟨missing⟩

/-- Whether the reference is to a block. -/
def isValid (block : Block) : Bool := block.number != 0xffffffff

/-- The place in the block table, if there is a block. -/
def index? (block : Block) : Option UInt32 :=
  if block.isValid then some block.number else none

end Block

/-- The instruction word fetched last. -/
structure Fetched where
  pc : UInt32
  opcode : UInt16
  block : Block
  deriving DecidableEq

namespace Fetched

/-- Nothing has been fetched yet. -/
def nothing : Fetched := ⟨0, 0, .missing⟩

instance : Inhabited Fetched := ⟨nothing⟩

/-- Whether the instruction came out of a compiled block. -/
def hasBlock (fetched : Fetched) : Bool := fetched.block.isValid

end Fetched

end Sh2Pair
