import Sh2Pair.Memory.Store

/-!
# Flat memory

A block of big-endian bytes mapped at a base address. An access is taken only if all its bytes
lie in the block; any other access reads as zero and writes nothing. The position of an address
in the block is its distance above the base, so the block has no wrap-around of its own: an
address below the base lies outside, also when the block reaches past the end of the address
space. Purges are recorded and have no other effect.
-/

namespace Sh2Pair

/-- A place named by a purge. -/
structure PurgedPlace where
  cpu : Cpu
  address : UInt32
  width : Width
  deriving DecidableEq

/-- A block of bytes mapped at a base address, with the purges it received, the latest first. -/
structure Ram where
  base : UInt32
  bytes : Array UInt8
  purged : List PurgedPlace

namespace Ram

/-- A block of zero bytes. -/
def zeroed (base : UInt32) (size : Nat) : Ram := ⟨base, Array.replicate size 0, []⟩

/-- The position of an address in the block, if it lies inside. -/
def slot? (ram : Ram) (address : UInt32) : Option Nat :=
  if ram.base ≤ address then
    let offset := (address - ram.base).toNat
    if offset < ram.bytes.size then some offset else none
  else none

/-- The position of the first byte of an access, if all its bytes lie inside. -/
def span? (ram : Ram) (address : UInt32) (width : Width) : Option Nat :=
  match ram.slot? address with
  | some start => if start + width.bytes ≤ ram.bytes.size then some start else none
  | none => none

/-- The big-endian number of a list of bytes. -/
def compose (bytes : List UInt8) : UInt32 :=
  bytes.foldl (fun sum byte => sum <<< 8 ||| byte.toUInt32) 0

/-- The bytes of a value at a width, the most significant first. -/
def decompose (width : Width) (value : UInt32) : List UInt8 :=
  match width with
  | .byte => [value.toUInt8]
  | .word => [(value >>> 8).toUInt8, value.toUInt8]
  | .long =>
    [(value >>> 24).toUInt8, (value >>> 16).toUInt8, (value >>> 8).toUInt8, value.toUInt8]

/-- The `count` bytes from a position on. -/
def slice (bytes : Array UInt8) (start : Nat) : Nat → List UInt8
  | 0 => []
  | count + 1 => bytes.getD start 0 :: slice bytes (start + 1) count

/-- Puts bytes at consecutive positions, leaving out those past the end. -/
def patch (bytes : Array UInt8) (start : Nat) : List UInt8 → Array UInt8
  | [] => bytes
  | byte :: later => patch (bytes.setIfInBounds start byte) (start + 1) later

/-- The value read at an address: zero unless the whole access lies inside. -/
def peek (ram : Ram) (address : UInt32) (width : Width) : UInt32 :=
  match ram.span? address width with
  | some start => compose (slice ram.bytes start width.bytes)
  | none => 0

/-- Writes a value if the whole access lies inside, and says whether it did. -/
def poke (ram : Ram) (address : UInt32) (width : Width) (value : UInt32) : Bool × Ram :=
  match ram.span? address width with
  | some start => (true, { ram with bytes := patch ram.bytes start (decompose width value) })
  | none => (false, ram)

/-- Puts bytes at consecutive addresses, which wrap at the end of the address space. A byte
whose address lies outside the block is left out. -/
def load (ram : Ram) (address : UInt32) : List UInt8 → Ram
  | [] => ram
  | byte :: later =>
    match ram.slot? address with
    | some position =>
      load { ram with bytes := ram.bytes.setIfInBounds position byte } (address + 1) later
    | none => load ram (address + 1) later

instance : Store Ram where
  read _ address width ram := (ram.peek address width, ram)
  write _ address width value ram := ram.poke address width value

instance : CacheControl Ram where
  purge cpu address width ram := { ram with purged := ⟨cpu, address, width⟩ :: ram.purged }

end Ram

end Sh2Pair
