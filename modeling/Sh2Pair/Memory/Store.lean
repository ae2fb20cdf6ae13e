import Sh2Pair.Cpu

/-!
# What a memory is

A memory answers reads and takes writes on behalf of one of the two processors. Reading may
change the memory, since registers mapped into it can react to being read, and an answer may be
wider than the access asked for. A write is acknowledged: the memory says whether it took the
value. A memory with a cache in front of it can also be told to drop what the cache holds.

An access moves one, two or four bytes. The bus drives an access at the nearest address below
that is a multiple of its width, and carries only as many bits as the width holds.

The probe is the simplest memory. It answers every read with one fixed word, whatever the width,
takes every write without effect, and remembers each request, which shows what a bus sends.
-/

namespace Sh2Pair

/-- The width of a memory access. -/
inductive Width where
  | byte
  | word
  | long
  deriving DecidableEq, Inhabited

namespace Width

/-- The number of bytes moved. -/
def bytes : Width → Nat
  | .byte => 1
  | .word => 2
  | .long => 4

/-- The name used in diagnostics. -/
def title : Width → String
  | .byte => "Byte"
  | .word => "Word"
  | .long => "Long"

/-- Clears the address bits below the natural alignment of the width. -/
def align (width : Width) (address : UInt32) : UInt32 :=
  address - address % UInt32.ofNat width.bytes

/-- Keeps as many low bits of the value as the width holds. -/
def truncate (width : Width) (value : UInt32) : UInt32 :=
  match width with
  | .byte => value &&& 0xff
  | .word => value &&& 0xffff
  | .long => value

/-- Every access has some bytes. -/
theorem bytes_pos (width : Width) : 0 < width.bytes := by cases width <;> decide

/-- The aligned address is the greatest multiple of the width not above the address. -/
theorem toNat_align (width : Width) (address : UInt32) :
    (width.align address).toNat = address.toNat - address.toNat % width.bytes := by
  have below : address.toNat % width.bytes ≤ address.toNat := Nat.mod_le _ _
  have small : (UInt32.ofNat width.bytes).toNat = width.bytes := by cases width <;> rfl
  have remainder : (address % UInt32.ofNat width.bytes).toNat = address.toNat % width.bytes := by
    rw [UInt32.toNat_mod, small]
  rw [align, UInt32.toNat_sub_of_le, remainder]
  rw [UInt32.le_iff_toNat_le, remainder]
  exact below

/-- The kept value is the value modulo the range of the width. -/
theorem toNat_truncate (width : Width) (value : UInt32) :
    (width.truncate value).toNat = value.toNat % 1 <<< (8 * width.bytes) := by
  have bound : value.toNat < 2 ^ 32 := value.toNat_lt
  cases width with
  | byte => exact Nat.and_two_pow_sub_one_eq_mod value.toNat 8
  | word => exact Nat.and_two_pow_sub_one_eq_mod value.toNat 16
  | long => exact (Nat.mod_eq_of_lt bound).symm

end Width

/-- The capability of a memory that the bus relies on. -/
class Store (M : Type) where
  /-- Answers a read at an address and gives the memory afterwards. -/
  read : Cpu → UInt32 → Width → M → UInt32 × M
  /-- Offers a value to the memory. The flag says whether it was taken. -/
  write : Cpu → UInt32 → Width → UInt32 → M → Bool × M

/-- The capability of being told that a cached place is out of date. -/
class CacheControl (M : Type) where
  /-- Drops what the cache holds for an address. -/
  purge : Cpu → UInt32 → Width → M → M

/-- One request that reached a memory. -/
inductive Access where
  | read (cpu : Cpu) (address : UInt32) (width : Width)
  | write (cpu : Cpu) (address : UInt32) (width : Width) (value : UInt32)
  | purge (cpu : Cpu) (address : UInt32) (width : Width)
  deriving DecidableEq

/-- A memory of one fixed answer, with the requests it received, the latest first. -/
structure Probe where
  answer : UInt32
  requests : List Access

namespace Probe

/-- A probe that has received nothing. -/
def answering (answer : UInt32) : Probe := ⟨answer, []⟩

/-- Remembers a request. -/
def remember (probe : Probe) (access : Access) : Probe :=
  { probe with requests := access :: probe.requests }

instance : Store Probe where
  read cpu address width probe := (probe.answer, probe.remember (.read cpu address width))
  write cpu address width value probe :=
    (true, probe.remember (.write cpu address width value))

instance : CacheControl Probe where
  purge cpu address width probe := probe.remember (.purge cpu address width)

end Probe

end Sh2Pair
