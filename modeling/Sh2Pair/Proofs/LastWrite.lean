import Mathlib.Data.List.Induction
import Mathlib.Data.Nat.Digits.Defs
import Sh2Pair.Bus
import Sh2Pair.Proofs.Footprints

/-!
# A memory holds what was put there last

Behind a bus, every access is aligned to its width, and it is taken if all its bytes lie in the
window that the memory is mapped to. So a memory is described by the bytes that were put at
addresses, by writes that were taken and by loads, one after the other. Its byte at an address is
the one that was put there last, and zero if none was. A read gives the number that the bytes of the
access make up.

Addresses are natural numbers here. A window may reach past the end of the address space, where
nothing is ever put. Loads wrap at this end, and aligned accesses never cross it.
-/

namespace Sh2Pair

/-- The addresses that a memory is mapped to. -/
structure Window where
  base : UInt32
  size : Nat

namespace Window

/-- An address lies in a window. -/
def Holds (window : Window) (address : Nat) : Prop :=
  window.base.toNat ≤ address ∧ address < window.base.toNat + window.size

instance (window : Window) (address : Nat) : Decidable (window.Holds address) :=
  inferInstanceAs (Decidable (_ ∧ _))

/-- All bytes of an access lie in a window. They begin at the aligned address. -/
def Takes (window : Window) (width : Width) (address : UInt32) : Prop :=
  ∀ index < width.bytes, window.Holds ((width.align address).toNat + index)

instance (window : Window) (width : Width) (address : UInt32) :
    Decidable (window.Takes width address) :=
  inferInstanceAs (Decidable (∀ index < width.bytes, _))

/-- An access that is taken has a place in the window. -/
theorem takes_iff {window : Window} {width : Width} {address : UInt32} :
    window.Takes width address ↔ ∃ start,
      window.base.toNat + start = (width.align address).toNat ∧
        start + width.bytes ≤ window.size := by
  have positive : 0 < width.bytes := width.bytes_pos
  constructor
  · intro takes
    obtain ⟨above, _⟩ := takes 0 positive
    obtain ⟨_, below⟩ := takes (width.bytes - 1) (Nat.sub_lt positive Nat.one_pos)
    exact ⟨(width.align address).toNat - window.base.toNat, by omega, by omega⟩
  · rintro ⟨start, begins, ends⟩ index less
    constructor
    · omega
    · omega

end Window

/-- The bytes of a value at a width, the most significant first. -/
def Width.bigEndian (width : Width) (value : UInt32) : List UInt8 :=
  (List.range width.bytes).map fun index =>
    UInt8.ofNat (value.toNat / 256 ^ (width.bytes - 1 - index))

/-- The number that bytes make up, the most significant first. -/
def bigEndianNumber (bytes : List UInt8) : Nat :=
  Nat.ofDigits 256 (bytes.map UInt8.toNat).reverse

/-- A byte, and the address where it is put. -/
abbrev Put := UInt8 × Nat

/-- The byte that was put last at an address, and zero if none was. -/
def latestByte (puts : List Put) (address : Nat) : UInt8 :=
  ((puts.reverse.find? fun put => put.2 = address).map Prod.fst).getD 0

/-- The number that is read from a window: that of the bytes of the aligned access, which were put
there last, and zero if the access is not taken. -/
def Window.value (window : Window) (puts : List Put) (width : Width) (address : UInt32) : Nat :=
  if window.Takes width address then
    bigEndianNumber ((List.range width.bytes).map fun index =>
      latestByte puts ((width.align address).toNat + index))
  else 0

/-- What is done with a bus, or with the flat memory behind it. -/
inductive Traffic where
  | read (cpu : Cpu) (address : UInt32) (width : Width)
  | write (cpu : Cpu) (address : UInt32) (width : Width) (value : UInt32)
  | fetch (context : Context)
  | fetchSlot (context : Context) (pc : UInt32)
  | purge (cpu : Cpu) (address : UInt32) (width : Width)
  | load (address : UInt32) (bytes : List UInt8)

namespace Traffic

/-- What is put into the memory of a window, the latest last. A load may put bytes outside of it. -/
def puts (window : Window) : Traffic → List Put
  | .write _ address width value =>
    if window.Takes width address then
      (width.bigEndian value).zipIdx (width.align address).toNat
    else []
  | .load address bytes =>
    (bytes.zipIdx address.toNat).map fun put => (put.1, put.2 % UInt32.size)
  | _ => []

end Traffic

namespace Bus

end Bus

/-- The last byte that was put at an address is what it holds, and a byte that was put elsewhere
does not count. -/
theorem latestByte_append_singleton (puts : List Put) (put : Put) (address : Nat) :
    latestByte (puts ++ [put]) address =
      if put.2 = address then put.1 else latestByte puts address := by
  rw [latestByte, List.reverse_append, List.reverse_singleton, List.singleton_append,
    List.find?_cons]
  by_cases here : put.2 = address
  · simp [here]
  · simp [here, latestByte]

section Numbers

/-- A byte behind some others shifts them by one place. -/
theorem bigEndianNumber_append_singleton (bytes : List UInt8) (byte : UInt8) :
    bigEndianNumber (bytes ++ [byte]) = 256 * bigEndianNumber bytes + byte.toNat := by
  simp [bigEndianNumber, Nat.ofDigits_cons, Nat.add_comm]

/-- A number of some bytes is less than the power of so many places. -/
theorem bigEndianNumber_lt (bytes : List UInt8) : bigEndianNumber bytes < 256 ^ bytes.length := by
  have bound : Nat.ofDigits 256 (bytes.map UInt8.toNat).reverse <
      256 ^ (bytes.map UInt8.toNat).reverse.length :=
    Nat.ofDigits_lt_base_pow_length (b := 256) (l := (bytes.map UInt8.toNat).reverse)
      (by decide) ?_
  · simpa [bigEndianNumber] using bound
  · intro digit inside
    obtain ⟨byte, _, rfl⟩ := List.mem_map.mp (List.mem_reverse.mp inside)
    exact byte.toNat_lt

/-- A memory composes a value as the number of its bytes, in the range of its words. -/
theorem Ram.toNat_compose (bytes : List UInt8) :
    (compose bytes).toNat = bigEndianNumber bytes % UInt32.size := by
  induction bytes using List.reverseRecOn with
  | nil => rfl
  | append_singleton bytes byte inductionHypothesis =>
    have small : byte.toNat < 2 ^ 8 := byte.toNat_lt
    have snoc : compose (bytes ++ [byte]) = compose bytes <<< 8 ||| byte.toUInt32 := by
      simp [compose]
    have shifted : (compose bytes <<< 8).toNat =
        2 ^ 8 * (bigEndianNumber bytes % 2 ^ 24) := by
      rw [UInt32.toNat_shiftLeft, inductionHypothesis]
      change (bigEndianNumber bytes % 2 ^ 32) <<< 8 % 2 ^ 32 = _
      rw [Nat.shiftLeft_eq]
      omega
    rw [snoc, bigEndianNumber_append_singleton, UInt32.toNat_or, shifted, UInt8.toNat_toUInt32,
      ← Nat.two_pow_add_eq_or_of_lt small]
    change _ = _ % 2 ^ 32
    omega

/-- The byte of a value at a distance from its lower end. -/
theorem toUInt8_shiftRight (value shift : UInt32) (count : Nat)
    (bits : shift.toNat = 8 * count) (small : count < 4) :
    (value >>> shift).toUInt8 = UInt8.ofNat (value.toNat / 256 ^ count) := by
  apply UInt8.toNat_inj.mp
  have whole : shift.toNat % 32 = 8 * count := by omega
  rw [UInt32.toNat_toUInt8, UInt8.toNat_ofNat', UInt32.toNat_shiftRight, whole,
    Nat.shiftRight_eq_div_pow, Nat.pow_mul]

/-- A memory takes a value apart into its bytes. -/
theorem Ram.decompose_eq_bigEndian (width : Width) (value : UInt32) :
    decompose width value = width.bigEndian value := by
  have low : value.toUInt8 = UInt8.ofNat (value.toNat / 256 ^ 0) := by
    apply UInt8.toNat_inj.mp
    simp
  cases width with
  | byte =>
    change [_] = [UInt8.ofNat (value.toNat / 256 ^ 0)]
    rw [low]
  | word =>
    change [_, _] = [UInt8.ofNat (value.toNat / 256 ^ 1), UInt8.ofNat (value.toNat / 256 ^ 0)]
    rw [low, toUInt8_shiftRight value 8 1 rfl (by decide)]
  | long =>
    change [_, _, _, _] = [UInt8.ofNat (value.toNat / 256 ^ 3), UInt8.ofNat (value.toNat / 256 ^ 2),
      UInt8.ofNat (value.toNat / 256 ^ 1), UInt8.ofNat (value.toNat / 256 ^ 0)]
    rw [low, toUInt8_shiftRight value 24 3 rfl (by decide),
      toUInt8_shiftRight value 16 2 rfl (by decide), toUInt8_shiftRight value 8 1 rfl (by decide)]

/-- The shift by the bits of an access is the power of its bytes. -/
theorem Width.one_shiftLeft_bytes (width : Width) :
    1 <<< (8 * width.bytes) = 256 ^ width.bytes := by
  rw [Nat.one_shiftLeft, Nat.pow_mul]

/-- The bits above the width do not count. -/
theorem Width.bigEndian_truncate (width : Width) (value : UInt32) :
    width.bigEndian (width.truncate value) = width.bigEndian value := by
  apply List.map_congr_left
  intro index inside
  have less : index < width.bytes := List.mem_range.mp inside
  have split : 256 ^ width.bytes =
      256 ^ (width.bytes - 1 - index) * 256 ^ (index + 1) := by
    rw [← Nat.pow_add]
    congr 1
    omega
  apply UInt8.toNat_inj.mp
  rw [UInt8.toNat_ofNat', UInt8.toNat_ofNat', toNat_truncate, one_shiftLeft_bytes, split,
    Nat.mod_mul_right_div_self]
  exact Nat.mod_mod_of_dvd _ (Dvd.intro_left _ (Nat.pow_succ ..).symm)

end Numbers

/-- A memory that is mapped to a window and holds what was put there last. -/
structure Ram.Keeps (ram : Ram) (window : Window) (puts : List Put) : Prop where
  base : ram.base = window.base
  size : ram.bytes.size = window.size
  byte : ∀ position < window.size,
    ram.bytes.getD position 0 = latestByte puts (window.base.toNat + position)

namespace Ram.Keeps

variable {ram : Ram} {window : Window} {puts : List Put}

/-- A new memory is zero everywhere, and nothing was put there. -/
theorem zeroed (base : UInt32) (size : Nat) : (Ram.zeroed base size).Keeps ⟨base, size⟩ [] := by
  refine ⟨rfl, Array.size_replicate, ?_⟩
  intro position less
  have inside : position < (Array.replicate size (0 : UInt8)).size := by simpa using less
  rw [Ram.zeroed, Array.getD_eq_getD_getElem?, Array.getElem?_eq_getElem inside]
  simp [latestByte]

/-- A byte that is put into the window stands there from then on. -/
theorem put (keeps : ram.Keeps window puts) (byte : UInt8) (position : Nat) :
    { ram with bytes := ram.bytes.setIfInBounds position byte }.Keeps window
      (puts ++ [(byte, window.base.toNat + position)]) := by
  constructor
  case base => exact keeps.base
  case size => rw [Array.size_setIfInBounds, keeps.size]
  case byte =>
    intro other less
    rw [latestByte_append_singleton, ← keeps.byte other less, Array.getD_eq_getD_getElem?,
      Array.getD_eq_getD_getElem?, Array.getElem?_setIfInBounds, keeps.size]
    by_cases here : position = other
    · simp [here, less]
    · simp [here]

/-- A byte that is put elsewhere leaves the window alone. -/
theorem stray (keeps : ram.Keeps window puts) (byte : UInt8) {address : Nat}
    (outside : ¬ window.Holds address) : ram.Keeps window (puts ++ [(byte, address)]) := by
  refine ⟨keeps.base, keeps.size, ?_⟩
  intro position less
  have other : address ≠ window.base.toNat + position := by
    rintro rfl
    exact outside ⟨Nat.le_add_right .., Nat.add_lt_add_left less _⟩
  rw [latestByte_append_singleton, if_neg other, keeps.byte position less]

/-- Bytes that are put one behind the other into the window. -/
theorem patch (keeps : ram.Keeps window puts) (bytes : List UInt8) {start : Nat}
    (room : start + bytes.length ≤ window.size) :
    { ram with bytes := Ram.patch ram.bytes start bytes }.Keeps window
      (puts ++ bytes.zipIdx (window.base.toNat + start)) := by
  induction bytes generalizing ram puts start with
  | nil => simpa [Ram.patch] using keeps
  | cons byte later inductionHypothesis =>
    rw [List.length_cons] at room
    have fits : start + 1 + later.length ≤ window.size := by omega
    have rest := inductionHypothesis (keeps.put byte start) fits
    rw [List.append_assoc] at rest
    exact rest

/-- The place of an address in a memory. -/
theorem slot?_eq_some_iff (keeps : ram.Keeps window puts) {address : UInt32} {position : Nat} :
    ram.slot? address = some position ↔
      window.base.toNat + position = address.toNat ∧ position < window.size := by
  rw [Ram.slot?_eq_some_iff, keeps.base, keeps.size]

/-- A load puts each byte at its address, which wraps at the end of the address space.

Proof: by induction on the bytes. Each byte is put if its address has a slot, and goes astray
otherwise; the next address is one further, modulo the address space. -/
theorem load (keeps : ram.Keeps window puts) (bytes : List UInt8) {address : UInt32} {place : Nat}
    (wraps : place % UInt32.size = address.toNat) :
    (ram.load address bytes).Keeps window
      (puts ++ (bytes.zipIdx place).map fun put => (put.1, put.2 % UInt32.size)) := by
  induction bytes generalizing ram puts address place with
  | nil => simpa [Ram.load] using keeps
  | cons byte later inductionHypothesis =>
    have next : (place + 1) % UInt32.size = (address + 1).toNat := by
      rw [UInt32.toNat_add, ← wraps]
      simp [Nat.add_mod]
    rw [Ram.load, List.zipIdx_cons, List.map_cons, wraps, List.append_cons]
    cases slot : ram.slot? address with
    | some position =>
      obtain ⟨here, _⟩ := keeps.slot?_eq_some_iff.mp slot
      rw [← here]
      exact inductionHypothesis (keeps.put byte position) next
    | none =>
      refine inductionHypothesis (keeps.stray byte ?_) next
      rintro ⟨above, below⟩
      have inside : ram.slot? address = some (address.toNat - window.base.toNat) :=
        keeps.slot?_eq_some_iff.mpr
          ⟨Nat.add_sub_cancel' above, Nat.sub_lt_left_of_lt_add above below⟩
      rw [slot] at inside
      cases inside

/-- A memory takes the accesses that its window takes. -/
theorem span?_ne_none_iff (keeps : ram.Keeps window puts) {width : Width} {address : UInt32} :
    ram.span? (width.align address) width ≠ none ↔ window.Takes width address := by
  rw [Option.ne_none_iff_exists', Window.takes_iff]
  apply exists_congr
  intro start
  rw [Ram.span?_eq_some_iff, keeps.base, keeps.size]

/-- Consecutive bytes of a memory are those that were put there last. -/
theorem slice (keeps : ram.Keeps window puts) (count : Nat) {start : Nat}
    (room : start + count ≤ window.size) :
    Ram.slice ram.bytes start count =
      (List.range count).map fun index => latestByte puts (window.base.toNat + start + index) := by
  induction count generalizing start with
  | zero => rfl
  | succ count inductionHypothesis =>
    rw [Ram.slice, keeps.byte start (by omega), inductionHypothesis (by omega),
      List.range_succ_eq_map, List.map_cons, List.map_map]
    congr 1
    apply List.map_congr_left
    intro index _
    simp only [Function.comp_apply, Nat.succ_eq_add_one]
    congr 1
    omega

/-- A write puts the bytes of its value, if it is taken, and changes nothing otherwise.

Proof: a write is refused exactly outside the window. Inside, it patches the bytes of its value in
one piece, which puts them one after the other. -/
theorem poke (keeps : ram.Keeps window puts) (width : Width) (address value : UInt32) :
    let written := ram.poke (width.align address) width (width.truncate value)
    (written.1 = true ↔ window.Takes width address) ∧
      (¬ window.Takes width address → written.2 = ram) ∧
      written.2.Keeps window
        (puts ++ if window.Takes width address then
          (width.bigEndian value).zipIdx (width.align address).toNat else []) := by
  have taken : ram.span? (width.align address) width ≠ none ↔ window.Takes width address :=
    keeps.span?_ne_none_iff
  simp only [Ram.poke]
  cases span : ram.span? (width.align address) width with
  | none =>
    have refuses : ¬ window.Takes width address := fun takes => taken.mpr takes span
    simpa [refuses] using keeps
  | some start =>
    have takes : window.Takes width address := by
      apply taken.mp
      rw [span]
      exact Option.some_ne_none start
    obtain ⟨begins, ends⟩ := Ram.span?_eq_some_iff.mp span
    rw [keeps.base] at begins
    rw [keeps.size] at ends
    have length : (width.bigEndian value).length = width.bytes := by simp [Width.bigEndian]
    have put := keeps.patch (width.bigEndian value) (length.symm ▸ ends)
    simpa [takes, Ram.decompose_eq_bigEndian, Width.bigEndian_truncate, ← begins] using put

end Ram.Keeps

namespace Bus

variable {bus : Bus Ram} {window : Window} {puts : List Put}

end Bus

end Sh2Pair
