import Sh2Pair.Proofs.LastWrite

/-!
# Accesses straight on flat memory

Without a bus in front of it, a memory is accessed at any address, aligned or not. Such an access is
about the bytes at consecutive addresses, which wrap at the end of the address space. It is bytewise
if it comes to the same as accesses to these bytes: it reads the number that they make up and writes
what a load would put there, and if one of them lies outside the window it reads zero and writes
nothing.

A memory looks at the distance of the first byte above its base, and takes an access if the block
has room from there on. It does not ask whether the addresses wrap. A block that reaches past the
end of the address space has bytes behind it that no address denotes, so an access that crosses the
end finds room there, although the addresses of its last bytes lie outside the window. These are the
only accesses that are not bytewise.
-/

namespace Sh2Pair.Ram

variable {ram : Ram} {width : Width} {address : UInt32}

/-- The window that a memory is mapped to. -/
def window (ram : Ram) : Window := ⟨ram.base, ram.bytes.size⟩

/-- The addresses of the bytes of an access, which wrap at the end of the address space. -/
def places (width : Width) (address : UInt32) : List UInt32 :=
  (List.range width.bytes).map fun index => address + UInt32.ofNat index

/-- All bytes of an access lie in the window of a memory. -/
def Inside (ram : Ram) (width : Width) (address : UInt32) : Prop :=
  ∀ place ∈ places width address, ram.window.Holds place.toNat

instance (ram : Ram) (width : Width) (address : UInt32) : Decidable (ram.Inside width address) :=
  List.decidableBAll (fun place : UInt32 => ram.window.Holds place.toNat) (places width address)

/-- An access to a memory comes to the same as accesses to its bytes. -/
structure Bytewise (ram : Ram) (width : Width) (address : UInt32) : Prop where
  /-- The bytes are read one by one, and make up a number with the most significant first. -/
  peek_inside : ram.Inside width address → (ram.peek address width).toNat =
    Nat.ofDigits 256
      ((places width address).map fun place => (ram.peek place .byte).toNat).reverse
  /-- The bytes of a value are put where a load puts them. -/
  poke_inside : ram.Inside width address →
    ∀ value, (ram.poke address width value).2 = ram.load address (width.bigEndian value)
  peek_outside : ¬ ram.Inside width address → ram.peek address width = 0
  poke_outside : ¬ ram.Inside width address →
    ∀ value, (ram.poke address width value).2 = ram

/-- An access crosses the end of the address space, and the block of the memory has room for it. -/
def Crosses (ram : Ram) (width : Width) (address : UInt32) : Prop :=
  UInt32.size < address.toNat + width.bytes ∧ ram.base ≤ address ∧
    address.toNat + width.bytes ≤ ram.base.toNat + ram.bytes.size

instance (ram : Ram) (width : Width) (address : UInt32) : Decidable (ram.Crosses width address) :=
  inferInstanceAs (Decidable (_ ∧ _))

/-- As long as addresses do not wrap, they count up. -/
theorem toNat_place {index : Nat} (within : address.toNat + index < UInt32.size) :
    (address + UInt32.ofNat index).toNat = address.toNat + index := by
  have small : index < UInt32.size := by omega
  rw [UInt32.toNat_add, UInt32.toNat_ofNat_of_lt' small]
  exact Nat.mod_eq_of_lt within

/-- The bytes of an access lie in the window one by one. -/
theorem inside_iff : ram.Inside width address ↔
    ∀ index < width.bytes, ram.window.Holds (address + UInt32.ofNat index).toNat := by
  simp [Inside, places]

/-- An access that crosses the end of the address space has a byte at the last address and one at
the first. No window holds both, unless it holds every address.

Proof: the last address and the first one would both be in the window. Its size would then be that
of the whole address space. -/
theorem not_inside_of_wraps (small : ram.bytes.size < UInt32.size)
    (wraps : UInt32.size < address.toNat + width.bytes) : ¬ ram.Inside width address := by
  intro inside
  rw [inside_iff] at inside
  have bound : address.toNat < UInt32.size := address.toNat_lt_size
  have last : ram.window.Holds (address + UInt32.ofNat (UInt32.size - 1 - address.toNat)).toNat :=
    inside (UInt32.size - 1 - address.toNat) (by omega)
  have first : ram.window.Holds (address + UInt32.ofNat (UInt32.size - address.toNat)).toNat :=
    inside (UInt32.size - address.toNat) (by omega)
  have top : (address + UInt32.ofNat (UInt32.size - 1 - address.toNat)).toNat =
      UInt32.size - 1 := by
    rw [toNat_place (by omega)]
    omega
  have bottom : (address + UInt32.ofNat (UInt32.size - address.toNat)).toNat = 0 := by
    have length : UInt32.size - address.toNat < UInt32.size := by
      have widest : width.bytes ≤ 4 := by cases width <;> decide
      have large : 4 < UInt32.size := by decide
      omega
    rw [UInt32.toNat_add, UInt32.toNat_ofNat_of_lt' length]
    have whole : address.toNat + (UInt32.size - address.toNat) = UInt32.size := by omega
    rw [whole]
    rfl
  rw [top] at last
  rw [bottom] at first
  obtain ⟨_, below⟩ := last
  obtain ⟨above, _⟩ := first
  simp only [window] at above below
  omega

/-- An access that lies in the window begins at its place in the block, and its addresses do not
wrap. -/
theorem span?_of_inside (small : ram.bytes.size < UInt32.size)
    (inside : ram.Inside width address) : address.toNat + width.bytes ≤ UInt32.size ∧
      ∃ start, ram.span? address width = some start := by
  have positive : 0 < width.bytes := width.bytes_pos
  have fits : address.toNat + width.bytes ≤ UInt32.size :=
    Nat.le_of_not_lt fun wraps => not_inside_of_wraps small wraps inside
  rw [inside_iff] at inside
  obtain ⟨above, _⟩ := inside 0 positive
  obtain ⟨_, below⟩ := inside (width.bytes - 1) (by omega)
  rw [toNat_place (by omega)] at above below
  simp only [window] at above below
  exact ⟨fits, address.toNat - ram.base.toNat, span?_eq_some_iff.mpr (by omega)⟩

/-- A memory takes an access exactly if it lies in the window or crosses the end of the address
space. -/
theorem span?_ne_none_iff (small : ram.bytes.size < UInt32.size) :
    ram.span? address width ≠ none ↔ ram.Inside width address ∨ ram.Crosses width address := by
  rw [Option.ne_none_iff_exists']
  constructor
  · rintro ⟨start, span⟩
    obtain ⟨begins, ends⟩ := span?_eq_some_iff.mp span
    by_cases wraps : UInt32.size < address.toNat + width.bytes
    · exact .inr ⟨wraps, UInt32.le_iff_toNat_le.mpr (by omega), by omega⟩
    · refine .inl (inside_iff.mpr fun index less => ?_)
      rw [toNat_place (by omega)]
      simp only [Window.Holds, window]
      omega
  · rintro (inside | ⟨_, above, room⟩)
    · exact (span?_of_inside small inside).2
    · rw [UInt32.le_iff_toNat_le] at above
      exact ⟨address.toNat - ram.base.toNat, span?_eq_some_iff.mpr (by omega)⟩

section Bytes

variable {start : Nat}

/-- A slice of some bytes is made of the bytes at its places, and of zeros behind their end. -/
theorem slice_eq_map_range (bytes : Array UInt8) (start count : Nat) :
    slice bytes start count = (List.range count).map fun index => bytes.getD (start + index) 0 := by
  induction count generalizing start with
  | zero => rfl
  | succ count inductionHypothesis =>
    rw [slice, inductionHypothesis, List.range_succ_eq_map, List.map_cons, List.map_map]
    simp [Function.comp_def, Nat.add_assoc, Nat.add_comm 1]

/-- A byte that lies in the block is read as it stands there. -/
theorem toNat_peek_byte (begins : ram.base.toNat + start = address.toNat)
    (room : start < ram.bytes.size) :
    (ram.peek address .byte).toNat = (ram.bytes.getD start 0).toNat := by
  have span : ram.span? address .byte = some start := span?_eq_some_iff.mpr ⟨begins, room⟩
  rw [peek, span]
  simp [Width.bytes, slice, compose]

/-- A load into the block whose addresses do not wrap is a patch. The address behind the last byte
may wrap, since nothing is put there.

Proof: by induction on the bytes. Each byte has its slot right behind that of the one before. -/
theorem load_eq_patch (bytes : List UInt8) (begins : ram.base.toNat + start = address.toNat)
    (room : start + bytes.length ≤ ram.bytes.size)
    (fits : address.toNat + bytes.length ≤ UInt32.size) :
    ram.load address bytes = { ram with bytes := patch ram.bytes start bytes } := by
  induction bytes generalizing ram address start with
  | nil => rfl
  | cons byte later inductionHypothesis =>
    rw [List.length_cons] at room fits
    have slot : ram.slot? address = some start := slot?_eq_some_iff.mpr ⟨begins, by omega⟩
    simp only [load, slot, patch]
    cases later with
    | nil => rfl
    | cons next rest =>
      rw [List.length_cons] at room fits
      have counted : (address + 1).toNat = address.toNat + 1 :=
        toNat_place (show address.toNat + 1 < UInt32.size by omega)
      have size : (ram.bytes.setIfInBounds start byte).size = ram.bytes.size :=
        Array.size_setIfInBounds
      apply inductionHypothesis
      · rw [counted, ← begins, Nat.add_assoc]
      · dsimp only
        rw [size, List.length_cons]
        omega
      · rw [List.length_cons, counted]
        omega

/-- A value of some width has that many bytes. -/
theorem length_bigEndian (width : Width) (value : UInt32) :
    (width.bigEndian value).length = width.bytes := by
  simp [Width.bigEndian]

/-- The last byte of a patch stands behind the others. -/
theorem getD_patch_last (bytes : Array UInt8) (init : List UInt8) (last : UInt8)
    (room : start + init.length < bytes.size) :
    (patch bytes start (init ++ [last])).getD (start + init.length) 0 = last := by
  induction init generalizing bytes start with
  | nil =>
    have inside : start < bytes.size := room
    simp [patch, Array.getD_eq_getD_getElem?, inside]
  | cons byte later inductionHypothesis =>
    rw [List.length_cons] at room ⊢
    have shifted : start + (later.length + 1) = start + 1 + later.length := by omega
    rw [List.cons_append, patch, shifted]
    apply inductionHypothesis
    rw [Array.size_setIfInBounds]
    omega

/-- The lowest byte of a value is written last. -/
theorem decompose_eq_append (width : Width) (value : UInt32) :
    ∃ init, decompose width value = init ++ [value.toUInt8] ∧ init.length + 1 = width.bytes := by
  cases width with
  | byte => exact ⟨[], rfl, rfl⟩
  | word => exact ⟨[_], rfl, rfl⟩
  | long => exact ⟨[_, _, _], rfl, rfl⟩

/-- A write that is taken leaves the lowest byte of its value at the end of the access. -/
theorem getD_poke (span : ram.span? address width = some start) (value : UInt32) :
    (ram.poke address width value).2.bytes.getD (start + (width.bytes - 1)) 0 = value.toUInt8 := by
  obtain ⟨_, ends⟩ := span?_eq_some_iff.mp span
  obtain ⟨init, split, length⟩ := decompose_eq_append width value
  have counted : width.bytes - 1 = init.length := by omega
  simp only [poke, span, split, counted]
  exact getD_patch_last ram.bytes init value.toUInt8 (by omega)

/-- So two values that differ in the lowest byte do not both leave a memory as it was. -/
theorem poke_ne_of_span (taken : ram.span? address width ≠ none) :
    ∃ value, (ram.poke address width value).2 ≠ ram := by
  obtain ⟨start, span⟩ := Option.ne_none_iff_exists'.mp taken
  by_contra never
  push Not at never
  have zero :
      (ram.poke address width 0).2.bytes.getD (start + (width.bytes - 1)) 0 = UInt32.toUInt8 0 :=
    getD_poke span 0
  have one :
      (ram.poke address width 1).2.bytes.getD (start + (width.bytes - 1)) 0 = UInt32.toUInt8 1 :=
    getD_poke span 1
  rw [never] at zero one
  exact absurd (zero.symm.trans one) (by decide)

/-- An access that lies in the window reads the number that its bytes make up.

Proof: the access is a slice of the block, and the bytes of the slice are those that the single
addresses hold. -/
theorem number_of_inside (small : ram.bytes.size < UInt32.size)
    (inside : ram.Inside width address) : (ram.peek address width).toNat = Nat.ofDigits 256
      ((places width address).map fun place => (ram.peek place .byte).toNat).reverse := by
  obtain ⟨fits, start, span⟩ := span?_of_inside small inside
  obtain ⟨begins, ends⟩ := span?_eq_some_iff.mp span
  have bytes : (slice ram.bytes start width.bytes).map UInt8.toNat =
      (places width address).map fun place => (ram.peek place .byte).toNat := by
    rw [slice_eq_map_range, places, List.map_map, List.map_map]
    apply List.map_congr_left
    intro index within
    have less : index < width.bytes := List.mem_range.mp within
    refine (toNat_peek_byte ?_ ?_).symm
    · rw [toNat_place (by omega)]
      omega
    · omega
  have widest : 256 ^ width.bytes ≤ UInt32.size := by cases width <;> decide
  have range : bigEndianNumber (slice ram.bytes start width.bytes) <
      256 ^ (slice ram.bytes start width.bytes).length :=
    bigEndianNumber_lt (slice ram.bytes start width.bytes)
  rw [slice_eq_map_range, List.length_map, List.length_range, ← slice_eq_map_range] at range
  rw [peek, span]
  dsimp only
  rw [toNat_compose, Nat.mod_eq_of_lt (Nat.lt_of_lt_of_le range widest), bigEndianNumber, bytes]

/-- Inside of a memory, a store of a value is a load of its bytes. -/
theorem load_of_inside (small : ram.bytes.size < UInt32.size)
    (inside : ram.Inside width address) (value : UInt32) :
    (ram.poke address width value).2 = ram.load address (width.bigEndian value) := by
  obtain ⟨fits, start, span⟩ := span?_of_inside small inside
  obtain ⟨begins, ends⟩ := span?_eq_some_iff.mp span
  have length : (width.bigEndian value).length = width.bytes := length_bigEndian width value
  rw [load_eq_patch _ begins (length.symm ▸ ends) (length.symm ▸ fits), ← decompose_eq_bigEndian]
  simp only [poke, span]

end Bytes

/-- An access is bytewise exactly if it does not cross the end of the address space inside the block
of the memory.

Proof: an access is taken if it lies in the window, and otherwise only if it crosses the end. If it
does cross, a write of suitable bytes changes the memory, although a byte of it lies outside. -/
theorem bytewise_iff_not_crosses (ram : Ram) (small : ram.bytes.size < UInt32.size)
    (width : Width) (address : UInt32) :
    ram.Bytewise width address ↔ ¬ ram.Crosses width address := by
  constructor
  · intro bytewise crosses
    obtain ⟨value, changed⟩ := poke_ne_of_span ((span?_ne_none_iff small).mpr (.inr crosses))
    exact changed (bytewise.poke_outside (not_inside_of_wraps small crosses.1) value)
  · intro apart
    have refused : ¬ ram.Inside width address → ram.span? address width = none := by
      intro outside
      by_contra taken
      exact ((span?_ne_none_iff small).mp taken).elim outside apart
    constructor
    case peek_inside => exact number_of_inside small
    case poke_inside => exact load_of_inside small
    case peek_outside =>
      intro outside
      rw [peek, refused outside]
    case poke_outside =>
      intro outside value
      rw [poke, refused outside]

/-- A memory of thirty-two bytes, half of which lie behind the end of the address space. -/
def overhanging : Ram :=
  (zeroed 0xfffffff0 32).load 0xfffffffe [0xaa, 0xbb]

/-- The word at the last two addresses does not cross the end, so it is read byte by byte. -/
theorem bytewise_iff_not_crosses_overhanging :
    overhanging.bytes.size < UInt32.size ∧ overhanging.Bytewise .word 0xfffffffe ∧
      overhanging.peek 0xfffffffe .word = 0xaabb := by
  have small : overhanging.bytes.size < UInt32.size := by decide +kernel
  have bytewise : overhanging.Bytewise .word 0xfffffffe :=
    (bytewise_iff_not_crosses overhanging small .word 0xfffffffe).mpr (by decide +kernel)
  have inside : overhanging.Inside .word 0xfffffffe := by decide +kernel
  refine ⟨small, bytewise, ?_⟩
  apply UInt32.toNat_inj.mp
  exact (bytewise.peek_inside inside).trans (by decide +kernel)

/-- A long word at the same place is not: of the addresses of its bytes the last two, zero and one,
lie outside the window, but it is not read as zero. -/
theorem not_bytewise_behind_end : ¬ overhanging.Bytewise .long 0xfffffffe := by
  intro bytewise
  have outside : ¬ overhanging.Inside .long 0xfffffffe := by decide +kernel
  exact absurd (bytewise.peek_outside outside) (by decide +kernel)

end Sh2Pair.Ram
