import Mathlib.Tactic.ByContra
import Sh2Pair.Memory.Ram

/-!
# Which bytes an access touches

An access at an address covers the bytes of the aligned block around it. A store writes these bytes
if all of them lie in the memory, and nothing otherwise. Where the bytes of two accesses are apart,
they cannot tell in which order they were made: a word reads as before after the store of a long
word elsewhere, and two stores at places apart may change places.
-/

namespace Sh2Pair

namespace Width

/-- An access of a width at an address touches a byte. -/
def Covers (width : Width) (address byte : UInt32) : Prop :=
  (width.align address).toNat ≤ byte.toNat ∧
    byte.toNat < (width.align address).toNat + width.bytes

/-- An aligned address is a multiple of the bytes of the access. -/
theorem toNat_align_mod (width : Width) (address : UInt32) :
    (width.align address).toNat % width.bytes = 0 := by
  rw [toNat_align]
  exact Nat.sub_mod_eq_zero_of_mod_eq (Nat.mod_mod _ _).symm

/-- An access covers the byte at its own aligned address. -/
theorem covers_align (width : Width) (address : UInt32) :
    width.Covers address (width.align address) :=
  ⟨Nat.le_refl _, Nat.lt_add_of_pos_right width.bytes_pos⟩

/-- A word and a long word have no byte in common exactly if they lie one behind the other. -/
theorem disjoint_word_iff {long word : UInt32} :
    (∀ byte, Width.long.Covers long byte → ¬ Width.word.Covers word byte) ↔
      (Width.word.align word).toNat + 2 ≤ (Width.long.align long).toNat ∨
        (Width.long.align long).toNat + 4 ≤ (Width.word.align word).toNat := by
  have longAligned : (Width.long.align long).toNat % 4 = 0 := toNat_align_mod .long long
  have wordAligned : (Width.word.align word).toNat % 2 = 0 := toNat_align_mod .word word
  constructor
  · intro disjoint
    by_contra overlap
    -- The first byte of the word then lies in the long word, since both are aligned.
    refine disjoint (Width.word.align word) ⟨?_, ?_⟩ (covers_align .word word)
    · omega
    · change (Width.word.align word).toNat < (Width.long.align long).toNat + 4
      omega
  · rintro apart byte ⟨above, below⟩ ⟨aboveToo, belowToo⟩
    simp only [bytes] at below belowToo
    omega

/-- Two long words have no byte in common exactly if they lie one behind the other. -/
theorem disjoint_long_iff {first second : UInt32} :
    (∀ byte, Width.long.Covers first byte → ¬ Width.long.Covers second byte) ↔
      (Width.long.align first).toNat + 4 ≤ (Width.long.align second).toNat ∨
        (Width.long.align second).toNat + 4 ≤ (Width.long.align first).toNat := by
  have firstAligned : (Width.long.align first).toNat % 4 = 0 := toNat_align_mod .long first
  have secondAligned : (Width.long.align second).toNat % 4 = 0 := toNat_align_mod .long second
  constructor
  · intro disjoint
    by_contra overlap
    refine disjoint (Width.long.align second) ⟨?_, ?_⟩ (covers_align .long second)
    · omega
    · change (Width.long.align second).toNat < (Width.long.align first).toNat + 4
      omega
  · rintro apart byte ⟨above, below⟩ ⟨aboveToo, belowToo⟩
    simp only [bytes] at below belowToo
    omega

end Width

namespace Ram

section Patches

variable (bytes : Array UInt8) (start : Nat) (later : List UInt8)

/-- Patching some bytes keeps their number. -/
@[simp] theorem size_patch : (patch bytes start later).size = bytes.size := by
  induction later generalizing bytes start with
  | nil => rfl
  | cons byte later inductionHypothesis =>
    rw [patch, inductionHypothesis, Array.size_setIfInBounds]

/-- A patch leaves the positions outside of it alone. -/
theorem getD_patch_of_outside {position : Nat}
    (outside : position < start ∨ start + later.length ≤ position) :
    (patch bytes start later).getD position 0 = bytes.getD position 0 := by
  induction later generalizing bytes start with
  | nil => rfl
  | cons byte later inductionHypothesis =>
    rw [List.length_cons] at outside
    rw [patch, inductionHypothesis _ _ (by omega)]
    have other : start ≠ position := by omega
    simp only [Array.getD_eq_getD_getElem?, Array.getElem?_setIfInBounds_ne other]

/-- A byte may be put before a patch that does not touch it, or behind it. -/
theorem patch_setIfInBounds {position : Nat} (value : UInt8)
    (outside : position < start ∨ start + later.length ≤ position) :
    patch (bytes.setIfInBounds position value) start later =
      (patch bytes start later).setIfInBounds position value := by
  induction later generalizing bytes start with
  | nil => rfl
  | cons byte later inductionHypothesis =>
    rw [List.length_cons] at outside
    have other : position ≠ start := by omega
    rw [patch, patch, ← inductionHypothesis _ _ (by omega), Array.setIfInBounds_comm _ _ other]

/-- Patches at places apart may change places. -/
theorem patch_patch {place : Nat} (others : List UInt8)
    (apart : start + later.length ≤ place ∨ place + others.length ≤ start) :
    patch (patch bytes start later) place others =
      patch (patch bytes place others) start later := by
  induction others generalizing bytes place with
  | nil => rfl
  | cons byte others inductionHypothesis =>
    rw [List.length_cons] at apart
    rw [patch, patch, ← patch_setIfInBounds _ _ _ _ (by omega), inductionHypothesis _ (by omega)]

end Patches

/-- A value of some width is made of its bytes. -/
theorem length_decompose (width : Width) (value : UInt32) :
    (decompose width value).length = width.bytes := by
  cases width <;> rfl

/-- Two memories are mapped alike: at the same address, with the same size. -/
structure Alike (left right : Ram) : Prop where
  base : left.base = right.base
  size : left.bytes.size = right.bytes.size

variable {ram left right : Ram} {width : Width} {address : UInt32}

/-- A memory looks like itself. -/
theorem Alike.refl (ram : Ram) : Alike ram ram := ⟨rfl, rfl⟩

/-- What looks like a memory that looks like another looks like that one. -/
theorem Alike.trans {middle : Ram} (first : Alike left middle) (second : Alike middle right) :
    Alike left right :=
  ⟨first.base.trans second.base, first.size.trans second.size⟩

/-- An address lies in the memory if it is the base or behind it, by less than the memory's size. -/
theorem slot?_eq_some_iff {position : Nat} : ram.slot? address = some position ↔
    ram.base.toNat + position = address.toNat ∧ position < ram.bytes.size := by
  simp only [slot?, UInt32.le_iff_toNat_le]
  by_cases below : ram.base.toNat ≤ address.toNat
  · have offset : (address - ram.base).toNat = address.toNat - ram.base.toNat :=
      UInt32.toNat_sub_of_le _ _ (UInt32.le_iff_toNat_le.mpr below)
    simp only [if_pos below, offset]
    split
    · simp only [Option.some.injEq]
      omega
    · simp only [reduceCtorEq, false_iff]
      omega
  · simp only [if_neg below, reduceCtorEq, false_iff]
    omega

/-- An access lies in the memory if it begins at the base or behind it and ends before the memory
does. -/
theorem span?_eq_some_iff {start : Nat} : ram.span? address width = some start ↔
    ram.base.toNat + start = address.toNat ∧ start + width.bytes ≤ ram.bytes.size := by
  have positive : 0 < width.bytes := width.bytes_pos
  rw [span?]
  cases slot : ram.slot? address with
  | some position =>
    have placed : ram.base.toNat + position = address.toNat ∧ position < ram.bytes.size :=
      slot?_eq_some_iff.mp slot
    dsimp only
    split
    · simp only [Option.some.injEq]
      omega
    · simp only [reduceCtorEq, false_iff]
      omega
  | none =>
    simp only [reduceCtorEq, false_iff]
    rintro ⟨begins, ends⟩
    have placed : ram.slot? address = some start := slot?_eq_some_iff.mpr
      ⟨begins, (by omega : start < ram.bytes.size)⟩
    rw [slot] at placed
    cases placed

/-- Where an access lies is a matter of how the memory is mapped. -/
theorem Alike.span? (alike : Alike left right) (address : UInt32) (width : Width) :
    left.span? address width = right.span? address width := by
  refine Option.ext fun start => ?_
  rw [span?_eq_some_iff, span?_eq_some_iff, alike.base, alike.size]

/-- A write changes nothing about how the memory is mapped. -/
theorem alike_poke (ram : Ram) (address : UInt32) (width : Width) (value : UInt32) :
    Alike (ram.poke address width value).2 ram := by
  rw [poke]
  split
  · exact ⟨rfl, size_patch ..⟩
  · exact .refl ram

/-- The store of a long word at an address writes a byte. -/
def Writes (ram : Ram) (address byte : UInt32) : Prop :=
  ram.span? (Width.long.align address) .long ≠ none ∧ Width.long.Covers address byte

/-- In memories that look alike, the same bytes are written. -/
theorem Alike.writes_iff (alike : Alike left right) (address byte : UInt32) :
    left.Writes address byte ↔ right.Writes address byte := by
  rw [Writes, Writes, alike.span?]

/-- The store of a long word at an address writes no byte of a word. -/
def Spares (ram : Ram) (address word : UInt32) : Prop :=
  ∀ byte, ram.Writes address byte → ¬ Width.word.Covers word byte

/-- The stores of long words at two addresses write no byte in common. -/
def Apart (ram : Ram) (first second : UInt32) : Prop :=
  ∀ byte, ram.Writes first byte → ¬ ram.Writes second byte

/-- In memories that look alike, the same words are spared. -/
theorem Alike.spares_iff (alike : Alike left right) (address word : UInt32) :
    left.Spares address word ↔ right.Spares address word :=
  forall_congr' fun byte => imp_congr (alike.writes_iff address byte) Iff.rfl

/-- In memories that look alike, the same long words are apart. -/
theorem Alike.apart_iff (alike : Alike left right) (first second : UInt32) :
    left.Apart first second ↔ right.Apart first second :=
  forall_congr' fun byte => imp_congr (alike.writes_iff first byte)
    (not_congr (alike.writes_iff second byte))

/-- A word is spared if the memory does not take the store, or if the one lies behind the other. -/
theorem spares_iff {long word : UInt32} :
    ram.Spares long word ↔ ram.span? (Width.long.align long) .long ≠ none →
      (Width.word.align word).toNat + 2 ≤ (Width.long.align long).toNat ∨
        (Width.long.align long).toNat + 4 ≤ (Width.word.align word).toNat := by
  rw [← Width.disjoint_word_iff]
  constructor
  · exact fun spares taken byte covers => spares byte ⟨taken, covers⟩
  · exact fun disjoint byte writes => disjoint writes.1 byte writes.2

/-- Two long words are apart if one ends in front of the other, unless one of them is outside. -/
theorem apart_iff {first second : UInt32} :
    ram.Apart first second ↔ ram.span? (Width.long.align first) .long ≠ none →
      ram.span? (Width.long.align second) .long ≠ none →
      (Width.long.align first).toNat + 4 ≤ (Width.long.align second).toNat ∨
        (Width.long.align second).toNat + 4 ≤ (Width.long.align first).toNat := by
  rw [← Width.disjoint_long_iff]
  constructor
  · exact fun apart taken takenToo byte covers covered =>
      apart byte ⟨taken, covers⟩ ⟨takenToo, covered⟩
  · exact fun disjoint byte writes written =>
      disjoint writes.1 written.1 byte writes.2 written.2

instance (ram : Ram) (address word : UInt32) : Decidable (ram.Spares address word) :=
  decidable_of_iff _ spares_iff.symm

instance (ram : Ram) (first second : UInt32) : Decidable (ram.Apart first second) :=
  decidable_of_iff _ apart_iff.symm

/-- The store of a long word. -/
def storeLong (ram : Ram) (address value : UInt32) : Ram :=
  (ram.poke (Width.long.align address) .long value).2

/-- A word reads as before after a store that spares it.

Proof: the store moves nothing, so the word has the same place in it as before. Its two bytes are
outside the four that the store has put. -/
theorem peek_storeLong {long word : UInt32} (value : UInt32) (spares : ram.Spares long word) :
    (ram.storeLong long value).peek (Width.word.align word) .word =
      ram.peek (Width.word.align word) .word := by
  rw [storeLong, poke]
  cases taken : ram.span? (Width.long.align long) .long with
  | none => rfl
  | some start =>
    have separate : (Width.word.align word).toNat + 2 ≤ (Width.long.align long).toNat ∨
        (Width.long.align long).toNat + 4 ≤ (Width.word.align word).toNat :=
      spares_iff.mp spares (by rw [taken]; exact Option.some_ne_none start)
    have begins : ram.base.toNat + start = (Width.long.align long).toNat :=
      (span?_eq_some_iff.mp taken).1
    have same : (ram.poke (Width.long.align long) .long value).2.span? (Width.word.align word)
        .word = ram.span? (Width.word.align word) .word :=
      (alike_poke ram (Width.long.align long) .long value).span?
        (Width.word.align word) .word
    simp only [poke, taken] at same
    simp only [peek, same]
    cases seen : ram.span? (Width.word.align word) .word with
    | none => rfl
    | some place =>
      have placed : ram.base.toNat + place = (Width.word.align word).toNat :=
        (span?_eq_some_iff.mp seen).1
      have length : (decompose .long value).length = 4 := length_decompose .long value
      simp only [Width.bytes, slice]
      rw [getD_patch_of_outside _ _ _ (by omega), getD_patch_of_outside _ _ _ (by omega)]

/-- Stores that write no byte in common may change places.

Proof: neither store moves the place of the other one. If both are taken, they put bytes at places
that do not meet, and these can be put in either order. -/
theorem storeLong_storeLong {first second : UInt32} (value other : UInt32)
    (apart : ram.Apart first second) :
    (ram.storeLong first value).storeLong second other =
      (ram.storeLong second other).storeLong first value := by
  have sameSecond : (ram.poke (Width.long.align first) .long value).2.span?
      (Width.long.align second) .long = ram.span? (Width.long.align second) .long :=
    (alike_poke ram (Width.long.align first) .long value).span?
      (Width.long.align second) .long
  have sameFirst : (ram.poke (Width.long.align second) .long other).2.span? (Width.long.align first)
      .long = ram.span? (Width.long.align first) .long :=
    (alike_poke ram (Width.long.align second) .long other).span?
      (Width.long.align first) .long
  cases takenFirst : ram.span? (Width.long.align first) .long with
  | none =>
    rw [takenFirst] at sameFirst
    simp only [storeLong, poke, takenFirst] at sameFirst ⊢
    rw [sameFirst]
  | some start =>
    cases takenSecond : ram.span? (Width.long.align second) .long with
    | none =>
      rw [takenSecond] at sameSecond
      simp only [storeLong, poke, takenSecond] at sameSecond ⊢
      rw [sameSecond]
    | some place =>
      have separate : (Width.long.align first).toNat + 4 ≤ (Width.long.align second).toNat ∨
          (Width.long.align second).toNat + 4 ≤ (Width.long.align first).toNat :=
        apart_iff.mp apart (by rw [takenFirst]; exact Option.some_ne_none start)
          (by rw [takenSecond]; exact Option.some_ne_none place)
      have begins : ram.base.toNat + start = (Width.long.align first).toNat :=
        (span?_eq_some_iff.mp takenFirst).1
      have placed : ram.base.toNat + place = (Width.long.align second).toNat :=
        (span?_eq_some_iff.mp takenSecond).1
      have length : (decompose .long value).length = 4 := length_decompose .long value
      have otherLength : (decompose .long other).length = 4 := length_decompose .long other
      rw [takenFirst] at sameFirst
      rw [takenSecond] at sameSecond
      simp only [storeLong, poke, takenFirst, takenSecond] at sameFirst sameSecond ⊢
      rw [sameFirst, sameSecond]
      dsimp only
      rw [patch_patch _ _ _ _ (by omega)]

end Ram

end Sh2Pair
