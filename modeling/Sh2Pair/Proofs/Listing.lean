import Mathlib.Tactic.IntervalCases
import Sh2Pair.Context.Text
import Sh2Pair.Proofs.Legible

/-!
# A listing shows the whole context

Two contexts have the same listing only if they agree in everything that a context holds, but for
what their devices are: of these the listing tells whether they are attached. The lines are read
from left to right. Words and opcodes have a fixed width, a count of cycles ends at the blank or at
the line break behind it, and the number of a block ends where the text does, or at the blank in
front of the devices. A missing block has a text that begins with no digit, so it cannot be taken
for a number.
-/

namespace Sh2Pair

open Text

namespace Block

/-- A block is known by its place in the table, and the missing one by having none. -/
theorem index?_inj {left right : Block} : left.index? = right.index? ↔ left = right := by
  refine ⟨fun same => ?_, congrArg index?⟩
  obtain ⟨number⟩ := left
  obtain ⟨count⟩ := right
  simp only [index?, isValid, bne_iff_ne] at same
  congr 1
  by_cases gap : number = 0xffffffff
  · by_cases hole : count = 0xffffffff
    · rw [gap, hole]
    · rw [if_neg (not_not_intro gap), if_pos hole] at same
      cases same
  · by_cases hole : count = 0xffffffff
    · rw [if_pos gap, if_neg (not_not_intro hole)] at same
      cases same
    · rw [if_pos gap, if_pos hole] at same
      exact Option.some.inj same

end Block

namespace Context

variable {left right : Context} {rest other : List Char}

section Pieces

/-- From a word that is written, both the word and what follows it can be told. -/
theorem wordText_append_inj {first second : UInt32} :
    wordText first ++ rest = wordText second ++ other ↔ first = second ∧ rest = other := by
  rw [wordText, wordText, hexFixed_append_inj first.toNat_lt second.toNat_lt, UInt32.toNat_inj]

/-- From an opcode that is written, both the opcode and what follows it can be told. -/
theorem opcodeText_append_inj {first second : UInt16} :
    opcodeText first ++ rest = opcodeText second ++ other ↔ first = second ∧ rest = other := by
  rw [opcodeText, opcodeText, hexFixed_append_inj first.toNat_lt second.toNat_lt, UInt16.toNat_inj]

end Pieces

section Rows

/-- From the entry of a register, both the value of the register and what follows it can be told. -/
theorem registerEntry_append_inj (number : Nat) :
    left.registerEntry number ++ rest = right.registerEntry number ++ other ↔
      left.reg number = right.reg number ∧ rest = other := by
  unfold registerEntry
  simp only [List.append_assoc, List.append_cancel_left_eq, wordText_append_inj]

/-- From a row of registers, the values of its four registers and what follows them can be told. -/
theorem registerRow_append_inj (first : Nat) :
    left.registerRow first ++ rest = right.registerRow first ++ other ↔
      (left.reg first = right.reg first ∧ left.reg (first + 1) = right.reg (first + 1) ∧
        left.reg (first + 2) = right.reg (first + 2) ∧
          left.reg (first + 3) = right.reg (first + 3)) ∧ rest = other := by
  unfold registerRow
  simp only [List.append_assoc, List.append_cancel_left_eq, registerEntry_append_inj, and_assoc]

/-- The four lines show each register once. -/
theorem registerRows_append_inj : left.registerRows ++ rest = right.registerRows ++ other ↔
    left.regs = right.regs ∧ rest = other := by
  unfold registerRows
  simp only [List.append_assoc, registerRow_append_inj]
  constructor
  · rintro ⟨⟨r0, r1, r2, r3⟩, ⟨r4, r5, r6, r7⟩, ⟨r8, r9, r10, r11⟩, ⟨r12, r13, r14, r15⟩, rests⟩
    refine ⟨Vector.ext fun number range => ?_, rests⟩
    interval_cases number <;> assumption
  · rintro ⟨same, rests⟩
    simp only [reg, same, rests, and_self]

/-- From the row of control registers, all of them and what follows them can be told. -/
theorem controlRow_append_inj : left.controlRow ++ rest = right.controlRow ++ other ↔
    (left.pc = right.pc ∧ left.pr = right.pr ∧ left.sr = right.sr ∧ left.gbr = right.gbr ∧
      left.vbr = right.vbr ∧ left.mach = right.mach ∧ left.macl = right.macl) ∧ rest = other := by
  unfold controlRow
  simp only [List.append_assoc, List.append_cancel_left_eq, wordText_append_inj, and_assoc]

/-- From the row about progress, all of its fields and what follows them can be told. -/
theorem progressRow_append_inj : left.progressRow ++ rest = right.progressRow ++ other ↔
    (left.opcode = right.opcode ∧ left.delaySlot = right.delaySlot ∧
      left.delayPc = right.delayPc ∧ left.cycles = right.cycles ∧ left.ran = right.ran) ∧
        rest = other := by
  have blank : ∀ text, Stops Char.isDigit (" cycles_ran=".toList ++ text) := by
    intro text c head
    cases head
    rfl
  have lineBreak : ∀ text, Stops Char.isDigit (['\n'] ++ text) := by
    intro text c head
    cases head
    rfl
  unfold progressRow
  simp only [List.append_assoc, List.append_cancel_left_eq, opcodeText_append_inj,
    truth_append_inj, wordText_append_inj, integer_append_inj (blank _) (blank _),
    integer_append_inj (lineBreak _) (lineBreak _), Int32.toInt_inj, and_assoc]

/-- What stands behind the opcode on the last line: the place of a block in the table, and whether
devices are attached. The place ends with the text, or at a blank.

Proof: four cases, by whether there is a place on either side. A bracket is no digit, and the digits
of a place end at the blank or with the text. -/
theorem place_append_inj (place index : Option UInt32) (devices attached : Bool) :
    (match place with
      | some index => decimal index.toNat
      | none => "<invalid>".toList) ++ (if devices then " devices=attached".toList else []) =
    (match index with
      | some index => decimal index.toNat
      | none => "<invalid>".toList) ++ (if attached then " devices=attached".toList else []) ↔
    place = index ∧ devices = attached := by
  have stops : ∀ flag : Bool,
      Stops Char.isDigit (if flag then " devices=attached".toList else []) := by
    rintro (_ | _) c head <;> cases head
    rfl
  have bracket : '<'.isDigit = false := rfl
  have suffix : (if devices then " devices=attached".toList else []) =
      (if attached then " devices=attached".toList else []) ↔ devices = attached := by
    cases devices <;> cases attached <;> decide
  cases place with
  | none =>
    cases index with
    | none => simp only [List.append_cancel_left_eq, suffix, true_and]
    | some index =>
      refine iff_of_false (decimal_append_ne_cons bracket _ _).symm fun same => ?_
      cases same.1
  | some place =>
    cases index with
    | none =>
      refine iff_of_false (decimal_append_ne_cons bracket _ _) fun same => ?_
      cases same.1
    | some index =>
      simp only [decimal_append_inj (stops _) (stops _), UInt32.toNat_inj, suffix,
        Option.some.injEq]

/-- From the last row, the fetch and whether there are devices can be told. -/
theorem fetchRow_inj : left.fetchRow = right.fetchRow ↔
    (left.fetched.pc = right.fetched.pc ∧ left.fetched.opcode = right.fetched.opcode ∧
      left.fetched.block = right.fetched.block) ∧
        left.devices.isSome = right.devices.isSome := by
  unfold fetchRow
  simp only [List.append_assoc, List.append_cancel_left_eq, wordText_append_inj,
    opcodeText_append_inj, and_assoc]
  refine and_congr_right fun _ => and_congr_right fun _ => (place_append_inj _ _ _ _).trans ?_
  rw [Block.index?_inj]

end Rows

/-- Two listings are equal if and only if the contexts agree in every field, the devices compared
only by whether some are attached.

Proof: the listing is read from the left. Fixed text is passed over, and each field is of a known
width, or ends where a character of another kind comes. -/
theorem listing_eq_iff (left right : Context) : left.listing = right.listing ↔
    left.regs = right.regs ∧ left.gbr = right.gbr ∧ left.vbr = right.vbr ∧ left.sr = right.sr ∧
      left.mach = right.mach ∧ left.macl = right.macl ∧ left.pr = right.pr ∧
      left.pc = right.pc ∧ left.opcode = right.opcode ∧ left.delayPc = right.delayPc ∧
      left.delaySlot = right.delaySlot ∧ left.cycles = right.cycles ∧ left.ran = right.ran ∧
      left.fetched.pc = right.fetched.pc ∧ left.fetched.opcode = right.fetched.opcode ∧
      left.fetched.block = right.fetched.block ∧ left.cpu = right.cpu ∧
      left.letter = right.letter ∧ left.debug = right.debug ∧
      left.devices.isSome = right.devices.isSome := by
  unfold listing
  simp only [List.append_assoc, List.append_cancel_left_eq, List.cons_append,
    List.nil_append, List.cons.injEq, cpuName_append_inj, truth_append_inj, registerRows_append_inj,
    controlRow_append_inj, progressRow_append_inj, fetchRow_inj, true_and]
  tauto

end Context

end Sh2Pair
