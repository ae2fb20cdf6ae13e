import Mathlib.Data.List.Basic
import Sh2Pair.Proofs.Spelling

/-!
# Reading numbers

The text of a number is read up to its end, if nothing behind it could belong to it. A whole number
in decimal stands for itself, as long as it fits 64 bits.
-/

namespace Sh2Pair.Json

open Sh2Pair.Text (digitValue? decimal integer)

/-- A reading in two steps comes back with what the second step gives. -/
theorem bind_eq_ok_iff {α β : Type} {first : Except Fault α} {next : α → Except Fault β}
    {value : β} :
    (first >>= next) = .ok value ↔ ∃ between, first = .ok between ∧ next between = .ok value := by
  cases first with
  | error fault => exact ⟨nofun, nofun⟩
  | ok between =>
    constructor
    · intro read
      exact ⟨between, rfl, read⟩
    · rintro ⟨_, ⟨⟩, read⟩
      exact read

/-- No digit comes first. -/
def Undigited (text : List Char) : Prop := ∀ c ∈ text.head?, c.isDigit = false

/-- The value of a digit is its distance from the first one. -/
theorem digitValue?_eq (c : Char) :
    digitValue? c = if c.isDigit then some (c.toNat - 48) else none := by
  simp [digitValue?, Char.isDigit, Char.le_def]

/-- The digits that characters spell. -/
def digitValues (text : List Char) : List Nat := text.map fun c => c.toNat - 48

/-- Digits are read up to the first character that is none. -/
theorem digits_append {spelled rest : List Char} (all : ∀ c ∈ spelled, c.isDigit = true)
    (stops : Undigited rest) : digits (spelled ++ rest) = (digitValues spelled, rest) := by
  induction spelled with
  | nil =>
    cases rest with
    | nil => rfl
    | cons c rest =>
      have noDigit : c.isDigit = false := stops c rfl
      simp [digits, digitValue?_eq, noDigit, digitValues]
  | cons c later inductionHypothesis =>
    have digit : c.isDigit = true := all c List.mem_cons_self
    have others : ∀ c ∈ later, c.isDigit = true := fun other member =>
      all other (List.mem_cons_of_mem c member)
    simp [digits, digitValue?_eq, digit, inductionHypothesis others, digitValues]

/-- Reading digits splits the text, and loses nothing of it. -/
theorem length_digits (text : List Char) :
    (digits text).1.length + (digits text).2.length = text.length := by
  induction text with
  | nil => rfl
  | cons c rest inductionHypothesis =>
    rw [digits]
    cases digitValue? c with
    | none => simp
    | some digit =>
      simp only [List.length_cons]
      omega

/-- What may stand behind a value is no digit, no point, and no letter of an exponent. -/
theorem undigited_of_ends {rest : List Char} (ends : Ends rest) : Undigited rest := by
  cases rest with
  | nil => simp [Undigited]
  | cons c rest =>
    have table : [' ', '\t', '\n', '\r', ',', ']', '\x7d'].all (fun c => !c.isDigit) = true := by
      decide
    intro other same
    cases same
    simpa using List.all_eq_true.mp table c ends

namespace Numeral

variable {negative : Bool} {rest : List Char}

/-- Digits are read up to their end. -/
theorem digits_of_spelled {spelled : List Char} (digited : Digits spelled)
    (stops : Undigited rest) :
    ∃ first later, digits (spelled ++ rest) = (first :: later, rest) := by
  obtain ⟨filled, all⟩ := digited
  rw [digits_append all stops]
  cases spelled with
  | nil => exact absurd rfl filled
  | cons c spelled => exact ⟨_, _, rfl⟩

/-- The sign and the digits of an exponent are read, up to the first character that is no digit. -/
theorem readExponent_of_spelled {sign spelled : List Char}
    (signed : sign = [] ∨ sign = ['+'] ∨ sign = ['-']) (digited : Digits spelled)
    (stops : Undigited rest) :
    ∃ read, readExponent (sign ++ (spelled ++ rest)) = .ok (read, rest) := by
  obtain ⟨first, later, split⟩ := digits_of_spelled digited stops
  rcases signed with rfl | rfl | rfl
  · obtain ⟨filled, all⟩ := digited
    cases spelled with
    | nil => exact absurd rfl filled
    | cons c spelled =>
      have digit : c.isDigit = true := all c List.mem_cons_self
      have noPlus : c ≠ '+' := by
        rintro rfl
        contradiction
      have noMinus : c ≠ '-' := by
        rintro rfl
        contradiction
      rw [List.cons_append] at split
      simp [readExponent, split, noPlus, noMinus]
  · simp [readExponent, split]
  · simp [readExponent, split]

/-- At the end of a number, nothing more is read behind its whole part. -/
theorem readTail_of_ends (ends : Ends rest) (whole : List Nat) :
    readTail negative whole rest = .ok (⟨negative, whole, [], none, false⟩, rest) := by
  cases rest with
  | nil => rfl
  | cons c rest =>
    simp only [Ends, List.mem_cons, List.not_mem_nil, or_false] at ends
    rcases ends with rfl | rfl | rfl | rfl | rfl | rfl | rfl <;> rfl

/-- Behind the whole part, an exponent is read. -/
theorem readTail_of_exponent {exponent : List Char} (scaled : Exponent exponent)
    (ends : Ends rest) (whole : List Nat) :
    ∃ numeral, readTail negative whole (exponent ++ rest) = .ok (numeral, rest) := by
  cases scaled with
  | none => exact ⟨_, readTail_of_ends ends whole⟩
  | @some letter sign spelled known signed digited =>
    obtain ⟨read, reading⟩ :=
      readExponent_of_spelled signed digited (undigited_of_ends ends)
    rw [List.cons_append, List.append_assoc]
    rcases known with rfl | rfl <;> simp [readTail, reading, bind, Except.bind]

/-- An exponent does not begin with a digit, and neither does what ends a number. -/
theorem undigited_exponent {exponent : List Char} (scaled : Exponent exponent)
    (ends : Ends rest) : Undigited (exponent ++ rest) := by
  cases scaled with
  | none => exact undigited_of_ends ends
  | some known signed digited =>
    rcases known with rfl | rfl <;> simp [Undigited]

/-- A fraction does not begin with a digit, and neither does what may follow it. -/
theorem undigited_fraction {fraction exponent : List Char} (parted : Fraction fraction)
    (scaled : Exponent exponent) (ends : Ends rest) :
    Undigited (fraction ++ (exponent ++ rest)) := by
  cases parted with
  | none =>
    rw [List.nil_append]
    exact undigited_exponent scaled ends
  | some digited => simp [Undigited]

/-- What follows the whole digits of a number is read up to its end. -/
theorem readTail_of_fraction {fraction exponent : List Char} (parted : Fraction fraction)
    (scaled : Exponent exponent) (ends : Ends rest) (whole : List Nat) :
    ∃ numeral, readTail negative whole (fraction ++ (exponent ++ rest)) = .ok (numeral, rest) := by
  cases parted with
  | none => exact readTail_of_exponent scaled ends whole
  | @some spelled digited =>
    have stops : Undigited (exponent ++ rest) := undigited_exponent scaled ends
    obtain ⟨first, later, split⟩ := digits_of_spelled digited stops
    rw [List.cons_append, readTail, split]
    cases scaled with
    | none =>
      cases rest with
      | nil => exact ⟨_, rfl⟩
      | cons c rest =>
        simp only [Ends, List.mem_cons, List.not_mem_nil, or_false] at ends
        rcases ends with rfl | rfl | rfl | rfl | rfl | rfl | rfl <;> exact ⟨_, rfl⟩
    | @some letter sign exponent known signed exponentDigited =>
      obtain ⟨read, reading⟩ :=
        readExponent_of_spelled signed exponentDigited (undigited_of_ends ends)
      rw [List.cons_append, List.append_assoc]
      rcases known with rfl | rfl <;> simp [reading, bind, Except.bind]

/-- The whole digits of a number are read as such.

Proof: a single zero is read as such. Any other whole part begins with a digit that is not zero, so
the reader accepts all its digits. -/
theorem readUnsigned_of_whole {whole : List Char} (counted : Whole whole)
    (stops : Undigited rest) :
    readUnsigned negative (whole ++ rest) = readTail negative (digitValues whole) rest := by
  rcases counted with rfl | ⟨⟨filled, all⟩, noZero⟩
  · have split : digits (['0'] ++ rest) = ([0], rest) := digits_append (by simp) stops
    rw [readUnsigned, split]
    rfl
  · have split : digits (whole ++ rest) = (digitValues whole, rest) := digits_append all stops
    cases whole with
    | nil => exact absurd rfl filled
    | cons c whole =>
      have digit : c.isDigit = true := all c List.mem_cons_self
      have positive : c.toNat - 48 ≠ 0 := by
        intro zero
        apply noZero
        simp only [Char.isDigit, Bool.and_eq_true, decide_eq_true_eq, ge_iff_le,
          UInt32.le_iff_toNat_le] at digit
        have same : c.toNat = '0'.toNat :=
          Nat.le_antisymm (Nat.sub_eq_zero_iff_le.mp zero) digit.1
        exact congrArg some (Char.toNat_inj.mp same)
      simp only [digitValues, List.map_cons] at split ⊢
      rw [readUnsigned, split]
      split
      all_goals simp_all

/-- The whole part of a number begins with a digit. -/
theorem whole_ne_minus {whole : List Char} (counted : Whole whole) (rest : List Char) :
    ∃ c later, whole ++ rest = c :: later ∧ c ≠ '-' ∧ c.isDigit = true := by
  rcases counted with rfl | ⟨⟨filled, all⟩, _⟩
  · exact ⟨'0', rest, rfl, by decide, by decide⟩
  · cases whole with
    | nil => exact absurd rfl filled
    | cons c whole =>
      have digit : c.isDigit = true := all c List.mem_cons_self
      refine ⟨c, whole ++ rest, rfl, ?_, digit⟩
      rintro rfl
      contradiction

/-- A minus sign is taken off in front of a number. -/
theorem read_of_sign {sign text : List Char} (signed : sign = [] ∨ sign = ['-'])
    {c : Char} {later : List Char} (begins : text = c :: later) (noMinus : c ≠ '-') :
    read (sign ++ text) = readUnsigned (sign != []) text := by
  subst begins
  rcases signed with rfl | rfl
  · simp [read, noMinus]
  · rfl

/-- The text of a number is read up to its end. -/
theorem read_of_number {text : List Char} (number : Number text) (ends : Ends rest) :
    ∃ numeral, read (text ++ rest) = .ok (numeral, rest) := by
  obtain ⟨signed, counted, parted, scaled⟩ := number
  simp only [List.append_assoc]
  obtain ⟨c, later, begins, noMinus, _⟩ := whole_ne_minus counted _
  rw [read_of_sign signed begins noMinus,
    readUnsigned_of_whole counted (undigited_fraction parted scaled ends)]
  exact readTail_of_fraction parted scaled ends _

/-- A number begins with a minus sign or with a digit. -/
theorem head_of_number {text : List Char} (number : Number text) :
    ∃ c later, text = c :: later ∧ (c = '-' ∨ c.isDigit = true) := by
  obtain ⟨signed, counted, parted, scaled⟩ := number
  obtain ⟨c, later, begins, _, digit⟩ := whole_ne_minus counted _
  rcases signed with rfl | rfl
  · exact ⟨c, later, begins, .inr digit⟩
  · exact ⟨'-', _, rfl, .inl rfl⟩

section Decimal

/-- The decimal numeral of a number consists of digits. -/
theorem decimal_digits (value : Nat) : Digits (decimal value) :=
  ⟨Nat.toDigits_ne_nil, fun _ member => Nat.isDigit_of_mem_toDigits (by decide) (by decide) member⟩

/-- The numeral of a positive number does not begin with a zero. -/
theorem head?_decimal {value : Nat} (positive : 0 < value) :
    (decimal value).head? ≠ some '0' := by
  induction value using Nat.strongRecOn with
  | ind value inductionHypothesis =>
    rw [decimal]
    by_cases small : value < 10
    · rw [Nat.toDigits_of_lt_base small]
      have table : ∀ digit < 10, 0 < digit → [Nat.digitChar digit].head? ≠ some '0' := by decide
      exact table value small positive
    · have shorter : (decimal (value / 10)).head? ≠ some '0' :=
        inductionHypothesis (value / 10) (by omega) (by omega)
      have filled : Nat.toDigits 10 (value / 10) ≠ [] := Nat.toDigits_ne_nil
      rw [Nat.toDigits_of_base_le (by decide) (by omega), List.head?_append_of_ne_nil _ filled]
      exact shorter

/-- A decimal number has no leading zero. -/
theorem whole_decimal (value : Nat) : Whole (decimal value) := by
  by_cases zero : value = 0
  · exact .inl (zero ▸ rfl)
  · exact .inr ⟨decimal_digits value, head?_decimal (Nat.pos_of_ne_zero zero)⟩

/-- The digits of a decimal numeral make up the number. -/
theorem ofDigits_decimal (value : Nat) : ofDigits (digitValues (decimal value)) = value := by
  have spelled : Nat.ofDigitChars 10 (decimal value) 0 = value := Nat.ofDigitChars_ten_toDigits
  rw [Nat.ofDigitChars_eq_foldl] at spelled
  rw [ofDigits, digitValues, List.foldl_map]
  exact spelled

/-- The integers that a number without a fraction or an exponent can stand for. -/
def Fits (value : Int) : Prop := -(1 <<< 63) ≤ value ∧ value ≤ greatest

/-- Digits without a sign stand for what they make up, if that is not too great. -/
theorem value?_whole {size : Nat} (small : size ≤ greatest) {whole : List Nat}
    (spelled : ofDigits whole = size) :
    value? ⟨false, whole, [], none, false⟩ = some (.whole size) := by
  simp [value?, spelled, small]

/-- Digits behind a minus sign stand for the negative of what they make up, if that is not too
great. -/
theorem value?_negative {size : Nat} (positive : 0 < size) (small : size ≤ 1 <<< 63)
    {whole : List Nat} (spelled : ofDigits whole = size) :
    value? ⟨true, whole, [], none, false⟩ = some (.whole (-size)) := by
  have bounded : size ≤ 9223372036854775808 := small
  simp [value?, spelled, positive, bounded]

/-- A decimal number is read as what it spells. -/
theorem read_decimal (ends : Ends rest) {sign : List Char} (signed : sign = [] ∨ sign = ['-'])
    (value : Nat) :
    read (sign ++ (decimal value ++ rest)) =
      .ok (⟨sign != [], digitValues (decimal value), [], none, false⟩, rest) := by
  obtain ⟨c, later, begins, noMinus, _⟩ := whole_ne_minus (whole_decimal value) rest
  rw [read_of_sign signed begins noMinus,
    readUnsigned_of_whole (whole_decimal value) (undigited_of_ends ends), readTail_of_ends ends]

/-- An integer of 64 bits is read as itself. -/
theorem readValue_integer (ends : Ends rest) {value : Int} (fits : Fits value) :
    readValue (integer value ++ rest) = .ok (.whole value, rest) := by
  obtain ⟨low, high⟩ := fits
  cases value with
  | ofNat size =>
    have small : size ≤ greatest := Int.ofNat_le.mp high
    have reading : read (decimal size ++ rest) =
        .ok (⟨false, digitValues (decimal size), [], none, false⟩, rest) :=
      read_decimal ends (.inl rfl) size
    rw [integer, readValue, reading]
    simp [bind, Except.bind, value?_whole small (ofDigits_decimal size)]
  | negSucc size =>
    have small : size + 1 ≤ 1 <<< 63 := by omega
    have reading : read ('-' :: (decimal (size + 1) ++ rest)) =
        .ok (⟨true, digitValues (decimal (size + 1)), [], none, false⟩, rest) :=
      read_decimal ends (.inr rfl) (size + 1)
    rw [integer, readValue, List.cons_append, reading]
    simp [bind, Except.bind,
      value?_negative (Nat.succ_pos size) small (ofDigits_decimal (size + 1)), Int.negSucc_eq]

/-- The text of an integer is the text of a number. -/
theorem number_integer (value : Int) : Number (integer value) := by
  cases value with
  | ofNat size =>
    have number : Number ([] ++ (decimal size ++ ([] ++ []))) :=
      Number.parts (.inl rfl) (whole_decimal size) .none .none
    simpa [integer] using number
  | negSucc size =>
    have number : Number (['-'] ++ (decimal (size + 1) ++ ([] ++ []))) :=
      Number.parts (.inr rfl) (whole_decimal (size + 1)) .none .none
    simpa [integer] using number

end Decimal

section Lengths

variable {text : List Char}

/-- Reading a digit takes some of the text. -/
theorem digits_shorter {first : Nat} {later : List Nat}
    (split : digits text = (first :: later, rest)) : rest.length < text.length := by
  have length : (digits text).1.length + (digits text).2.length = text.length := length_digits text
  rw [split] at length
  simp only [List.length_cons] at length
  omega

/-- Reading an exponent takes some of the text. -/
theorem readExponent_shorter {read : Bool × List Nat} :
    readExponent text = .ok (read, rest) → rest.length < text.length := by
  fun_cases readExponent text with
  | case1 => exact nofun
  | case2 => exact nofun
  | case3 negative behind signed spelled _ filled full split =>
    rintro ⟨⟩
    have fits : behind.length ≤ text.length := by
      split at signed <;> cases signed <;> simp
    cases spelled with
    | nil =>
      cases rest with
      | nil => exact absurd rfl (filled rfl)
      | cons c rest => exact absurd rfl (full c rest rfl)
    | cons first later => exact Nat.lt_of_lt_of_le (digits_shorter split) fits

/-- Reading digits leaves no more than there was. -/
theorem length_left {spelled : List Nat} {left : List Char}
    (split : digits text = (spelled, left)) : left.length ≤ text.length := by
  rw [← length_digits text, split]
  exact Nat.le_add_left ..

/-- Reading what follows the whole part leaves no more than there was.

Proof: by the cases of the function. It takes a fraction, an exponent, both or nothing. -/
theorem readTail_shorter {whole : List Nat} {numeral : Numeral} :
    readTail negative whole text = .ok (numeral, rest) → rest.length ≤ text.length := by
  fun_cases readTail negative whole text with
  | case1 => exact nofun
  | case2 => exact nofun
  | case3 behind fraction c left _ split =>
    intro read
    obtain ⟨⟨exponent, _⟩, reading, ⟨⟩⟩ := bind_eq_ok_iff.mp read
    have shorter : rest.length < left.length := readExponent_shorter reading
    have fits : (c :: left).length ≤ behind.length := length_left split
    simp only [List.length_cons] at fits ⊢
    omega
  | case4 behind fraction c left _ split =>
    rintro ⟨⟩
    exact Nat.le_succ_of_le (length_left split)
  | case5 =>
    rintro ⟨⟩
    exact Nat.zero_le _
  | case6 c left =>
    intro read
    obtain ⟨⟨exponent, _⟩, reading, ⟨⟩⟩ := bind_eq_ok_iff.mp read
    exact Nat.le_succ_of_le (Nat.le_of_lt (readExponent_shorter reading))
  | case7 =>
    rintro ⟨⟩
    exact Nat.le_refl _
  | case8 =>
    rintro ⟨⟩
    exact Nat.le_refl _

/-- Reading a number without a sign takes some of the text. -/
theorem readUnsigned_shorter {numeral : Numeral} :
    readUnsigned negative text = .ok (numeral, rest) → rest.length < text.length := by
  fun_cases readUnsigned negative text with
  | case1 => exact nofun
  | case2 => exact nofun
  | case3 => exact nofun
  | case4 whole left filled full _ split =>
    intro read
    have shorter : rest.length ≤ left.length := readTail_shorter read
    cases whole with
    | nil =>
      cases left with
      | nil => exact absurd rfl (filled rfl)
      | cons c left => exact absurd rfl (full c left rfl)
    | cons first later => exact Nat.lt_of_le_of_lt shorter (digits_shorter split)

/-- A number takes some of the text. -/
theorem read_shorter {numeral : Numeral} :
    read text = .ok (numeral, rest) → rest.length < text.length := by
  fun_cases read text with
  | case1 later =>
    intro read
    exact Nat.lt_succ_of_lt (readUnsigned_shorter read)
  | case2 => exact readUnsigned_shorter

end Lengths

end Numeral

end Sh2Pair.Json
