import Mathlib.Algebra.Group.Nat.Defs
import Mathlib.Data.List.Basic
import Sh2Pair.Cpu
import Sh2Pair.Text.Numeral

/-!
# Where a numeral ends

Texts are put together from pieces, and a reader has to find out where one piece ends and the next
one begins. A numeral of a fixed width ends after as many digits. Any other numeral ends where no
digit follows, so nothing that begins with a digit may stand behind it. Under this condition two
texts that begin with numerals are equal only if the numerals are, and what stands behind them is:
the numbers can be read back, and so can what follows.
-/

namespace Sh2Pair.Text

/-- A text does not begin with a character of a kind. -/
def Stops (kind : Char → Bool) (text : List Char) : Prop := ∀ c ∈ text.head?, kind c = false

section Pieces

variable {left right rest other : List Char}

/-- A piece of one kind of characters ends where another kind begins.

Proof: by induction on the first piece. Where one piece ends and the other one goes on, the next
character would be of both kinds. -/
theorem append_inj_of_stops {kind : Char → Bool} (first : ∀ c ∈ left, kind c = true)
    (second : ∀ c ∈ right, kind c = true) (stops : Stops kind rest) (halts : Stops kind other) :
    left ++ rest = right ++ other ↔ left = right ∧ rest = other := by
  refine ⟨fun same => ?_, fun ⟨same, rests⟩ => by rw [same, rests]⟩
  induction left generalizing right with
  | nil =>
    cases right with
    | nil => exact ⟨rfl, same⟩
    | cons c later =>
      rw [List.nil_append] at same
      have wrong : kind c = false := stops c (by rw [same]; rfl)
      rw [second c (List.mem_cons_self ..)] at wrong
      cases wrong
  | cons c later inductionHypothesis =>
    cases right with
    | nil =>
      rw [List.nil_append] at same
      have wrong : kind c = false := halts c (by rw [← same]; rfl)
      rw [first c (List.mem_cons_self ..)] at wrong
      cases wrong
    | cons d others =>
      obtain ⟨rfl, tails⟩ := List.cons.inj same
      obtain ⟨rfl, rests⟩ := inductionHypothesis
        (fun c inside => first c (List.mem_cons_of_mem _ inside))
        (fun c inside => second c (List.mem_cons_of_mem _ inside)) tails
      exact ⟨rfl, rests⟩

/-- Pieces of one length end at the same place. -/
theorem append_inj_of_length (length : left.length = right.length) :
    left ++ rest = right ++ other ↔ left = right ∧ rest = other :=
  ⟨fun same => List.append_inj same length, fun ⟨same, rests⟩ => by rw [same, rests]⟩

end Pieces

section Digits

/-- The characters that stand for digits in hexadecimal. -/
def isHexDigit (c : Char) : Bool := (hexValue? c).isSome

/-- The number that digits spell in a base. -/
def spelled (base : Nat) (text : List Char) : Nat :=
  text.foldl (fun sum c => base * sum + (hexValue? c).getD 0) 0

/-- The digit of a value below sixteen is read as this value. -/
theorem hexValue?_digitChar {digit : Nat} (small : digit < 16) :
    hexValue? (Nat.digitChar digit) = some digit := by
  have table : ∀ digit < 16, hexValue? (Nat.digitChar digit) = some digit := by decide
  exact table digit small

/-- One more digit multiplies what is spelled by the base and adds the value of the digit. -/
theorem spelled_append_digit (base : Nat) (text : List Char) {digit : Nat} (small : digit < 16) :
    spelled base (text ++ [Nat.digitChar digit]) = base * spelled base text + digit := by
  simp [spelled, hexValue?_digitChar small]

variable {base : Nat} (least : 1 < base) (most : base ≤ 16)

include least most

/-- The digits of a number spell it. The induction takes the last digit off. -/
theorem spelled_toDigits (value : Nat) : spelled base (Nat.toDigits base value) = value := by
  induction value using Nat.strongRecOn with
  | ind value inductionHypothesis =>
    rw [Nat.toDigits_eq_if least]
    split
    · rename_i small
      exact (spelled_append_digit base [] (by omega)).trans (by simp [spelled])
    · have last : value % base < base := Nat.mod_lt _ (by omega)
      have shorter : value / base < value := Nat.div_lt_self (by omega) least
      rw [spelled_append_digit base _ (by omega), inductionHypothesis _ shorter]
      exact Nat.div_add_mod value base

/-- Different numbers have different digits. -/
theorem toDigits_inj {left right : Nat} :
    Nat.toDigits base left = Nat.toDigits base right ↔ left = right := by
  refine ⟨fun same => ?_, congrArg (Nat.toDigits base)⟩
  rw [← spelled_toDigits least most left, same, spelled_toDigits least most right]

/-- The digits of a number in a base up to sixteen are hexadecimal digits. -/
theorem isHexDigit_of_mem_toDigits {value : Nat} {c : Char}
    (member : c ∈ Nat.toDigits base value) : isHexDigit c = true := by
  induction value using Nat.strongRecOn with
  | ind value inductionHypothesis =>
    have known : ∀ digit < 16, isHexDigit (Nat.digitChar digit) = true := by decide
    rw [Nat.toDigits_eq_if least] at member
    split at member
    · rw [List.mem_singleton.mp member]
      exact known value (by omega)
    · have last : value % base < base := Nat.mod_lt _ (by omega)
      rcases List.mem_append.mp member with early | late
      · exact inductionHypothesis _ (Nat.div_lt_self (by omega) least) early
      · rw [List.mem_singleton.mp late]
        exact known _ (by omega)

end Digits

section Numerals

variable {rest other : List Char}

/-- A decimal number ends where no digit follows. -/
theorem decimal_append_inj {left right : Nat} (stops : Stops Char.isDigit rest)
    (halts : Stops Char.isDigit other) :
    decimal left ++ rest = decimal right ++ other ↔ left = right ∧ rest = other := by
  have digits : ∀ value, ∀ c ∈ decimal value, c.isDigit = true :=
    fun value c inside => Nat.isDigit_of_mem_toDigits (by decide) (by decide) inside
  rw [append_inj_of_stops (digits left) (digits right) stops halts, decimal, decimal,
    toDigits_inj (by decide) (by decide)]

/-- A decimal number begins with a digit. -/
theorem decimal_append_ne_cons {c : Char} (other : c.isDigit = false) (value : Nat)
    (text : List Char) : decimal value ++ rest ≠ c :: text := by
  intro same
  cases digits : decimal value with
  | nil => exact Nat.toDigits_ne_nil digits
  | cons first later =>
    have digit : first.isDigit = true := Nat.isDigit_of_mem_toDigits (by decide) (by decide)
      (show first ∈ decimal value from digits ▸ List.mem_cons_self ..)
    rw [digits] at same
    cases same
    rw [other] at digit
    cases digit

/-- The sign of an integer is no digit. -/
theorem integer_append_inj {left right : Int} (stops : Stops Char.isDigit rest)
    (halts : Stops Char.isDigit other) :
    integer left ++ rest = integer right ++ other ↔ left = right ∧ rest = other := by
  have minus : '-'.isDigit = false := rfl
  cases left with
  | ofNat size =>
    cases right with
    | ofNat count => rw [integer, integer, decimal_append_inj stops halts, Int.ofNat.injEq]
    | negSucc count =>
      simp only [integer, List.cons_append, decimal_append_ne_cons minus, false_iff, not_and,
        reduceCtorEq, false_implies]
  | negSucc size =>
    cases right with
    | ofNat count =>
      simp only [integer, List.cons_append, (decimal_append_ne_cons minus _ _).symm, false_iff,
        not_and, reduceCtorEq, false_implies]
    | negSucc count =>
      rw [integer, integer, List.cons_append, List.cons_append, List.cons.injEq,
        decimal_append_inj stops halts, Nat.succ_inj, Int.negSucc_inj]
      simp

/-- The digits of a number of fixed width spell the number, if it fits. -/
theorem spelled_hexFixed {width value : Nat} (range : value < 16 ^ width) :
    spelled 16 (hexFixed width value) = value := by
  induction width generalizing value with
  | zero =>
    rw [Nat.pow_zero, Nat.lt_one_iff] at range
    rw [range]
    rfl
  | succ width inductionHypothesis =>
    have last : value % 16 < 16 := Nat.mod_lt _ (by decide)
    have early : value / 16 < 16 ^ width := by
      rw [Nat.pow_succ] at range
      exact Nat.div_lt_of_lt_mul (by omega)
    rw [hexFixed, spelled_append_digit 16 _ last, inductionHypothesis early]
    exact Nat.div_add_mod value 16

/-- A numeral of a fixed width has that many digits, and spells the number if it is in range. -/
theorem hexFixed_append_inj {width left right : Nat} (small : left < 16 ^ width)
    (little : right < 16 ^ width) :
    hexFixed width left ++ rest = hexFixed width right ++ other ↔
      left = right ∧ rest = other := by
  rw [append_inj_of_length (by rw [length_hexFixed, length_hexFixed])]
  refine and_congr_left fun _ => ⟨fun same => ?_, congrArg (hexFixed width)⟩
  rw [← spelled_hexFixed small, same, spelled_hexFixed little]

/-- The texts of the truth values begin with different letters. -/
theorem truth_append_inj {left right : Bool} :
    truth left ++ rest = truth right ++ other ↔ left = right ∧ rest = other := by
  cases left <;> cases right <;> simp [truth]

/-- So do the names of the processors. -/
theorem cpuName_append_inj {left right : Cpu} :
    left.name.toList ++ rest = right.name.toList ++ other ↔ left = right ∧ rest = other := by
  cases left <;> cases right <;> simp [Cpu.name]

end Numerals

end Sh2Pair.Text
