/-!
# Numerals

The texts of numbers: decimal for naturals and integers, and lower-case hexadecimal, either as
short as possible or with a fixed count of digits.
-/

namespace Sh2Pair.Text

/-- A natural number in decimal, without leading zeros. -/
def decimal (value : Nat) : List Char := Nat.toDigits 10 value

/-- An integer in decimal; a negative one is preceded by a minus sign. -/
def integer : Int → List Char
  | .ofNat value => decimal value
  | .negSucc value => '-' :: decimal (value + 1)

/-- A natural number in hexadecimal, without leading zeros. -/
def hex (value : Nat) : List Char := Nat.toDigits 16 value

/-- Exactly `width` hexadecimal digits, the least significant ones of the number. -/
def hexFixed : Nat → Nat → List Char
  | 0, _ => []
  | width + 1, value => hexFixed width (value / 16) ++ [Nat.digitChar (value % 16)]

/-- The value of a decimal digit. -/
def digitValue? (c : Char) : Option Nat :=
  if '0' ≤ c ∧ c ≤ '9' then some (c.toNat - 48) else none

/-- The value of a hexadecimal digit, in either case. -/
def hexValue? (c : Char) : Option Nat :=
  if '0' ≤ c ∧ c ≤ '9' then some (c.toNat - 48)
  else if 'a' ≤ c ∧ c ≤ 'f' then some (c.toNat - 87)
  else if 'A' ≤ c ∧ c ≤ 'F' then some (c.toNat - 55)
  else none

/-- The text of a truth value. -/
def truth : Bool → List Char
  | true => ['t', 'r', 'u', 'e']
  | false => ['f', 'a', 'l', 's', 'e']

/-- A number of fixed width is written with that many digits. -/
theorem length_hexFixed (width value : Nat) : (hexFixed width value).length = width := by
  induction width generalizing value with
  | zero => rfl
  | succ width inductionHypothesis => simp [hexFixed, inductionHypothesis]

end Sh2Pair.Text
