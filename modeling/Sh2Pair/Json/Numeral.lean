import Sh2Pair.Json.Scan

/-!
# Numbers in a text

A number is read as it is spelled: a sign, whole digits without a leading zero, and possibly a
fraction and an exponent. What the spelling stands for is decided afterwards. Whole numbers
that fit 64 bits, with a sign if they have one, stay whole; every other number is floating, and
is refused if it is too large for a double.

How large a floating number is follows the way it is accumulated. Its leading digits are
gathered as long as the sum fits 64 bits; each whole digit left out then counts as a power of
ten, and the first fraction digit left out ends the gathering. The gathered sum and the power
of ten are rounded to doubles, and so is their product.
-/

namespace Sh2Pair.Json

/-- The spelling of a number. -/
structure Numeral where
  negative : Bool
  whole : List Nat
  fraction : List Nat
  /-- The exponent, with a flag that is set if it is negative. -/
  exponent : Option (Bool × List Nat)
  /-- Whether a fraction or an exponent is spelled at all. -/
  floating : Bool

namespace Numeral

/-- Reads the digits of an exponent, behind its letter. -/
def readExponent (text : List Char) : Except Fault ((Bool × List Nat) × List Char) :=
  let (negative, text) :=
    match text with
    | '+' :: rest => (false, rest)
    | '-' :: rest => (true, rest)
    | rest => (false, rest)
  match digits text with
  | ([], []) => .error .truncated
  | ([], _ :: _) => .error .malformed
  | (read, rest) => .ok ((negative, read), rest)

/-- Reads what may follow the whole digits. -/
def readTail (negative : Bool) (whole : List Nat) (text : List Char) :
    Except Fault (Numeral × List Char) :=
  match text with
  | '.' :: rest =>
    match digits rest with
    | ([], []) => .error .truncated
    | ([], _ :: _) => .error .malformed
    | (fraction, c :: rest) =>
      if c = 'e' || c = 'E' then do
        let (exponent, rest) ← readExponent rest
        .ok (⟨negative, whole, fraction, some exponent, true⟩, rest)
      else .ok (⟨negative, whole, fraction, none, true⟩, c :: rest)
    | (fraction, []) => .ok (⟨negative, whole, fraction, none, true⟩, [])
  | c :: rest =>
    if c = 'e' || c = 'E' then do
      let (exponent, rest) ← readExponent rest
      .ok (⟨negative, whole, [], some exponent, true⟩, rest)
    else .ok (⟨negative, whole, [], none, false⟩, c :: rest)
  | [] => .ok (⟨negative, whole, [], none, false⟩, [])

/-- Reads a number whose sign, if it has one, has been read. -/
def readUnsigned (negative : Bool) (text : List Char) : Except Fault (Numeral × List Char) :=
  match digits text with
  | ([], []) => .error .truncated
  | ([], _ :: _) => .error .malformed
  | (0 :: _ :: _, _) => .error .malformed
  | (whole, rest) => readTail negative whole rest

/-- Reads a number. -/
def read (text : List Char) : Except Fault (Numeral × List Char) :=
  match text with
  | '-' :: rest => readUnsigned true rest
  | rest => readUnsigned false rest

/-- The number that digits spell. -/
def ofDigits (spelled : List Nat) : Nat := spelled.foldl (fun sum digit => 10 * sum + digit) 0

/-- The greatest number of 64 bits. -/
def greatest : Nat := 1 <<< 64 - 1

/-- Gathers digits behind a sum as long as it fits 64 bits. Gives the sum and the count of
digits left out. -/
def gather (sum : Nat) : List Nat → Nat × Nat
  | [] => (sum, 0)
  | digit :: later =>
    if 10 * sum + digit ≤ greatest then gather (10 * sum + digit) later
    else (sum, later.length + 1)

/-- The nearest number of 53 significant bits; a tie goes to the even one. -/
def roundDouble (value : Nat) : Nat :=
  let shift := value.log2 + 1 - 53
  let quotient := value >>> shift
  let rest := value % 1 <<< shift
  if 2 * rest > 1 <<< shift || (2 * rest = 1 <<< shift && quotient % 2 = 1) then
    (quotient + 1) <<< shift
  else quotient <<< shift

/-- The least number that rounds to more than the greatest double. -/
def doubleLimit : Nat := 1 <<< 1024 - 1 <<< 970

/-- Whether a sum scaled by a power of ten is a finite double. -/
def isFinite (sum : Nat) (power : Int) : Bool :=
  match power with
  | .negSucc _ => true
  | .ofNat power =>
    if power ≤ 308 then
      decide (roundDouble sum * roundDouble (Nat.pow 10 power) < doubleLimit)
    else sum = 0

/-- Whether the number is a finite double. An exponent that fits no count is beyond all sums:
a positive one leaves only zero finite. -/
def fitsDouble (numeral : Numeral) : Bool :=
  let (wholeSum, wholeLeft) := gather 0 numeral.whole
  let (sum, fractionLeft) := gather wholeSum numeral.fraction
  let power : Int := wholeLeft - (numeral.fraction.length - fractionLeft : Nat)
  match numeral.exponent with
  | none => isFinite sum power
  | some (negative, spelled) =>
    let size := ofDigits spelled
    if size > 1 <<< 31 - 1 then sum = 0 || negative
    else isFinite sum (if negative then power - size else power + size)

/-- What a number stands for. -/
inductive Value where
  | whole (value : Int)
  | floating

/-- What the number stands for, or nothing if it is too large. A negative zero is floating. -/
def value? (numeral : Numeral) : Option Value :=
  let size := ofDigits numeral.whole
  if !numeral.floating && !numeral.negative && size ≤ greatest then some (.whole size)
  else if !numeral.floating && numeral.negative && 0 < size && size ≤ 1 <<< 63 then
    some (.whole (-size))
  else if numeral.fitsDouble then some .floating
  else none

/-- Reads a number and what it stands for. A number that is too large is malformed. -/
def readValue (text : List Char) : Except Fault (Value × List Char) := do
  let (numeral, rest) ← read text
  match numeral.value? with
  | some value => .ok (value, rest)
  | none => .error .malformed

end Numeral

end Sh2Pair.Json
