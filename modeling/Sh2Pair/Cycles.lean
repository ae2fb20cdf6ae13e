/-!
# Cycle counts

Cycle counts are signed 32-bit words. Two rules of arithmetic are used on them beside the
wrapping one of the words: a result outside the range stops at the nearer end (`satAdd`,
`satSub`), or it is reported as missing (`checkedAdd?`). Both are stated through the integers
that the words stand for.
-/

namespace Sh2Pair.Cycles

/-- The least count. -/
def least : Int := -0x80000000

/-- The greatest count. -/
def greatest : Int := 0x7fffffff

/-- The integer moved into the range of counts, to the nearer end if it lies outside. -/
def clamp (value : Int) : Int := max least (min value greatest)

/-- The sum, stopped at the ends of the range. -/
def satAdd (left right : Int32) : Int32 := Int32.ofInt (clamp (left.toInt + right.toInt))

/-- The difference, stopped at the ends of the range. -/
def satSub (left right : Int32) : Int32 := Int32.ofInt (clamp (left.toInt - right.toInt))

/-- The sum, if it lies in the range. -/
def checkedAdd? (left right : Int32) : Option Int32 :=
  let sum := left.toInt + right.toInt
  if least ≤ sum ∧ sum ≤ greatest then some (Int32.ofInt sum) else none

/-- The cycles of a count that are to be credited: a negative count credits nothing. -/
def credit (count : Int32) : Nat := count.toInt.toNat

/-- A word holds every integer of the range. -/
theorem toInt_ofInt {value : Int} (low : least ≤ value) (high : value ≤ greatest) :
    (Int32.ofInt value).toInt = value := by
  simp only [least, greatest] at low high
  exact Int32.toInt_ofInt_of_le (by omega) (by omega)

/-- A clamped value lies between the least and the greatest count. -/
theorem clamp_bounds (value : Int) : least ≤ clamp value ∧ clamp value ≤ greatest := by
  simp only [clamp, least, greatest]
  omega

/-- The stopped difference is the difference moved into the range. -/
theorem toInt_satSub (left right : Int32) :
    (satSub left right).toInt = clamp (left.toInt - right.toInt) :=
  toInt_ofInt (clamp_bounds _).1 (clamp_bounds _).2

/-- The stopped sum is the sum moved into the range. -/
theorem toInt_satAdd (left right : Int32) :
    (satAdd left right).toInt = clamp (left.toInt + right.toInt) :=
  toInt_ofInt (clamp_bounds _).1 (clamp_bounds _).2

/-- The bounds of a word, as the range of counts. -/
theorem bounds (count : Int32) : least ≤ count.toInt ∧ count.toInt ≤ greatest := by
  have low : -2 ^ 31 ≤ count.toInt := count.le_toInt
  have high : count.toInt < 2 ^ 31 := count.toInt_lt
  simp only [least, greatest]
  omega

/-- Something is left of a difference exactly when the first count is the greater one. -/
theorem satSub_pos_iff (left right : Int32) :
    0 < (satSub left right).toInt ↔ right.toInt < left.toInt := by
  have hl : least ≤ left.toInt ∧ left.toInt ≤ greatest := bounds left
  have hr : least ≤ right.toInt ∧ right.toInt ≤ greatest := bounds right
  rw [toInt_satSub]
  simp only [clamp, least, greatest] at *
  omega

/-- A sum is present exactly when it lies in the range, and then it is exact. -/
theorem checkedAdd?_eq_some_iff {left right sum : Int32} :
    checkedAdd? left right = some sum ↔ left.toInt + right.toInt = sum.toInt := by
  constructor
  · intro added
    simp only [checkedAdd?] at added
    split at added
    · rename_i inRange
      injection added with added
      rw [← added, toInt_ofInt inRange.1 inRange.2]
    · contradiction
  · intro exactSum
    have inRange : least ≤ sum.toInt ∧ sum.toInt ≤ greatest := bounds sum
    simp only [checkedAdd?, exactSum, inRange, and_self, if_true, Option.some.injEq]
    apply Int32.toInt_inj.mp
    exact toInt_ofInt inRange.1 inRange.2

end Sh2Pair.Cycles
