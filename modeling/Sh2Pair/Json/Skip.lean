import Sh2Pair.Json.Numeral
import Sh2Pair.Json.Text

/-!
# Passing over values

The value of a name that no field bears is passed over. It has to be well formed, but it may be
nested to any depth and hold numbers of any size. The brackets that are still open are kept on
a stack, so the nesting costs no recursion.
-/

namespace Sh2Pair.Json

/-- A bracket that is open. -/
inductive Bracket where
  | array
  | object
  deriving DecidableEq

/-- Passes over a name and the colon behind it. -/
def skipName (text : List Char) : Except Fault (List Char) :=
  match skipBlanks text with
  | [] => .error .truncated
  | '"' :: rest => do colon (← Text.skip rest)
  | _ => .error .malformed

/-- Passes over a number. A number that the text breaks off is malformed like any other. -/
def skipNumber (text : List Char) : Except Fault (List Char) :=
  match Numeral.read text with
  | .ok (_, rest) => .ok rest
  | .error _ => .error .malformed

/-- Where the passing stands: in front of a value, or behind one. -/
inductive SkipPoint where
  | value
  | behind
  deriving DecidableEq

/-- Passes over the rest of a value whose open brackets are on the stack. The count bounds the
number of values and closing brackets ahead. -/
def skipOn : Nat → SkipPoint → List Bracket → List Char → Except Fault (List Char)
  | 0, _, _, _ => .error .malformed
  | bound + 1, .value, stack, text =>
    match skipBlanks text with
    | [] => .error .truncated
    | 'n' :: rest => do skipOn bound .behind stack (← word ['u', 'l', 'l'] rest)
    | 't' :: rest => do skipOn bound .behind stack (← word ['r', 'u', 'e'] rest)
    | 'f' :: rest => do skipOn bound .behind stack (← word ['a', 'l', 's', 'e'] rest)
    | '"' :: rest => do skipOn bound .behind stack (← Text.skip rest)
    | '[' :: rest =>
      match skipBlanks rest with
      | [] => .error .truncated
      | ']' :: rest => skipOn bound .behind stack rest
      | rest => skipOn bound .value (.array :: stack) rest
    | '\x7b' :: rest =>
      match skipBlanks rest with
      | [] => .error .truncated
      | '\x7d' :: rest => skipOn bound .behind stack rest
      | rest => do skipOn bound .value (.object :: stack) (← skipName rest)
    | c :: rest =>
      if c = '-' || (Sh2Pair.Text.digitValue? c).isSome then do
        skipOn bound .behind stack (← skipNumber (c :: rest))
      else .error .malformed
  | _ + 1, .behind, [], text => .ok text
  | bound + 1, .behind, bracket :: stack, text =>
    match skipBlanks text, bracket with
    | [], _ => .error .truncated
    | ',' :: rest, .array => skipOn bound .value (.array :: stack) rest
    | ',' :: rest, .object => do skipOn bound .value (.object :: stack) (← skipName rest)
    | ']' :: rest, .array => skipOn bound .behind stack rest
    | '\x7d' :: rest, .object => skipOn bound .behind stack rest
    | _ :: _, _ => .error .malformed

/-- Passes over a value. -/
def skipValue (text : List Char) : Except Fault (List Char) :=
  skipOn (text.length + 2) .value [] text

end Sh2Pair.Json
