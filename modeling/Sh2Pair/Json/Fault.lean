import Sh2Pair.Text.Quoted

/-!
# Why a text is refused

A configuration text is read from left to right, and the first fault found is the one reported.
It can be malformed, it can end too early, or it can be well formed so far and say something
that the value wanted does not allow. Only a fault of the last kind has a message of its own.
-/

namespace Sh2Pair.Json

/-- What was found in place of a value of the wanted type. -/
inductive Found where
  | null
  | truth (value : Bool)
  | whole (value : Int)
  /-- A number that is not whole, or too long for a whole number. -/
  | floating
  | text (content : List Char)
  | sequence
  | map

/-- A well-formed text that does not describe the wanted value. -/
inductive Mismatch where
  | wrongType (found : Found) (expected : String)
  /-- A whole number that a count of cycles cannot hold. -/
  | outOfRange (value : Int)
  | duplicateField (name : String)
  | unknownVariant (name : List Char) (known : List String)

/-- Why a text is refused. -/
inductive Fault where
  | malformed
  | truncated
  | mismatch (cause : Mismatch)

open Text

namespace Found

/-- The description of what was found. The value of a floating number is left out. -/
def describe : Found → List Char
  | .null => "null".toList
  | .truth value => "boolean `".toList ++ Text.truth value ++ ['`']
  | .whole value => "integer `".toList ++ integer value ++ ['`']
  | .floating => "floating point".toList
  | .text content => "string ".toList ++ quoted content
  | .sequence => "sequence".toList
  | .map => "map".toList

end Found

/-- A name between grave accents. -/
def marked (name : List Char) : List Char := '`' :: (name ++ ['`'])

/-- The names that would have been allowed. -/
def choice : List String → List Char
  | [] => "no variants".toList
  | [only] => marked only.toList
  | [first, second] => marked first.toList ++ " or ".toList ++ marked second.toList
  | first :: later =>
    "one of ".toList ++ marked first.toList ++
      later.flatMap fun name => [',', ' '] ++ marked name.toList

namespace Mismatch

/-- The message of a mismatch. -/
def message : Mismatch → List Char
  | .wrongType found expected =>
    "invalid type: ".toList ++ found.describe ++ ", expected ".toList ++ expected.toList
  | .outOfRange value =>
    "invalid value: integer `".toList ++ integer value ++ "`, expected i32".toList
  | .duplicateField name => "duplicate field ".toList ++ marked name.toList
  | .unknownVariant name known =>
    "unknown variant ".toList ++ marked name ++ ", expected ".toList ++ choice known

end Mismatch

end Sh2Pair.Json
