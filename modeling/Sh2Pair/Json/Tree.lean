import Sh2Pair.Text.Numeral

/-!
# Written values

The tree of a value that is to be written, and its two layouts. The compact one has no blanks.
The spread one gives every element and every member a line of its own, indented by two blanks
for each bracket around it; empty brackets stay closed. The strings of these trees are names of
letters and underscores, which need no escapes.
-/

namespace Sh2Pair.Json

/-- A value to be written. -/
inductive Tree where
  | number (value : Int)
  | truth (value : Bool)
  | name (content : String)
  | array (elements : List Tree)
  | object (members : List Tree)
  /-- A member of an object. -/
  | member (key : String) (value : Tree)

namespace Tree

/-- A name between quotes. -/
def nameText (content : String) : List Char := '"' :: (content.toList ++ ['"'])

mutual

/-- The value without blanks. -/
def compact : Tree → List Char
  | .number value => Text.integer value
  | .truth value => Text.truth value
  | .name content => nameText content
  | .array [] => ['[', ']']
  | .array (first :: later) => '[' :: (compact first ++ compactTail later ++ [']'])
  | .object [] => ['\x7b', '\x7d']
  | .object (first :: later) => '\x7b' :: (compact first ++ compactTail later ++ ['\x7d'])
  | .member key value => nameText key ++ [':'] ++ compact value

/-- The elements after the first, each behind a comma. -/
def compactTail : List Tree → List Char
  | [] => []
  | element :: later => ',' :: (compact element ++ compactTail later)

end

/-- A new line at a depth of brackets. -/
def newLine (depth : Nat) : List Char := '\n' :: List.replicate (2 * depth) ' '

mutual

/-- The value over several lines, inside `depth` brackets. -/
def spreadAt (depth : Nat) : Tree → List Char
  | .number value => Text.integer value
  | .truth value => Text.truth value
  | .name content => nameText content
  | .array [] => ['[', ']']
  | .array (first :: later) =>
    '[' :: (newLine (depth + 1) ++ spreadAt (depth + 1) first ++
      spreadTail (depth + 1) later ++ newLine depth ++ [']'])
  | .object [] => ['\x7b', '\x7d']
  | .object (first :: later) =>
    '\x7b' :: (newLine (depth + 1) ++ spreadAt (depth + 1) first ++
      spreadTail (depth + 1) later ++ newLine depth ++ ['\x7d'])
  | .member key value => nameText key ++ [':', ' '] ++ spreadAt depth value

/-- The elements after the first, each behind a comma on a line of its own. -/
def spreadTail (depth : Nat) : List Tree → List Char
  | [] => []
  | element :: later =>
    ',' :: (newLine depth ++ spreadAt depth element ++ spreadTail depth later)

end

/-- The value over several lines. -/
def spread (tree : Tree) : List Char := spreadAt 0 tree

end Tree

end Sh2Pair.Json
