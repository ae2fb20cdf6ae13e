/-!
# Outlines

The tree behind a structural dump of a value: texts, values under a field name, and groups
between brackets. An outline has two layouts. The compact one stands on one line; the spread
one gives every member of a group a line of its own, indented by four blanks for each group
around it and closed by a comma.
-/

namespace Sh2Pair.Text

/-- What stands around the members of a group. -/
inductive Frame where
  /-- A sequence. -/
  | sequence
  /-- A record of named fields, under the name of its type. -/
  | record (name : String)
  /-- A tuple of unnamed fields, under the name of its type. -/
  | tuple (name : String)

/-- The tree of a structural dump. -/
inductive Outline where
  | text (content : List Char)
  | field (name : String) (value : Outline)
  | group (frame : Frame) (members : List Outline)

namespace Frame

/-- The opening of a group. -/
def opening : Frame → List Char
  | .sequence => ['[']
  | .record name => name.toList ++ [' ', '\x7b']
  | .tuple name => name.toList ++ ['(']

/-- The closing of a group. -/
def closing : Frame → List Char
  | .sequence => [']']
  | .record _ => ['\x7d']
  | .tuple _ => [')']

/-- What the compact layout puts inside the brackets at either end: records have a blank. -/
def margin : Frame → List Char
  | .record _ => [' ']
  | _ => []

end Frame

namespace Outline

mutual

/-- The outline on one line. -/
def compact : Outline → List Char
  | .text content => content
  | .field name value => name.toList ++ [':', ' '] ++ compact value
  | .group frame [] => frame.opening ++ frame.closing
  | .group frame (first :: later) =>
    frame.opening ++ frame.margin ++ compact first ++ compactTail later ++
      frame.margin ++ frame.closing

/-- The members after the first, each behind a comma and a blank. -/
def compactTail : List Outline → List Char
  | [] => []
  | member :: later => [',', ' '] ++ compact member ++ compactTail later

end

/-- The blanks in front of a line at a depth of groups. -/
def indent (depth : Nat) : List Char := List.replicate (4 * depth) ' '

mutual

/-- The outline over several lines, inside `depth` groups. -/
def spreadAt (depth : Nat) : Outline → List Char
  | .text content => content
  | .field name value => name.toList ++ [':', ' '] ++ spreadAt depth value
  | .group frame [] => frame.opening ++ frame.closing
  | .group frame (first :: later) =>
    frame.opening ++ ['\n'] ++ indent (depth + 1) ++ spreadAt (depth + 1) first ++
      [',', '\n'] ++ spreadTail (depth + 1) later ++ indent depth ++ frame.closing

/-- The members after the first, each on a line of its own. -/
def spreadTail (depth : Nat) : List Outline → List Char
  | [] => []
  | member :: later =>
    indent depth ++ spreadAt depth member ++ [',', '\n'] ++ spreadTail depth later

end

/-- The outline over several lines. -/
def spread (outline : Outline) : List Char := spreadAt 0 outline

end Outline

end Sh2Pair.Text
