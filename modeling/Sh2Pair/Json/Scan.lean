import Sh2Pair.Json.Fault

/-!
# The smallest pieces

Blanks, fixed words, digits and separators. Every reader takes the text that is left and gives
back what it read together with the text that is left then.
-/

namespace Sh2Pair.Json

/-- The characters that may stand between the pieces of a text. -/
def blank (c : Char) : Bool := c = ' ' || c = '\t' || c = '\n' || c = '\r'

/-- The text without the blanks in front. -/
def skipBlanks : List Char → List Char
  | [] => []
  | c :: rest => if blank c then skipBlanks rest else c :: rest

/-- Reads a fixed word. -/
def word : List Char → List Char → Except Fault (List Char)
  | [], rest => .ok rest
  | _ :: _, [] => .error .truncated
  | wanted :: later, c :: rest => if c = wanted then word later rest else .error .malformed

/-- The digits in front of a text, as numbers, and the text behind them. -/
def digits : List Char → List Nat × List Char
  | [] => ([], [])
  | c :: rest =>
    match Text.digitValue? c with
    | some digit => let (more, rest) := digits rest; (digit :: more, rest)
    | none => ([], c :: rest)

/-- Reads the colon behind a name. -/
def colon (text : List Char) : Except Fault (List Char) :=
  match skipBlanks text with
  | [] => .error .truncated
  | ':' :: rest => .ok rest
  | _ => .error .malformed

/-- What follows inside an array: its end, or a value. -/
inductive NextItem where
  | close (rest : List Char)
  | item (rest : List Char)

/-- Looks for the next value of an array. Before every value but the first stands a comma. -/
def nextItem (first : Bool) (text : List Char) : Except Fault NextItem :=
  match skipBlanks text with
  | [] => .error .truncated
  | ']' :: rest => .ok (.close rest)
  | c :: rest =>
    if first then .ok (.item (c :: rest))
    else if c = ',' then
      match skipBlanks rest with
      | [] => .error .truncated
      | ']' :: _ => .error .malformed
      | rest => .ok (.item rest)
    else .error .malformed

/-- What follows inside an object: its end, or the text of a name behind its opening quote. -/
inductive NextName where
  | close (rest : List Char)
  | name (rest : List Char)

/-- Looks for the next name of an object. Before every name but the first stands a comma. -/
def nextName (first : Bool) (text : List Char) : Except Fault NextName :=
  match skipBlanks text with
  | [] => .error .truncated
  | '\x7d' :: rest => .ok (.close rest)
  | c :: rest =>
    if first then if c = '"' then .ok (.name rest) else .error .malformed
    else if c = ',' then
      match skipBlanks rest with
      | [] => .error .truncated
      | '"' :: rest => .ok (.name rest)
      | _ => .error .malformed
    else .error .malformed

end Sh2Pair.Json
