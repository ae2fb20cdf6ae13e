import Sh2Pair.Json.Scan

/-!
# Strings in a text

A string runs from its opening quote to the next quote that no backslash escapes. Control
characters have to be escaped. A `\u` escape names one 16-bit unit by four hexadecimal digits;
a character beyond 16 bits is named by two of them, a leading and a trailing surrogate, and a
surrogate without its partner names no character. A string whose content does not matter is
passed over by weaker rules: its escapes need the right digits, but surrogates may stand alone.
-/

namespace Sh2Pair.Json.Text

open Sh2Pair.Text (hexValue?)

/-- Where in a string the reading stands. -/
inductive Place where
  /-- Between two characters. -/
  | plain
  /-- Behind a backslash. -/
  | escape
  /-- Inside the digits of a unit, of which `count` have been read; `lead` is the leading
  surrogate in front of it, if there is one. -/
  | unit (count value : Nat) (lead : Option Nat)
  /-- Behind a leading surrogate. -/
  | lead (unit : Nat)
  /-- Behind a leading surrogate and a backslash. -/
  | leadEscape (unit : Nat)

/-- The character of a two-letter escape. -/
def shortEscape? : Char → Option Char
  | '"' => some '"'
  | '\\' => some '\\'
  | '/' => some '/'
  | 'b' => some '\x08'
  | 'f' => some '\x0c'
  | 'n' => some '\n'
  | 'r' => some '\r'
  | 't' => some '\t'
  | _ => none

/-- Whether fewer than four bytes are left, counted in UTF-8. -/
def nearEnd (text : List Char) : Bool :=
  (text.take 4).foldl (fun sum c => sum + c.utf8Size) 0 < 4

/-- Puts a character in front of a string that has been read. -/
def prepend (c : Char) (read : Except Fault (List Char × List Char)) :
    Except Fault (List Char × List Char) :=
  match read with
  | .ok (content, rest) => .ok (c :: content, rest)
  | .error fault => .error fault

/-- What the last digit of a unit completes. -/
inductive Completed where
  | character (c : Char)
  | lead (unit : Nat)
  | stray

/-- Decides what a unit completes, given the leading surrogate in front of it, if any. -/
def complete (unit : Nat) : Option Nat → Completed
  | none =>
    if 0xdc00 ≤ unit ∧ unit ≤ 0xdfff then .stray
    else if 0xd800 ≤ unit ∧ unit ≤ 0xdbff then .lead unit
    else .character (Char.ofNat unit)
  | some lead =>
    if 0xdc00 ≤ unit ∧ unit ≤ 0xdfff then
      .character (Char.ofNat (0x10000 + (lead - 0xd800) * 0x400 + (unit - 0xdc00)))
    else .stray

/-- Reads on from a place in a string, up to and including its closing quote. -/
def readFrom : Place → List Char → Except Fault (List Char × List Char)
  | _, [] => .error .truncated
  | .plain, c :: rest =>
    if c = '"' then .ok ([], rest)
    else if c = '\\' then readFrom .escape rest
    else if c.toNat < 32 then .error .malformed
    else prepend c (readFrom .plain rest)
  | .escape, c :: rest =>
    match shortEscape? c with
    | some meant => prepend meant (readFrom .plain rest)
    | none =>
      if c = 'u' then
        if nearEnd rest then .error .truncated else readFrom (.unit 0 0 none) rest
      else .error .malformed
  | .unit count value lead, c :: rest =>
    match hexValue? c with
    | none => .error .malformed
    | some digit =>
      let value := 16 * value + digit
      if count < 3 then readFrom (.unit (count + 1) value lead) rest
      else
        match complete value lead with
        | .character meant => prepend meant (readFrom .plain rest)
        | .lead unit => readFrom (.lead unit) rest
        | .stray => .error .malformed
  | .lead unit, c :: rest =>
    if c = '\\' then readFrom (.leadEscape unit) rest else .error .malformed
  | .leadEscape unit, c :: rest =>
    if c = 'u' then
      if nearEnd rest then .error .truncated else readFrom (.unit 0 0 (some unit)) rest
    else .error .malformed

/-- Reads a string behind its opening quote. -/
def read (text : List Char) : Except Fault (List Char × List Char) := readFrom .plain text

/-- Where in a string that is passed over the reading stands. -/
inductive SkipPlace where
  | plain
  | escape
  | unit (count : Nat)

/-- Passes over a string from a place in it, up to and including its closing quote. -/
def skipFrom : SkipPlace → List Char → Except Fault (List Char)
  | _, [] => .error .truncated
  | .plain, c :: rest =>
    if c = '"' then .ok rest
    else if c = '\\' then skipFrom .escape rest
    else if c.toNat < 32 then .error .malformed
    else skipFrom .plain rest
  | .escape, c :: rest =>
    if (shortEscape? c).isSome then skipFrom .plain rest
    else if c = 'u' then
      if nearEnd rest then .error .truncated else skipFrom (.unit 0) rest
    else .error .malformed
  | .unit count, c :: rest =>
    if (hexValue? c).isNone then .error .malformed
    else if count < 3 then skipFrom (.unit (count + 1)) rest
    else skipFrom .plain rest

/-- Passes over a string behind its opening quote. -/
def skip (text : List Char) : Except Fault (List Char) := skipFrom .plain text

end Sh2Pair.Json.Text
