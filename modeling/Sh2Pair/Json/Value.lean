import Sh2Pair.Json.Skip

/-!
# Values of a wanted type

Readers for truth values, counts, sequences and records. A reader that finds a value of another
type first reads that value as far as its description needs, so a fault inside it is reported
before the mismatch.

A record is written as an object, whose names may come in any order, or as an array of the
values in the order of the fields, whose end may be left out. Fields that are not written keep
what they had. Names that no field bears are passed over with their values; the name of a field
may come only once.
-/

namespace Sh2Pair.Json

/-- The fault of a value of another type, at its first character. -/
def wrongType (expected : String) (text : List Char) : Fault :=
  let mismatch (found : Found) : Fault := .mismatch (.wrongType found expected)
  match text with
  | 'n' :: rest =>
    match word ['u', 'l', 'l'] rest with
    | .ok _ => mismatch .null
    | .error fault => fault
  | 't' :: rest =>
    match word ['r', 'u', 'e'] rest with
    | .ok _ => mismatch (.truth true)
    | .error fault => fault
  | 'f' :: rest =>
    match word ['a', 'l', 's', 'e'] rest with
    | .ok _ => mismatch (.truth false)
    | .error fault => fault
  | '"' :: rest =>
    match Text.read rest with
    | .ok (content, _) => mismatch (.text content)
    | .error fault => fault
  | '[' :: _ => mismatch .sequence
  | '\x7b' :: _ => mismatch .map
  | c :: rest =>
    if c = '-' || (Sh2Pair.Text.digitValue? c).isSome then
      match Numeral.readValue (c :: rest) with
      | .ok (.whole value, _) => mismatch (.whole value)
      | .ok (.floating, _) => mismatch .floating
      | .error fault => fault
    else .malformed
  | [] => .malformed

/-- Reads a truth value. -/
def readTruth (text : List Char) : Except Fault (Bool × List Char) :=
  match skipBlanks text with
  | [] => .error .truncated
  | 't' :: rest => do .ok (true, ← word ['r', 'u', 'e'] rest)
  | 'f' :: rest => do .ok (false, ← word ['a', 'l', 's', 'e'] rest)
  | rest => .error (wrongType "a boolean" rest)

/-- Reads a count of cycles. -/
def readCount (text : List Char) : Except Fault (Int32 × List Char) :=
  match skipBlanks text with
  | [] => .error .truncated
  | c :: rest =>
    if c = '-' || (Sh2Pair.Text.digitValue? c).isSome then
      match Numeral.readValue (c :: rest) with
      | .ok (.whole value, rest) =>
        if -0x80000000 ≤ value ∧ value ≤ 0x7fffffff then .ok (Int32.ofInt value, rest)
        else .error (.mismatch (.outOfRange value))
      | .ok (.floating, _) => .error (.mismatch (.wrongType .floating "i32"))
      | .error fault => .error fault
    else .error (wrongType "i32" (c :: rest))

/-- Reads the values of an array up to its end. The count bounds their number. -/
def readItems {α : Type} (readItem : List Char → Except Fault (α × List Char)) :
    Nat → Bool → List Char → Except Fault (List α × List Char)
  | 0, _, _ => .error .malformed
  | bound + 1, first, text => do
    match ← nextItem first text with
    | .close rest => .ok ([], rest)
    | .item rest =>
      let (value, rest) ← readItem rest
      let (later, rest) ← readItems readItem bound false rest
      .ok (value :: later, rest)

/-- Reads a sequence. -/
def readSequence {α : Type} (readItem : List Char → Except Fault (α × List Char))
    (text : List Char) : Except Fault (List α × List Char) :=
  match skipBlanks text with
  | [] => .error .truncated
  | '[' :: rest => readItems readItem (rest.length + 1) true rest
  | rest => .error (wrongType "a sequence" rest)

/-- A field of a record that is being read into a partial value of type `ρ`. -/
structure Field (ρ : Type) where
  name : String
  /-- Whether the field has been read already. -/
  isGiven : ρ → Bool
  /-- Reads the value of the field into the partial value. -/
  read : ρ → List Char → Except Fault (ρ × List Char)

variable {ρ : Type}

/-- Reads the values of an array into fields, in order. -/
def readPositional : List (Field ρ) → Bool → ρ → List Char → Except Fault (ρ × List Char)
  | [], _, record, text =>
    match skipBlanks text with
    | [] => .error .truncated
    | ']' :: rest => .ok (record, rest)
    | _ => .error .malformed
  | field :: later, first, record, text => do
    match ← nextItem first text with
    | .close rest => .ok (record, rest)
    | .item rest =>
      let (record, rest) ← field.read record rest
      readPositional later false record rest

/-- Reads the members of an object into the fields they name. The count bounds the number of
members. -/
def readMembers (fields : List (Field ρ)) :
    Nat → Bool → ρ → List Char → Except Fault (ρ × List Char)
  | 0, _, _, _ => .error .malformed
  | bound + 1, first, record, text => do
    match ← nextName first text with
    | .close rest => .ok (record, rest)
    | .name rest =>
      let (name, rest) ← Text.read rest
      match fields.find? fun field => field.name.toList = name with
      | some field =>
        if field.isGiven record then .error (.mismatch (.duplicateField field.name))
        else
          let (record, rest) ← field.read record (← colon rest)
          readMembers fields bound false record rest
      | none =>
        let rest ← skipValue (← colon rest)
        readMembers fields bound false record rest

/-- Reads a record into a partial value. -/
def readRecord (expected : String) (fields : List (Field ρ)) (record : ρ) (text : List Char) :
    Except Fault (ρ × List Char) :=
  match skipBlanks text with
  | [] => .error .truncated
  | '[' :: rest => readPositional fields true record rest
  | '\x7b' :: rest => readMembers fields (rest.length + 1) true record rest
  | rest => .error (wrongType expected rest)

/-- Reads a whole text: one value, with nothing but blanks behind it. -/
def readDocument {α : Type} (readValue : List Char → Except Fault (α × List Char))
    (text : String) : Except Fault α := do
  let (value, rest) ← readValue text.toList
  match skipBlanks rest with
  | [] => .ok value
  | _ => .error .malformed

end Sh2Pair.Json
