import Sh2Pair.Json.Value
import Sh2Pair.Proofs.Advancing

/-!
# What a reader makes of a text

A reader reads a text as a value if it does so with any blanks in front of the text and with
anything behind it that may stand there. Truth values, counts and named constants have texts of
their own; a sequence is a row of such texts between brackets. -/

namespace Sh2Pair.Json

open Sh2Pair.Text (integer)

/-- A reader makes a value of a text. -/
structure Reads {α : Type} (reader : List Char → Except Fault (α × List Char)) (text : List Char)
    (value : α) : Prop where
  /-- The text begins with something visible. -/
  begins : ¬ Ends text
  reads : ∀ blanks rest, Blanks blanks → Ends rest →
    reader (blanks ++ (text ++ rest)) = .ok (value, rest)

/-- What is made of a value that has been read. -/
theorem Reads.map {α β : Type} {reader : List Char → Except Fault (α × List Char)}
    {text : List Char} {value : α} (read : Reads reader text value) (use : α → β) :
    Reads (fun text => reader text >>= fun read => Except.ok (use read.1, read.2)) text
      (use value) := by
  obtain ⟨begins, reads⟩ := read
  refine ⟨begins, ?_⟩
  intro blanks rest inside ends
  rw [reads blanks rest inside ends]
  rfl

/-- A text that a reader reads is a whole document, with blanks around it. -/
theorem Reads.document {α : Type} {reader : List Char → Except Fault (α × List Char)}
    {text : List Char} {value : α} (read : Reads reader text value) {before after : List Char}
    (begun : Blanks before) (ended : Blanks after) :
    readDocument reader (String.ofList (before ++ (text ++ after))) = .ok value := by
  have ends : Ends (after ++ []) := ends_append ended trivial
  have nothing : skipBlanks (after ++ []) = [] := skipBlanks_append ended []
  rw [List.append_nil] at ends nothing
  simp [readDocument, read.reads before after begun ends, nothing, bind, Except.bind]

/-- The ways to spell a named constant: its name between quotes, or an object of that single name
with the value `null`. -/
inductive NameText (name : List Char) : List Char → Prop where
  | name {text : List Char} (spelled : Spells name text) : NameText name ('"' :: (text ++ ['"']))
  | object {before text between gap after : List Char} (begun : Blanks before)
      (spelled : Spells name text) (blanks : Blanks between) (blanksToo : Blanks gap)
      (ended : Blanks after) :
      NameText name ('\x7b' :: (before ++ '"' :: (text ++ '"' :: (between ++ ':' ::
        (gap ++ ('n' :: 'u' :: 'l' :: 'l' :: (after ++ ['\x7d'])))))))

section Pieces

/-- A truth value is read from its word. -/
theorem reads_truth (value : Bool) : Reads readTruth (Sh2Pair.Text.truth value) value := by
  have begins : ¬ Ends (Sh2Pair.Text.truth value) := not_ends_of_wellFormed (.truth value)
  refine ⟨begins, ?_⟩
  intro blanks rest inside ends
  have seen : skipBlanks (blanks ++ (Text.truth value ++ rest)) = Text.truth value ++ rest :=
    skipBlanks_to_value inside (not_ends_append begins rest)
  rw [readTruth, seen]
  cases value <;> rfl

/-- A count of cycles is a whole number of 64 bits. -/
theorem fits_count (value : Int32) : Numeral.Fits value.toInt := by
  constructor
  · exact Int.le_trans (by decide) value.le_toInt
  · exact Int.le_trans (Int.le_of_lt value.toInt_lt) (by decide)

/-- A count is read from its numeral. -/
theorem reads_count (value : Int32) : Reads readCount (integer value.toInt) value := by
  have number : Number (integer value.toInt) := Numeral.number_integer value.toInt
  have begins : ¬ Ends (integer value.toInt) := not_ends_of_wellFormed (.number number)
  have inRange : -0x80000000 ≤ value.toInt ∧ value.toInt ≤ 0x7fffffff :=
    ⟨value.le_toInt, Int.le_of_lt_add_one value.toInt_lt⟩
  refine ⟨begins, ?_⟩
  intro blanks rest inside ends
  have seen : skipBlanks (blanks ++ (integer value.toInt ++ rest)) = integer value.toInt ++ rest :=
    skipBlanks_to_value inside (not_ends_append begins rest)
  have read : Numeral.readValue (integer value.toInt ++ rest) =
      .ok (Numeral.Value.whole value.toInt, rest) :=
    Numeral.readValue_integer ends (fits_count value)
  obtain ⟨c, later, same, digit⟩ := Numeral.head_of_number number
  rw [same, List.cons_append] at seen read
  rw [same, List.cons_append, readCount, seen]
  simp [beginsNumber_iff.mpr digit, read, inRange]

/-- A colon is found behind some blanks. -/
theorem colon_of_blanks {blanks : List Char} (inside : Blanks blanks) (rest : List Char) :
    colon (blanks ++ ':' :: rest) = .ok rest := by
  rw [colon, skipBlanks_to inside (by decide)]
  rfl

/-- The word `null` is read behind some blanks. -/
theorem readUnit_null {blanks : List Char} (inside : Blanks blanks) (rest : List Char) :
    readUnit (blanks ++ 'n' :: 'u' :: 'l' :: 'l' :: rest) = .ok rest := by
  rw [readUnit, skipBlanks_to inside (by decide)]
  rfl

/-- A named constant is read from either of its texts. -/
theorem reads_named {α : Type} {constants : List (String × α)} {name text : List Char} {value : α}
    (found : findNamed constants name = .ok value) (spelled : NameText name text) :
    Reads (readNamed constants) text value := by
  cases spelled with
  | @name text spelled =>
    have begins : ¬ Ends ('"' :: (text ++ ['"'])) := by simp [Ends]
    refine ⟨begins, ?_⟩
    intro blanks rest inside ends
    rw [readNamed, skipBlanks_to_value inside (not_ends_append begins _)]
    simp [Text.read_of_spells spelled, found, bind, Except.bind]
  | @object before text between gap after begun spelled blanks blanksToo ended =>
    refine ⟨by simp [Ends], ?_⟩
    intro front rest inside ends
    have quoted : ∀ later, skipBlanks (before ++ '"' :: later) = '"' :: later :=
      skipBlanks_to begun (by decide)
    have closed : ∀ later, skipBlanks (after ++ '\x7d' :: later) = '\x7d' :: later :=
      skipBlanks_to ended (by decide)
    rw [readNamed, skipBlanks_to_value inside (not_ends_append (by simp [Ends]) _)]
    simp [quoted, Text.read_of_spells spelled, found, colon_of_blanks blanks,
      readUnit_null blanksToo, closed, bind, Except.bind]

end Pieces

section Sequences

variable {α : Type} {readItem : List Char → Except Fault (α × List Char)}
  {Piece : α → List Char → Prop}

/-- A row of texts is at least as long as it has pieces. -/
theorem Row.length_le {pieces : List α} {text : List Char} (row : Row Piece pieces text)
    (filled : ∀ piece text, Piece piece text → text ≠ []) : pieces.length ≤ text.length := by
  induction row with
  | @last piece before text after begun spelled ended =>
    have positive : 0 < text.length := List.length_pos_of_ne_nil (filled piece text spelled)
    simp only [List.length_append, List.length_cons, List.length_nil]
    omega
  | more begun spelled ended later inductionHypothesis =>
    simp only [List.length_append, List.length_cons]
    omega

/-- A bound that is counted in characters leaves room for the pieces of a row. -/
theorem Row.exists_spare {pieces : List α} {text : List Char} (row : Row Piece pieces text)
    (filled : ∀ piece text, Piece piece text → text ≠ []) (behind : List Char) :
    ∃ spare, (text ++ behind).length + 1 = spare + pieces.length + 1 := by
  have long : pieces.length ≤ text.length := row.length_le filled
  refine ⟨(text ++ behind).length - pieces.length, ?_⟩
  rw [List.length_append]
  omega

/-- In front of a text that begins with something visible, the next value of an array begins. -/
theorem nextItem_of_text {first : Bool} {front before text : List Char} (begun : Blanks before)
    (begins : ¬ Ends text) (enters : Enters first front (before ++ text)) :
    nextItem first front = .ok (.item text) :=
  nextItem_eq_item_iff.mpr
    ⟨_, enters, opens_of_not_ends begun begins, (skipBlanks_to_value begun begins).symm⟩

/-- The values of a row are read in order, up to the bracket that closes behind them.

Proof: by induction on the row. In front of a value the reader finds an item, reads it, and then
finds a comma or the bracket. -/
theorem readItems_row (spelled : ∀ piece text, Piece piece text → Reads readItem text piece)
    {pieces : List α} {text : List Char} (row : Row Piece pieces text) (spare : Nat)
    {first : Bool} {front rest : List Char} (enters : Enters first front (text ++ ']' :: rest)) :
    readItems readItem (spare + pieces.length + 1) first front = .ok (pieces, rest) := by
  induction row generalizing first front with
  | @last piece before text after begun piece_spelled ended =>
    obtain ⟨begins, reads⟩ := spelled piece text piece_spelled
    simp only [List.append_assoc] at enters
    have next : nextItem first front = .ok (.item (text ++ (after ++ ']' :: rest))) :=
      nextItem_of_text begun (not_ends_append begins _) enters
    have read : readItem ([] ++ (text ++ (after ++ ']' :: rest))) =
        .ok (piece, after ++ ']' :: rest) :=
      reads [] (after ++ ']' :: rest) blanks_nil (ends_append ended (by simp [Ends]))
    have closed : nextItem false (after ++ ']' :: rest) = .ok (.close rest) :=
      nextItem_eq_close_iff.mpr (skipBlanks_to ended (by decide) rest)
    rw [List.nil_append] at read
    simp [readItems, next, read, closed, bind, Except.bind]
  | @more piece pieces before text after row begun piece_spelled ended later inductionHypothesis =>
    obtain ⟨begins, reads⟩ := spelled piece text piece_spelled
    simp only [List.append_assoc, List.cons_append] at enters
    have next :
        nextItem first front = .ok (.item (text ++ (after ++ ',' :: (row ++ ']' :: rest)))) :=
      nextItem_of_text begun (not_ends_append begins _) enters
    have read : readItem ([] ++ (text ++ (after ++ ',' :: (row ++ ']' :: rest)))) =
        .ok (piece, after ++ ',' :: (row ++ ']' :: rest)) :=
      reads [] (after ++ ',' :: (row ++ ']' :: rest)) blanks_nil
        (ends_append ended (by simp [Ends]))
    have enters : Enters false (after ++ ',' :: (row ++ ']' :: rest)) (row ++ ']' :: rest) :=
      skipBlanks_to ended (by decide) _
    have others : readItems readItem (spare + pieces.length + 1) false
        (after ++ ',' :: (row ++ ']' :: rest)) = .ok (pieces, rest) := inductionHypothesis enters
    rw [List.nil_append] at read
    have count : spare + (piece :: pieces).length + 1 = (spare + pieces.length + 1) + 1 := rfl
    rw [count, readItems]
    simp [next, read, others, bind, Except.bind]

/-- A row of values between brackets is read as the sequence of the values.

Proof: an empty sequence is closed at once. Otherwise the text is longer than the row has values, so
the bound of the reader is enough for them. -/
theorem reads_sequence (spelled : ∀ piece text, Piece piece text → Reads readItem text piece)
    {pieces : List α} {text : List Char} (bracketed : Bracketed '[' ']' Piece pieces text) :
    Reads (readSequence readItem) text pieces := by
  have begins : ∀ later, ¬ Ends ('[' :: later) := by simp [Ends]
  cases bracketed with
  | @empty between inside =>
    refine ⟨begins _, ?_⟩
    intro blanks rest blank ends
    have closed : nextItem true (between ++ ']' :: rest) = .ok (.close rest) :=
      nextItem_eq_close_iff.mpr (skipBlanks_to inside (by decide) rest)
    rw [readSequence, skipBlanks_to_value blank (not_ends_append (begins _) _)]
    simp [readItems, closed, bind, Except.bind]
  | @filled _ row inside =>
    refine ⟨begins _, ?_⟩
    intro blanks rest blank ends
    have visible : ∀ piece text, Piece piece text → text ≠ [] := by
      rintro piece text piece_spelled rfl
      exact (spelled piece [] piece_spelled).begins trivial
    obtain ⟨spare, enough⟩ := inside.exists_spare visible (']' :: rest)
    have read : readItems readItem (spare + pieces.length + 1) true (row ++ ']' :: rest) =
        .ok (pieces, rest) :=
      readItems_row spelled inside spare
        (show Enters true (row ++ ']' :: rest) (row ++ ']' :: rest) from rfl)
    rw [← enough] at read
    rw [readSequence, skipBlanks_to_value blank (not_ends_append (begins _) _), bracketed_append]
    exact read

end Sequences

end Sh2Pair.Json
