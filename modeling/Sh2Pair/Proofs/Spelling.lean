import Sh2Pair.Json.Value

/-!
# How values are spelled

The texts of strings, numbers, arrays and objects, said without a reader. A value can be spelled in
many ways: blanks may stand between its pieces, and the characters of a string may be escaped. So
each kind of value has a relation between what is meant and the text.

Where nothing but the form of a value matters, its numbers may have any size, and the units in its
strings may be surrogates that stand alone.
-/

namespace Sh2Pair.Json

/-- A text of blanks. -/
def Blanks (text : List Char) : Prop := ∀ c ∈ text, c ∈ [' ', '\t', '\n', '\r']

instance (text : List Char) : Decidable (Blanks text) :=
  List.decidableBAll (fun c => c ∈ [' ', '\t', '\n', '\r']) text

/-- No text at all is a text of blanks. -/
theorem blanks_nil : Blanks [] := by
  intro c member
  cases member

/-- What may stand behind a value: nothing, a blank, a comma or a closing bracket. No value begins
like that. -/
def Ends : List Char → Prop
  | [] => True
  | c :: _ => c ∈ [' ', '\t', '\n', '\r', ',', ']', '\x7d']

section Strings

/-- A character that spells a hexadecimal digit, in either case. -/
def HexDigit (value : Nat) (c : Char) : Prop :=
  value < 16 ∧ (c = Nat.digitChar value ∨ c = (Nat.digitChar value).toUpper)

/-- Four hexadecimal digits that spell a unit of 16 bits. -/
inductive SpellsUnit : Nat → List Char → Prop where
  | digits {first second third fourth : Nat} {p q r s : Char} (atFirst : HexDigit first p)
      (atSecond : HexDigit second q) (atThird : HexDigit third r) (atFourth : HexDigit fourth s) :
      SpellsUnit (16 * (16 * (16 * first + second) + third) + fourth) [p, q, r, s]

/-- The letters of the short escapes, with the characters that they stand for. -/
def shortEscapes : List (Char × Char) := [
  ('"', '"'), ('\\', '\\'), ('/', '/'), ('b', '\x08'), ('f', '\x0c'), ('n', '\n'), ('r', '\r'),
  ('t', '\t')]

/-- A character that can stand for itself in a string. -/
def Plain (c : Char) : Prop := 32 ≤ c.toNat ∧ c ≠ '"' ∧ c ≠ '\\'

/-- Checks that all characters of a text can stand for themselves. -/
def isPlain (text : List Char) : Bool :=
  text.all fun c => decide (32 ≤ c.toNat) && c != '"' && c != '\\'

/-- A text between quotes spells a string. -/
inductive Spells : List Char → List Char → Prop where
  | nothing : Spells [] []
  | plain {c : Char} {content text : List Char} (plain : Plain c) (later : Spells content text) :
      Spells (c :: content) (c :: text)
  | short {letter meant : Char} {content text : List Char} (known : (letter, meant) ∈ shortEscapes)
      (later : Spells content text) : Spells (meant :: content) ('\\' :: letter :: text)
  | unit {value : Nat} {digits content text : List Char} (spelled : SpellsUnit value digits)
      (character : value < 0xd800 ∨ 0xdfff < value) (later : Spells content text) :
      Spells (Char.ofNat value :: content) ('\\' :: 'u' :: (digits ++ text))
  | pair {lead trail : Nat} {digits others content text : List Char}
      (spelled : SpellsUnit lead digits) (leads : 0xd800 ≤ lead ∧ lead ≤ 0xdbff)
      (trailing : SpellsUnit trail others) (trails : 0xdc00 ≤ trail ∧ trail ≤ 0xdfff)
      (later : Spells content text) :
      Spells (Char.ofNat (0x10000 + (lead - 0xd800) * 0x400 + (trail - 0xdc00)) :: content)
        ('\\' :: 'u' :: (digits ++ '\\' :: 'u' :: (others ++ text)))

/-- A text between quotes has the form of a string. -/
inductive Formed : List Char → Prop where
  | nothing : Formed []
  | plain {c : Char} {text : List Char} (plain : Plain c) (later : Formed text) : Formed (c :: text)
  | short {letter meant : Char} {text : List Char} (known : (letter, meant) ∈ shortEscapes)
      (later : Formed text) : Formed ('\\' :: letter :: text)
  | unit {value : Nat} {digits text : List Char} (spelled : SpellsUnit value digits)
      (later : Formed text) : Formed ('\\' :: 'u' :: (digits ++ text))

/-- Characters that stand for themselves spell what they are. -/
theorem spells_self {content : List Char} (plain : isPlain content = true) :
    Spells content content := by
  induction content with
  | nil => exact .nothing
  | cons c later inductionHypothesis =>
    rw [isPlain, List.all_cons, Bool.and_eq_true] at plain
    obtain ⟨first, others⟩ := plain
    simp only [Bool.and_eq_true, decide_eq_true_eq, bne_iff_ne, ne_eq] at first
    obtain ⟨⟨visible, noQuote⟩, noEscape⟩ := first
    exact .plain ⟨visible, noQuote, noEscape⟩ (inductionHypothesis others)

end Strings

section Numbers

/-- Digits, at least one of them. -/
def Digits (text : List Char) : Prop := text ≠ [] ∧ ∀ c ∈ text, c.isDigit = true

/-- The digits of a whole number, which has no leading zero. -/
def Whole (text : List Char) : Prop := text = ['0'] ∨ Digits text ∧ text.head? ≠ some '0'

/-- What spells a fraction, if anything. -/
inductive Fraction : List Char → Prop where
  | none : Fraction []
  | some {digits : List Char} (spelled : Digits digits) : Fraction ('.' :: digits)

/-- What spells an exponent, if anything. -/
inductive Exponent : List Char → Prop where
  | none : Exponent []
  | some {letter : Char} {sign digits : List Char} (known : letter = 'e' ∨ letter = 'E')
      (signed : sign = [] ∨ sign = ['+'] ∨ sign = ['-']) (spelled : Digits digits) :
      Exponent (letter :: (sign ++ digits))

/-- The text of a number. -/
inductive Number : List Char → Prop where
  | parts {sign whole fraction exponent : List Char} (signed : sign = [] ∨ sign = ['-'])
      (counted : Whole whole) (parted : Fraction fraction) (scaled : Exponent exponent) :
      Number (sign ++ (whole ++ (fraction ++ exponent)))

end Numbers

section Structures

/-- A row of pieces, with blanks around each and a comma between two of them. -/
inductive Row {α : Type} (Piece : α → List Char → Prop) : List α → List Char → Prop where
  | last {piece : α} {before text after : List Char} (begun : Blanks before)
      (spelled : Piece piece text) (ended : Blanks after) :
      Row Piece [piece] (before ++ (text ++ after))
  | more {piece : α} {pieces : List α} {before text after row : List Char} (begun : Blanks before)
      (spelled : Piece piece text) (ended : Blanks after) (later : Row Piece pieces row) :
      Row Piece (piece :: pieces) (before ++ (text ++ (after ++ ',' :: row)))

/-- A row between brackets, or nothing but blanks between them. -/
inductive Bracketed {α : Type} (opening closing : Char) (Piece : α → List Char → Prop) :
    List α → List Char → Prop where
  | empty {blanks : List Char} (inside : Blanks blanks) :
      Bracketed opening closing Piece [] (opening :: (blanks ++ [closing]))
  | filled {pieces : List α} {row : List Char} (inside : Row Piece pieces row) :
      Bracketed opening closing Piece pieces (opening :: (row ++ [closing]))

/-- What follows a text in brackets stands behind the bracket that closes. -/
theorem bracketed_append (opening closing : Char) (inside rest : List Char) :
    opening :: (inside ++ [closing]) ++ rest = opening :: (inside ++ closing :: rest) := by
  rw [List.cons_append, List.append_assoc, List.singleton_append]

/-- A member of an object: a name, a colon, and a value. -/
inductive Member (Name Value : List Char → Prop) : List Char → Prop where
  | parts {name between gap value : List Char} (named : Name name) (blanks : Blanks between)
      (blanksToo : Blanks gap) (spelled : Value value) :
      Member Name Value ('"' :: (name ++ '"' :: (between ++ ':' :: (gap ++ value))))

/-- The kinds of phrases that well-formed texts are made of. -/
inductive Phrase where
  | value
  /-- The values inside an array. -/
  | items
  /-- The members inside an object. -/
  | members

/-- A well-formed phrase, whatever it means. -/
inductive WellFormed : Phrase → List Char → Prop where
  | null : WellFormed .value ['n', 'u', 'l', 'l']
  | truth (value : Bool) : WellFormed .value (Sh2Pair.Text.truth value)
  | number {text : List Char} (spelled : Number text) : WellFormed .value text
  | string {text : List Char} (formed : Formed text) : WellFormed .value ('"' :: (text ++ ['"']))
  | emptyArray {blanks : List Char} (inside : Blanks blanks) :
      WellFormed .value ('[' :: (blanks ++ [']']))
  | array {items : List Char} (inside : WellFormed .items items) :
      WellFormed .value ('[' :: (items ++ [']']))
  | emptyObject {blanks : List Char} (inside : Blanks blanks) :
      WellFormed .value ('\x7b' :: (blanks ++ ['\x7d']))
  | object {members : List Char} (inside : WellFormed .members members) :
      WellFormed .value ('\x7b' :: (members ++ ['\x7d']))
  | lastItem {before text after : List Char} (begun : Blanks before)
      (value : WellFormed .value text) (ended : Blanks after) :
      WellFormed .items (before ++ (text ++ after))
  | item {before text after later : List Char} (begun : Blanks before)
      (value : WellFormed .value text) (ended : Blanks after)
      (others : WellFormed .items later) :
      WellFormed .items (before ++ (text ++ (after ++ ',' :: later)))
  | lastMember {before name between gap text after : List Char} (begun : Blanks before)
      (named : Formed name) (blanks : Blanks between) (blanksToo : Blanks gap)
      (value : WellFormed .value text) (ended : Blanks after) :
      WellFormed .members
        (before ++ '"' :: (name ++ '"' :: (between ++ ':' :: (gap ++ (text ++ after)))))
  | member {before name between gap text after later : List Char} (begun : Blanks before)
      (named : Formed name) (blanks : Blanks between) (blanksToo : Blanks gap)
      (value : WellFormed .value text) (ended : Blanks after)
      (others : WellFormed .members later) :
      WellFormed .members
        (before ++ '"' :: (name ++ '"' :: (between ++ ':' ::
          (gap ++ (text ++ (after ++ ',' :: later))))))

end Structures

end Sh2Pair.Json
