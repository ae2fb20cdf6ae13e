import Sh2Pair.Proofs.Spelling

/-!
# Reading strings

A text that spells a string is read as that string, up to its closing quote, and a text that only
has the form of one is passed over. Whatever can be read can be passed over, and the same text is
left.
-/

namespace Sh2Pair.Json

open Sh2Pair.Text (hexValue?)

/-- A hexadecimal digit is read as its value, in either case. -/
theorem hexValue?_of_digit {value : Nat} {c : Char} (digit : HexDigit value c) :
    hexValue? c = some value := by
  obtain ⟨less, same⟩ := digit
  have table : ∀ value < 16, hexValue? (Nat.digitChar value) = some value ∧
      hexValue? (Nat.digitChar value).toUpper = some value := by decide
  rcases same with rfl | rfl
  · exact (table value less).1
  · exact (table value less).2

/-- The letter of a short escape is read as the character that it stands for. -/
theorem shortEscape?_of_mem {letter meant : Char} (known : (letter, meant) ∈ shortEscapes) :
    Text.shortEscape? letter = some meant := by
  have table :
      (shortEscapes.all fun escape => Text.shortEscape? escape.1 == some escape.2) = true := by
    decide
  exact eq_of_beq (List.all_eq_true.mp table _ known)

/-- Four characters are four bytes, or more. -/
theorem nearEnd_of_four (p q r s : Char) (rest : List Char) :
    Text.nearEnd (p :: q :: r :: s :: rest) = false := by
  have first : 0 < p.utf8Size := p.utf8Size_pos
  have second : 0 < q.utf8Size := q.utf8Size_pos
  have third : 0 < r.utf8Size := r.utf8Size_pos
  have fourth : 0 < s.utf8Size := s.utf8Size_pos
  apply decide_eq_false
  simp only [List.take_succ_cons, List.take_zero, List.foldl_cons, List.foldl_nil]
  omega

namespace Text

/-- How the reading goes on behind a unit that is complete. -/
def behindUnit (rest : List Char) : Completed → Except Fault (List Char × List Char)
  | .character meant => prepend meant (readFrom .plain rest)
  | .lead unit => readFrom (.lead unit) rest
  | .stray => .error .malformed

/-- A digit of a unit is read, and the last one completes it. -/
theorem readFrom_digit {digit : Nat} {c : Char} (spelled : HexDigit digit c) (count value : Nat)
    (lead : Option Nat) (rest : List Char) :
    readFrom (.unit count value lead) (c :: rest) =
      if count < 3 then readFrom (.unit (count + 1) (16 * value + digit) lead) rest
      else behindUnit rest (complete (16 * value + digit) lead) := by
  rw [readFrom, hexValue?_of_digit spelled]
  rfl

/-- The four digits of a unit are read as the unit. -/
theorem readFrom_unit {value : Nat} {digits : List Char} (spelled : SpellsUnit value digits)
    (lead : Option Nat) (rest : List Char) :
    readFrom (.unit 0 0 lead) (digits ++ rest) = behindUnit rest (complete value lead) := by
  obtain ⟨first, second, third, fourth⟩ := spelled
  simp [readFrom_digit first, readFrom_digit second, readFrom_digit third, readFrom_digit fourth]

/-- The four digits of a unit are passed over. -/
theorem skipFrom_unit {value : Nat} {digits : List Char} (spelled : SpellsUnit value digits)
    (rest : List Char) : skipFrom (.unit 0) (digits ++ rest) = skipFrom .plain rest := by
  obtain ⟨first, second, third, fourth⟩ := spelled
  simp [skipFrom, hexValue?_of_digit first, hexValue?_of_digit second, hexValue?_of_digit third,
    hexValue?_of_digit fourth]

/-- In front of the four digits of a unit, the text is long enough. -/
theorem nearEnd_of_unit {value : Nat} {digits : List Char} (spelled : SpellsUnit value digits)
    (rest : List Char) : nearEnd (digits ++ rest) = false := by
  cases spelled with
  | digits => exact nearEnd_of_four ..

/-- Behind a backslash and the letter of a unit, the unit is read. -/
theorem readFrom_escape_unit {value : Nat} {digits : List Char}
    (spelled : SpellsUnit value digits) (rest : List Char) :
    readFrom .plain ('\\' :: 'u' :: (digits ++ rest)) = behindUnit rest (complete value none) := by
  rw [← readFrom_unit spelled]
  simp [readFrom, shortEscape?, nearEnd_of_unit spelled]

/-- A text that spells a string is read as that string.

Proof: by induction on the spelling. Each of its rules is one way in which the reader gets a
character. -/
theorem read_of_spells {content text : List Char} (spelled : Spells content text)
    (rest : List Char) : read (text ++ '"' :: rest) = .ok (content, rest) := by
  rw [read]
  induction spelled with
  | nothing => simp [readFrom]
  | @plain c content text plain later inductionHypothesis =>
    obtain ⟨visible, noQuote, noEscape⟩ := plain
    simp [readFrom, noQuote, noEscape, Nat.not_lt.mpr visible, inductionHypothesis, prepend]
  | short known later inductionHypothesis =>
    simp [readFrom, shortEscape?_of_mem known, inductionHypothesis, prepend]
  | @unit value digits content text spelled character later inductionHypothesis =>
    have completed : complete value none = .character (Char.ofNat value) := by
      rw [complete, if_neg (by omega), if_neg (by omega)]
    rw [List.cons_append, List.cons_append, List.append_assoc, readFrom_escape_unit spelled,
      completed, behindUnit, inductionHypothesis, prepend]
  | @pair lead trail digits others content text spelled leads trailing trails later
      inductionHypothesis =>
    have begun : complete lead none = .lead lead := by
      rw [complete, if_neg (by omega), if_pos leads]
    have completed : complete trail (some lead) =
        .character (Char.ofNat (0x10000 + (lead - 0xd800) * 0x400 + (trail - 0xdc00))) := by
      rw [complete, if_pos trails]
    have second : readFrom (.lead lead) ('\\' :: 'u' :: (others ++ (text ++ '"' :: rest))) =
        behindUnit (text ++ '"' :: rest) (complete trail (some lead)) := by
      rw [← readFrom_unit trailing]
      simp [readFrom, nearEnd_of_unit trailing]
    simp only [List.cons_append, List.append_assoc]
    rw [readFrom_escape_unit spelled, begun, behindUnit, second, completed, behindUnit,
      inductionHypothesis, prepend]

/-- A text that has the form of a string is passed over. -/
theorem skip_of_formed {text : List Char} (formed : Formed text) (rest : List Char) :
    skip (text ++ '"' :: rest) = .ok rest := by
  rw [skip]
  induction formed with
  | nothing => simp [skipFrom]
  | plain plain later inductionHypothesis =>
    obtain ⟨visible, noQuote, noEscape⟩ := plain
    simp [skipFrom, noQuote, noEscape, Nat.not_lt.mpr visible, inductionHypothesis]
  | short known later inductionHypothesis =>
    simp [skipFrom, shortEscape?_of_mem known, inductionHypothesis]
  | unit spelled later inductionHypothesis =>
    simp [skipFrom, shortEscape?, nearEnd_of_unit spelled, skipFrom_unit spelled,
      inductionHypothesis]

/-- Where the passing over a string stands when the reading stands at a place. Behind a leading
surrogate it has forgotten about it. -/
def Place.passing : Place → SkipPlace
  | .plain => .plain
  | .escape => .escape
  | .unit count _ _ => .unit count
  | .lead _ => .plain
  | .leadEscape _ => .escape

/-- A character can be put in front of a result only if there is one. -/
theorem eq_of_prepend {c : Char} {result : Except Fault (List Char × List Char)}
    {content rest : List Char} (read : prepend c result = .ok (content, rest)) :
    ∃ later, result = .ok (later, rest) := by
  cases result with
  | error fault => cases read
  | ok value =>
    obtain ⟨later, left⟩ := value
    cases read
    exact ⟨later, rfl⟩

/-- What is read from a place on can be passed over from there on.

Proof: by induction on the text. At each place, passing over branches as reading does, and where
reading fails there is nothing to show. -/
theorem skipFrom_of_readFrom {place : Place} {text content rest : List Char}
    (read : readFrom place text = .ok (content, rest)) :
    skipFrom place.passing text = .ok rest := by
  induction text generalizing place content with
  | nil => cases place <;> cases read
  | cons c text inductionHypothesis =>
    cases place with
    | plain =>
      simp only [readFrom] at read
      simp only [Place.passing, skipFrom]
      split at read
      case isTrue quote =>
        cases read
        exact if_pos quote
      case isFalse noQuote =>
        rw [if_neg noQuote]
        split at read
        case isTrue escape =>
          rw [if_pos escape]
          exact inductionHypothesis read
        case isFalse noEscape =>
          rw [if_neg noEscape]
          split at read
          case isTrue control => cases read
          case isFalse visible =>
            rw [if_neg visible]
            obtain ⟨later, read⟩ := eq_of_prepend read
            exact inductionHypothesis read
    | escape =>
      simp only [readFrom] at read
      simp only [Place.passing, skipFrom]
      cases known : shortEscape? c with
      | some meant =>
        simp only [known] at read
        obtain ⟨later, read⟩ := eq_of_prepend read
        exact inductionHypothesis read
      | none =>
        simp only [known] at read
        simp only [Option.isSome_none, Bool.false_eq_true, if_false]
        split at read
        case isFalse => cases read
        case isTrue letter =>
          rw [if_pos letter]
          split at read
          case isTrue => cases read
          case isFalse enough =>
            rw [if_neg enough]
            exact inductionHypothesis read
    | unit count value lead =>
      simp only [readFrom] at read
      simp only [Place.passing, skipFrom]
      cases digit : hexValue? c with
      | none =>
        simp only [digit] at read
        cases read
      | some digit =>
        simp only [digit] at read
        simp only [Option.isNone_some, Bool.false_eq_true, if_false]
        split at read
        case isTrue more =>
          rw [if_pos more]
          exact inductionHypothesis read
        case isFalse last =>
          rw [if_neg last]
          split at read
          case h_1 =>
            obtain ⟨later, read⟩ := eq_of_prepend read
            exact inductionHypothesis read
          case h_2 => exact inductionHypothesis read
          case h_3 => cases read
    | lead unit =>
      simp only [readFrom] at read
      simp only [Place.passing, skipFrom]
      split at read
      case isFalse => cases read
      case isTrue escape =>
        subst escape
        exact inductionHypothesis read
    | leadEscape unit =>
      simp only [readFrom] at read
      simp only [Place.passing, skipFrom]
      split at read
      case isFalse => cases read
      case isTrue letter =>
        subst letter
        split at read
        case isTrue => cases read
        case isFalse enough =>
          rw [if_neg enough]
          exact inductionHypothesis read

/-- What is read as a string can be passed over. -/
theorem skip_of_read {text content rest : List Char} (read : read text = .ok (content, rest)) :
    skip text = .ok rest :=
  skipFrom_of_readFrom read

/-- Passing over a string takes some of the text. -/
theorem skipFrom_shorter {place : SkipPlace} {text rest : List Char} :
    skipFrom place text = .ok rest → rest.length < text.length := by
  fun_induction skipFrom place text with
  | case1 | case4 | case7 | case9 | case10 => exact nofun
  | case2 =>
    rintro ⟨⟩
    exact Nat.lt_succ_self _
  | case3 | case5 | case6 | case8 | case11 | case12 =>
    rename_i inductionHypothesis
    exact fun skipped => Nat.lt_succ_of_lt (inductionHypothesis skipped)

/-- A string takes some of the text. -/
theorem skip_shorter {text rest : List Char} (skipped : skip text = .ok rest) :
    rest.length < text.length :=
  skipFrom_shorter skipped

end Text

end Sh2Pair.Json
