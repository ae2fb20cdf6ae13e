import Sh2Pair.Proofs.Numbers
import Sh2Pair.Proofs.Strings

/-!
# Passing over values

Passing over a value crosses it from its first character to whatever stands behind it, and closes
the brackets that it opens. How much text is left does not depend on the brackets around it, and the
count that bounds the passing is never used up, since each step takes a character.

So a text that is well formed is passed over as a whole, whatever it says.
-/

namespace Sh2Pair.Json

section Blanks

/-- The blanks are the space, the tabulator and the two ends of lines. -/
theorem blank_iff (c : Char) : blank c = true ↔ c ∈ [' ', '\t', '\n', '\r'] := by
  simp [blank, or_assoc]

/-- Blanks in front of a text are skipped. -/
theorem skipBlanks_append {blanks : List Char} (inside : Blanks blanks) (text : List Char) :
    skipBlanks (blanks ++ text) = skipBlanks text := by
  induction blanks with
  | nil => rfl
  | cons c later inductionHypothesis =>
    have first : blank c = true := (blank_iff c).mpr (inside c List.mem_cons_self)
    have others : Blanks later := fun other member => inside other (List.mem_cons_of_mem c member)
    rw [List.cons_append, skipBlanks, if_pos first, inductionHypothesis others]

/-- A text that begins with no blank is left as it is. -/
theorem skipBlanks_cons {c : Char} (visible : c ∉ [' ', '\t', '\n', '\r']) (text : List Char) :
    skipBlanks (c :: text) = c :: text := by
  rw [skipBlanks, if_neg]
  exact (blank_iff c).not.mpr visible

/-- Blanks are skipped up to the first other character. -/
theorem skipBlanks_to {blanks : List Char} (inside : Blanks blanks) {c : Char}
    (visible : c ∉ [' ', '\t', '\n', '\r']) (text : List Char) :
    skipBlanks (blanks ++ c :: text) = c :: text := by
  rw [skipBlanks_append inside, skipBlanks_cons visible]

/-- What begins like a value does so whatever follows. -/
theorem not_ends_append {text : List Char} (begins : ¬ Ends text) (rest : List Char) :
    ¬ Ends (text ++ rest) := by
  cases text with
  | nil => exact absurd trivial begins
  | cons c text => exact begins

/-- What begins a value is no blank. -/
theorem skipBlanks_to_value {blanks text : List Char} (inside : Blanks blanks)
    (begins : ¬ Ends text) : skipBlanks (blanks ++ text) = text := by
  cases text with
  | nil => exact absurd trivial begins
  | cons c text =>
    apply skipBlanks_to inside
    intro member
    apply begins
    simp only [Ends, List.mem_cons, List.not_mem_nil, or_false] at member ⊢
    tauto

/-- Blanks in front change nothing about what may stand behind a value. -/
theorem ends_append {blanks rest : List Char} (inside : Blanks blanks) (ends : Ends rest) :
    Ends (blanks ++ rest) := by
  cases blanks with
  | nil => exact ends
  | cons c blanks =>
    have among : ∀ c ∈ [' ', '\t', '\n', '\r'], Ends [c] := by simp [Ends]
    exact among c (inside c List.mem_cons_self)

/-- Behind the blanks, there are no more blanks. -/
theorem skipBlanks_skipBlanks (text : List Char) :
    skipBlanks (skipBlanks text) = skipBlanks text := by
  induction text with
  | nil => rfl
  | cons c text inductionHypothesis =>
    rw [skipBlanks]
    split
    · exact inductionHypothesis
    · next visible => rw [skipBlanks, if_neg visible]

/-- Skipping blanks leaves no more than there was. -/
theorem length_skipBlanks_le (text : List Char) : (skipBlanks text).length ≤ text.length := by
  induction text with
  | nil => exact Nat.le_refl _
  | cons c text inductionHypothesis =>
    rw [skipBlanks]
    split
    · exact Nat.le_succ_of_le inductionHypothesis
    · exact Nat.le_refl _

/-- What stands behind the first visible character is shorter than the text. -/
theorem length_lt_of_skipBlanks {text : List Char} {c : Char} {rest : List Char}
    (seen : skipBlanks text = c :: rest) : rest.length < text.length := by
  have fits : (skipBlanks text).length ≤ text.length := length_skipBlanks_le text
  rw [seen] at fits
  exact fits

end Blanks

section Openings

variable {text rest : List Char}

/-- Something other than a closing bracket comes next. -/
def Opens (closing : Char) (text : List Char) : Prop :=
  ∃ c later, skipBlanks text = c :: later ∧ c ≠ closing

/-- In front of a value, something other than a closing bracket comes next. -/
theorem opens_of_not_ends {before : List Char} (begun : Blanks before) (begins : ¬ Ends text) :
    Opens ']' (before ++ text) := by
  rw [Opens, skipBlanks_to_value begun begins]
  cases text with
  | nil => exact absurd trivial begins
  | cons c text =>
    refine ⟨c, text, rfl, ?_⟩
    rintro rfl
    exact begins (by simp [Ends])

/-- Something other than a bracket comes next if there is something, and it is not the bracket. -/
theorem opens_of_ne {closing : Char} (filled : skipBlanks text = [] → False)
    (more : ∀ later, skipBlanks text = closing :: later → False) : Opens closing text := by
  cases seen : skipBlanks text with
  | nil => exact absurd seen filled
  | cons c later =>
    refine ⟨c, later, seen, ?_⟩
    rintro rfl
    exact more later seen

/-- Blanks in front of a name make no difference. -/
theorem skipName_skipBlanks (text : List Char) : skipName (skipBlanks text) = skipName text := by
  rw [skipName, skipName, skipBlanks_skipBlanks]

/-- A name that is passed over stands between quotes, and a colon follows. -/
theorem skipName_eq_ok_iff {value : List Char} :
    skipName text = .ok value ↔ ∃ name behind, skipBlanks text = '"' :: name ∧
      Text.skip name = .ok behind ∧ skipBlanks behind = ':' :: value := by
  constructor
  · fun_cases skipName text with
    | case1 | case3 => exact nofun
    | case2 name quoted =>
      intro read
      obtain ⟨behind, skipped, coloned⟩ := bind_eq_ok_iff.mp read
      revert coloned
      fun_cases colon behind with
      | case1 | case3 => exact nofun
      | case2 value same =>
        rintro ⟨⟩
        exact ⟨name, behind, quoted, skipped, same⟩
  · rintro ⟨name, behind, quoted, skipped, coloned⟩
    simp [skipName, quoted, skipped, colon, coloned, bind, Except.bind]

/-- Passing over a name takes some of the text. -/
theorem skipName_shorter {value : List Char} (named : skipName text = .ok value) :
    value.length < (skipBlanks text).length := by
  obtain ⟨name, behind, quoted, skipped, coloned⟩ := skipName_eq_ok_iff.mp named
  have shorter : behind.length < name.length := Text.skip_shorter skipped
  have later : value.length < behind.length := length_lt_of_skipBlanks coloned
  rw [quoted, List.length_cons]
  omega

/-- A word that is read stands in front of the rest. -/
theorem eq_of_word {wanted : List Char} (read : word wanted text = .ok rest) :
    text = wanted ++ rest := by
  induction wanted generalizing text with
  | nil =>
    cases read
    rfl
  | cons c wanted inductionHypothesis =>
    cases text with
    | nil => cases read
    | cons found text =>
      rw [word] at read
      split at read
      case isTrue same => rw [same, inductionHypothesis read, List.cons_append]
      case isFalse => cases read

/-- A number that is passed over can be read. -/
theorem read_of_skipNumber (skipped : skipNumber text = .ok rest) :
    ∃ numeral, Numeral.read text = .ok (numeral, rest) := by
  revert skipped
  fun_cases skipNumber text with
  | case1 numeral _ read =>
    rintro ⟨⟩
    exact ⟨numeral, read⟩
  | case2 => exact nofun

/-- A number begins with a minus sign or with a digit. -/
theorem beginsNumber_iff {c : Char} :
    (c = '-' || (Sh2Pair.Text.digitValue? c).isSome) = true ↔ c = '-' ∨ c.isDigit = true := by
  rw [digitValue?_eq]
  cases c.isDigit <;> simp

/-- No number begins with a character that is neither a minus sign nor a digit. -/
theorem not_beginsNumber {others : List Char}
    (apart : (others.all fun c => c != '-' && !c.isDigit) = true)
    {c : Char} (member : c ∈ others) : ¬ (c = '-' ∨ c.isDigit = true) := by
  have different : (c != '-' && !c.isDigit) = true := List.all_eq_true.mp apart c member
  simp only [Bool.and_eq_true, bne_iff_ne, Bool.not_eq_true'] at different
  rintro (minus | digit)
  · exact different.1 minus
  · rw [different.2] at digit
    cases digit

end Openings

/-- One step of passing over a value, from a point in a text with some brackets open to the next. -/
inductive SkipStep : SkipPoint → List Bracket → List Char → SkipPoint → List Bracket → List Char →
    Prop where
  | null {stack : List Bracket} {text rest : List Char}
      (seen : skipBlanks text = ['n', 'u', 'l', 'l'] ++ rest) :
      SkipStep .value stack text .behind stack rest
  | truth {stack : List Bracket} {text rest : List Char} (value : Bool)
      (seen : skipBlanks text = Sh2Pair.Text.truth value ++ rest) :
      SkipStep .value stack text .behind stack rest
  | string {stack : List Bracket} {text later rest : List Char}
      (seen : skipBlanks text = '"' :: later) (skipped : Text.skip later = .ok rest) :
      SkipStep .value stack text .behind stack rest
  | number {stack : List Bracket} {text later rest : List Char} {c : Char} {numeral : Numeral}
      (seen : skipBlanks text = c :: later) (begins : c = '-' ∨ c.isDigit = true)
      (read : Numeral.read (c :: later) = .ok (numeral, rest)) :
      SkipStep .value stack text .behind stack rest
  | emptyArray {stack : List Bracket} {text later rest : List Char}
      (seen : skipBlanks text = '[' :: later) (closed : skipBlanks later = ']' :: rest) :
      SkipStep .value stack text .behind stack rest
  | emptyObject {stack : List Bracket} {text later rest : List Char}
      (seen : skipBlanks text = '\x7b' :: later) (closed : skipBlanks later = '\x7d' :: rest) :
      SkipStep .value stack text .behind stack rest
  | openArray {stack : List Bracket} {text later : List Char}
      (seen : skipBlanks text = '[' :: later) (opens : Opens ']' later) :
      SkipStep .value stack text .value (.array :: stack) (skipBlanks later)
  | openObject {stack : List Bracket} {text later value : List Char}
      (seen : skipBlanks text = '\x7b' :: later) (named : skipName later = .ok value) :
      SkipStep .value stack text .value (.object :: stack) value
  | nextItem {stack : List Bracket} {text later : List Char}
      (seen : skipBlanks text = ',' :: later) :
      SkipStep .behind (.array :: stack) text .value (.array :: stack) later
  | nextMember {stack : List Bracket} {text later value : List Char}
      (seen : skipBlanks text = ',' :: later) (named : skipName later = .ok value) :
      SkipStep .behind (.object :: stack) text .value (.object :: stack) value
  | closeArray {stack : List Bracket} {text rest : List Char}
      (seen : skipBlanks text = ']' :: rest) :
      SkipStep .behind (.array :: stack) text .behind stack rest
  | closeObject {stack : List Bracket} {text rest : List Char}
      (seen : skipBlanks text = '\x7d' :: rest) :
      SkipStep .behind (.object :: stack) text .behind stack rest

namespace SkipStep

variable {point pointAfter : SkipPoint} {stack stackAfter : List Bracket} {text middle : List Char}

/-- What opens no number. -/
theorem visible_of_begins {c : Char} (begins : c = '-' ∨ c.isDigit = true) :
    c ≠ 'n' ∧ c ≠ 't' ∧ c ≠ 'f' ∧ c ≠ '"' ∧ c ≠ '[' ∧ c ≠ '\x7b' := by
  have apart : ∀ other ∈ ['n', 't', 'f', '"', '[', '\x7b'], c ≠ other := by
    rintro other member rfl
    exact not_beginsNumber (by decide) member begins
  simpa using apart

/-- The passing takes the step.

Proof: one case per step. Each is what the function does at that point of the text. -/
theorem skipOn_eq (step : SkipStep point stack text pointAfter stackAfter middle) (bound : Nat) :
    skipOn (bound + 1) point stack text = skipOn bound pointAfter stackAfter middle := by
  cases step with
  | null seen => simp [skipOn, seen, word, bind, Except.bind]
  | truth value seen =>
    cases value <;> simp [skipOn, seen, Sh2Pair.Text.truth, word, bind, Except.bind]
  | string seen skipped => simp [skipOn, seen, skipped, bind, Except.bind]
  | @number _ _ _ _ c _ seen begins read =>
    have visible : c ≠ 'n' ∧ c ≠ 't' ∧ c ≠ 'f' ∧ c ≠ '"' ∧ c ≠ '[' ∧ c ≠ '\x7b' :=
      visible_of_begins begins
    have spells : (c = '-' || (Sh2Pair.Text.digitValue? c).isSome) = true :=
      beginsNumber_iff.mpr begins
    rw [Bool.or_eq_true, decide_eq_true_iff] at spells
    simp [skipOn, seen, visible, spells, skipNumber, read, bind, Except.bind]
  | emptyArray seen closed | emptyObject seen closed => simp [skipOn, seen, closed]
  | openArray seen opens =>
    obtain ⟨c, items, first, more⟩ := opens
    simp [skipOn, seen, first, more]
  | openObject seen named =>
    obtain ⟨name, _, quoted, _⟩ := skipName_eq_ok_iff.mp named
    rw [← skipName_skipBlanks, quoted] at named
    simp [skipOn, seen, quoted, named, bind, Except.bind]
  | nextItem seen | closeArray seen | closeObject seen => simp [skipOn, seen]
  | nextMember seen named => simp [skipOn, seen, named, bind, Except.bind]

/-- A step takes some of the text.

Proof: one case per step. Each takes a word, a string, a number, a name or a single character. -/
theorem shorter (step : SkipStep point stack text pointAfter stackAfter middle) :
    middle.length < (skipBlanks text).length := by
  cases step with
  | null seen =>
    rw [seen, List.length_append]
    exact Nat.lt_add_of_pos_left (by decide)
  | truth value seen =>
    rw [seen, List.length_append]
    cases value <;> exact Nat.lt_add_of_pos_left (by decide)
  | string seen skipped =>
    rw [seen]
    exact Nat.lt_succ_of_lt (Text.skip_shorter skipped)
  | number seen begins read =>
    rw [seen]
    exact Numeral.read_shorter read
  | emptyArray seen closed | emptyObject seen closed =>
    rw [seen]
    exact Nat.lt_succ_of_lt (length_lt_of_skipBlanks closed)
  | openArray seen opens =>
    rw [seen]
    exact Nat.lt_succ_of_le (length_skipBlanks_le _)
  | @openObject _ _ later _ seen named | @nextMember _ _ later _ seen named =>
    have fits : (skipBlanks later).length ≤ later.length := length_skipBlanks_le later
    rw [seen]
    exact Nat.lt_succ_of_lt (Nat.lt_of_lt_of_le (skipName_shorter named) fits)
  | nextItem seen | closeArray seen | closeObject seen =>
    rw [seen]
    exact Nat.lt_succ_self _

/-- Blanks in front of the text do not matter. -/
theorem of_skipBlanks {other : List Char} (same : skipBlanks text = skipBlanks other)
    (step : SkipStep point stack other pointAfter stackAfter middle) :
    SkipStep point stack text pointAfter stackAfter middle := by
  cases step with
  | null seen => exact .null (same.trans seen)
  | truth value seen => exact .truth value (same.trans seen)
  | string seen skipped => exact .string (same.trans seen) skipped
  | number seen begins read => exact .number (same.trans seen) begins read
  | emptyArray seen closed => exact .emptyArray (same.trans seen) closed
  | emptyObject seen closed => exact .emptyObject (same.trans seen) closed
  | openArray seen opens => exact .openArray (same.trans seen) opens
  | openObject seen named => exact .openObject (same.trans seen) named
  | nextItem seen => exact .nextItem (same.trans seen)
  | nextMember seen named => exact .nextMember (same.trans seen) named
  | closeArray seen => exact .closeArray (same.trans seen)
  | closeObject seen => exact .closeObject (same.trans seen)

/-- More open brackets around do not matter either. -/
theorem around (step : SkipStep point stack text pointAfter stackAfter middle)
    (outer : List Bracket) :
    SkipStep point (stack ++ outer) text pointAfter (stackAfter ++ outer) middle := by
  cases step with
  | null seen => exact .null seen
  | truth value seen => exact .truth value seen
  | string seen skipped => exact .string seen skipped
  | number seen begins read => exact .number seen begins read
  | emptyArray seen closed => exact .emptyArray seen closed
  | emptyObject seen closed => exact .emptyObject seen closed
  | openArray seen opens => exact .openArray seen opens
  | openObject seen named => exact .openObject seen named
  | nextItem seen => exact .nextItem seen
  | nextMember seen named => exact .nextMember seen named
  | closeArray seen => exact .closeArray seen
  | closeObject seen => exact .closeObject seen

/-- If the passing comes to its end, it has nothing left to do or takes a step.

Proof: by the cases of the function. Of those that succeed, one is at the end and each of the others
is a step. -/
theorem of_skipOn {bound : Nat} {rest : List Char} :
    skipOn bound point stack text = .ok rest → point = .behind ∧ stack = [] ∧ text = rest ∨
      ∃ fewer pointAfter stackAfter middle, bound = fewer + 1 ∧
        SkipStep point stack text pointAfter stackAfter middle ∧
        skipOn fewer pointAfter stackAfter middle = .ok rest := by
  fun_cases skipOn bound point stack text with
  | case1 | case2 | case7 | case10 | case14 | case16 | case21 => exact nofun
  | case3 bound _ _ later seen =>
    intro skipped
    obtain ⟨left, read, skipped⟩ := bind_eq_ok_iff.mp skipped
    exact .inr ⟨bound, _, _, left, rfl, .null (seen.trans (congrArg _ (eq_of_word read))), skipped⟩
  | case4 bound _ _ later seen =>
    intro skipped
    obtain ⟨left, read, skipped⟩ := bind_eq_ok_iff.mp skipped
    exact .inr
      ⟨bound, _, _, left, rfl, .truth true (seen.trans (congrArg _ (eq_of_word read))), skipped⟩
  | case5 bound _ _ later seen =>
    intro skipped
    obtain ⟨left, read, skipped⟩ := bind_eq_ok_iff.mp skipped
    exact .inr
      ⟨bound, _, _, left, rfl, .truth false (seen.trans (congrArg _ (eq_of_word read))), skipped⟩
  | case6 bound _ _ later seen =>
    intro skipped
    obtain ⟨left, read, skipped⟩ := bind_eq_ok_iff.mp skipped
    exact .inr ⟨bound, _, _, left, rfl, .string seen read, skipped⟩
  | case8 bound _ _ later seen left closed =>
    intro skipped
    exact .inr ⟨bound, _, _, left, rfl, .emptyArray seen closed, skipped⟩
  | case9 bound _ _ later seen filled more =>
    intro skipped
    exact .inr ⟨bound, _, _, _, rfl, .openArray seen (opens_of_ne filled more), skipped⟩
  | case11 bound _ _ later seen left closed =>
    intro skipped
    exact .inr ⟨bound, _, _, left, rfl, .emptyObject seen closed, skipped⟩
  | case12 bound _ _ later seen filled more =>
    intro skipped
    obtain ⟨value, named, skipped⟩ := bind_eq_ok_iff.mp skipped
    rw [skipName_skipBlanks] at named
    exact .inr ⟨bound, _, _, value, rfl, .openObject seen named, skipped⟩
  | case13 bound _ _ c later _ _ _ _ _ _ seen begins =>
    intro skipped
    obtain ⟨left, number, skipped⟩ := bind_eq_ok_iff.mp skipped
    obtain ⟨numeral, read⟩ := read_of_skipNumber number
    exact .inr ⟨bound, _, _, left, rfl, .number seen (beginsNumber_iff.mp begins) read, skipped⟩
  | case15 bound =>
    rintro ⟨⟩
    exact .inl ⟨rfl, rfl, rfl⟩
  | case17 bound stack _ later seen =>
    intro skipped
    exact .inr ⟨bound, _, _, later, rfl, .nextItem seen, skipped⟩
  | case18 bound stack _ later seen =>
    intro skipped
    obtain ⟨value, named, skipped⟩ := bind_eq_ok_iff.mp skipped
    exact .inr ⟨bound, _, _, value, rfl, .nextMember seen named, skipped⟩
  | case19 bound stack _ later seen =>
    intro skipped
    exact .inr ⟨bound, _, _, later, rfl, .closeArray seen, skipped⟩
  | case20 bound stack _ later seen =>
    intro skipped
    exact .inr ⟨bound, _, _, later, rfl, .closeObject seen, skipped⟩

end SkipStep

/-- The passing goes from a point in a text, with some brackets open, to the rest of the text behind
the bracket that closes last. -/
inductive Crosses : SkipPoint → List Bracket → List Char → List Char → Prop where
  | last {point : SkipPoint} {inner : List Bracket} {text rest : List Char}
      (step : SkipStep point inner text .behind [] rest) : Crosses point inner text rest
  | more {point pointAfter : SkipPoint} {inner innerAfter : List Bracket}
      {text middle rest : List Char} (step : SkipStep point inner text pointAfter innerAfter middle)
      (later : Crosses pointAfter innerAfter middle rest) : Crosses point inner text rest

namespace Crosses

variable {point : SkipPoint} {inner around : List Bracket} {text middle rest : List Char}

/-- Some brackets are closed, and then those around them. -/
theorem andThen (first : Crosses point inner text middle)
    (later : Crosses .behind around middle rest) : Crosses point (inner ++ around) text rest := by
  induction first with
  | last step => exact .more (step.around around) later
  | more step _ inductionHypothesis => exact .more (step.around around) (inductionHypothesis later)

/-- A crossing does not depend on the blanks in front of it. -/
theorem of_skipBlanks {other : List Char} (same : skipBlanks text = skipBlanks other)
    (crosses : Crosses point inner other rest) : Crosses point inner text rest := by
  cases crosses with
  | last step => exact .last (step.of_skipBlanks same)
  | more step later => exact .more (step.of_skipBlanks same) later

/-- The passing takes no more steps than there are characters. -/
theorem skipOn_eq (crosses : Crosses point inner text rest) :
    ∃ cost, cost + rest.length ≤ (skipBlanks text).length ∧
      ∀ bound, skipOn (bound + cost) point inner text = skipOn bound .behind [] rest := by
  induction crosses with
  | last step =>
    have shorter := step.shorter
    exact ⟨1, by omega, step.skipOn_eq⟩
  | @more _ _ _ _ _ middle _ step _ inductionHypothesis =>
    obtain ⟨cost, fits, skips⟩ := inductionHypothesis
    have shorter := step.shorter
    have smaller : (skipBlanks middle).length ≤ middle.length := length_skipBlanks_le middle
    refine ⟨cost + 1, by omega, ?_⟩
    intro bound
    rw [← skips, ← step.skipOn_eq]
    rfl

/-- A value that is crossed is passed over. -/
theorem skipValue (crosses : Crosses .value [] text rest) : skipValue text = .ok rest := by
  obtain ⟨cost, fits, skips⟩ := crosses.skipOn_eq
  have smaller : (skipBlanks text).length ≤ text.length := length_skipBlanks_le text
  have enough : text.length + 2 = (text.length + 1 - cost) + 1 + cost := by omega
  rw [Json.skipValue, enough, skips]
  rfl

/-- There is only one way to cross a value. -/
theorem unique {other : List Char} (crosses : Crosses .value [] text rest)
    (crossesToo : Crosses .value [] text other) : rest = other := by
  have same : Except.ok rest = Except.ok other := crosses.skipValue.symm.trans crossesToo.skipValue
  cases same
  rfl

/-- What is passed over was crossed. Behind the last bracket nothing is left to do. -/
theorem of_skipOn {bound : Nat} (skipped : skipOn bound point inner text = .ok rest) :
    point = .behind ∧ inner = [] ∧ text = rest ∨ Crosses point inner text rest := by
  induction bound generalizing point inner text with
  | zero => cases skipped
  | succ bound inductionHypothesis =>
    rcases SkipStep.of_skipOn skipped with done | ⟨_, _, _, _, same, step, later⟩
    · exact .inl done
    · cases same
      rcases inductionHypothesis later with ⟨rfl, rfl, rfl⟩ | crosses
      · exact .inr (.last step)
      · exact .inr (.more step crosses)

/-- A value is crossed if and only if it is passed over. -/
theorem iff_skipValue : Crosses .value [] text rest ↔ Json.skipValue text = .ok rest := by
  refine ⟨skipValue, ?_⟩
  intro skipped
  rcases of_skipOn skipped with ⟨wrong, _⟩ | crosses
  · cases wrong
  · exact crosses

/-- An array is crossed from inside. -/
theorem array {later : List Char} (seen : skipBlanks text = '[' :: later) (opens : Opens ']' later)
    (inside : Crosses .value (.array :: inner) later rest) : Crosses .value inner text rest :=
  .more (.openArray seen opens) (inside.of_skipBlanks (skipBlanks_skipBlanks later))

end Crosses

section Grammar

variable {text : List Char}

/-- What can be said about the texts of a kind of phrase: they are crossed, up to the bracket that
closes behind them. -/
def Passed : Phrase → List Char → Prop
  | .value, text => ∀ rest, Ends rest → Crosses .value [] (text ++ rest) rest
  | .items, text => ∀ rest,
    Opens ']' (text ++ ']' :: rest) ∧ Crosses .value [.array] (text ++ ']' :: rest) rest
  | .members, text => ∀ rest, ∃ value,
    skipName (text ++ '\x7d' :: rest) = .ok value ∧ Crosses .value [.object] value rest

/-- A value begins with something visible. -/
theorem not_ends_of_wellFormed (value : WellFormed .value text) : ¬ Ends text := by
  cases value with
  | null | string | emptyArray | array | emptyObject | object => simp [Ends]
  | truth value => cases value <;> simp [Ends, Sh2Pair.Text.truth]
  | number spelled =>
    obtain ⟨c, later, rfl, begins⟩ := Numeral.head_of_number spelled
    exact fun member => not_beginsNumber (by decide) member begins

/-- A value with blanks around it is crossed, and what follows inside a bracket. -/
theorem Crosses.between {before after behind rest : List Char} {bracket : Bracket}
    (begun : Blanks before) (value : Passed .value text) (ended : Blanks after)
    (ends : Ends behind) (later : Crosses .behind [bracket] behind rest) :
    Crosses .value [bracket] (before ++ (text ++ (after ++ behind))) rest := by
  have crosses : Crosses .value [] (text ++ (after ++ behind)) (after ++ behind) :=
    value _ (ends_append ended ends)
  have onwards : Crosses .behind [bracket] (after ++ behind) rest :=
    later.of_skipBlanks (skipBlanks_append ended behind)
  exact .of_skipBlanks (skipBlanks_append begun _) (crosses.andThen onwards)

/-- A name in front of a value is passed over. -/
theorem skipName_of_formed {before name between : List Char} (begun : Blanks before)
    (named : Formed name) (blanks : Blanks between) (value : List Char) :
    skipName (before ++ '"' :: (name ++ '"' :: (between ++ ':' :: value))) = .ok value := by
  refine skipName_eq_ok_iff.mpr
    ⟨_, between ++ ':' :: value, ?_, Text.skip_of_formed named _, ?_⟩
  · exact skipBlanks_to begun (by decide) _
  · exact skipBlanks_to blanks (by decide) _

/-- A well-formed phrase is crossed.

Proof: by induction on the form of the phrase. A composite phrase is opened, each of its parts is
crossed, and it is closed. -/
theorem passed_of_wellFormed {phrase : Phrase} (formed : WellFormed phrase text) :
    Passed phrase text := by
  induction formed with
  | null =>
    intro rest ends
    exact .last (.null rfl)
  | truth value =>
    intro rest ends
    refine .last (.truth value ?_)
    cases value <;> rfl
  | @number text spelled =>
    intro rest ends
    obtain ⟨numeral, read⟩ := Numeral.read_of_number spelled ends
    have begins : ¬ Ends (text ++ rest) :=
      not_ends_append (not_ends_of_wellFormed (.number spelled)) rest
    have seen : skipBlanks ([] ++ (text ++ rest)) = text ++ rest :=
      skipBlanks_to_value blanks_nil begins
    obtain ⟨c, later, rfl, digit⟩ := Numeral.head_of_number spelled
    exact .last (.number seen digit read)
  | string formed =>
    intro rest ends
    refine .last (.string rfl ?_)
    simpa using Text.skip_of_formed formed rest
  | emptyArray inside =>
    intro rest ends
    refine .last (.emptyArray rfl ?_)
    simp [skipBlanks_append inside, skipBlanks, blank]
  | array inside inductionHypothesis =>
    intro rest ends
    obtain ⟨opens, crosses⟩ := inductionHypothesis rest
    rw [bracketed_append]
    exact .array rfl opens crosses
  | emptyObject inside =>
    intro rest ends
    refine .last (.emptyObject rfl ?_)
    simp [skipBlanks_append inside, skipBlanks, blank]
  | object inside inductionHypothesis =>
    intro rest ends
    obtain ⟨value, named, crosses⟩ := inductionHypothesis rest
    rw [bracketed_append]
    exact .more (.openObject rfl named) crosses
  | lastItem begun value ended inductionHypothesis =>
    intro rest
    simp only [List.append_assoc]
    constructor
    · exact opens_of_not_ends begun (not_ends_append (not_ends_of_wellFormed value) _)
    · exact .between begun inductionHypothesis ended (by simp [Ends]) (.last (.closeArray rfl))
  | item begun value ended others inductionHypothesis othersHypothesis =>
    intro rest
    obtain ⟨_, crosses⟩ := othersHypothesis rest
    simp only [List.append_assoc, List.cons_append]
    constructor
    · exact opens_of_not_ends begun (not_ends_append (not_ends_of_wellFormed value) _)
    · exact .between begun inductionHypothesis ended (by simp [Ends])
        (.more (.nextItem rfl) crosses)
  | lastMember begun named blanks blanksToo value ended inductionHypothesis =>
    intro rest
    simp only [List.append_assoc, List.cons_append]
    refine ⟨_, skipName_of_formed begun named blanks _, ?_⟩
    exact .between blanksToo inductionHypothesis ended (by simp [Ends]) (.last (.closeObject rfl))
  | member begun named blanks blanksToo value ended others inductionHypothesis othersHypothesis =>
    intro rest
    obtain ⟨next, name, crosses⟩ := othersHypothesis rest
    simp only [List.append_assoc, List.cons_append]
    refine ⟨_, skipName_of_formed begun named blanks _, ?_⟩
    exact .between blanksToo inductionHypothesis ended (by simp [Ends])
      (.more (.nextMember rfl name) crosses)

/-- A well-formed value is crossed, up to what stands behind it. -/
theorem crosses_of_wellFormed (value : WellFormed .value text) {rest : List Char}
    (ends : Ends rest) : Crosses .value [] (text ++ rest) rest :=
  passed_of_wellFormed value rest ends

end Grammar

end Sh2Pair.Json
