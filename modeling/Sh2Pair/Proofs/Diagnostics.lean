import Mathlib.Data.List.Sort
import Sh2Pair.Hub.Basic
import Sh2Pair.Proofs.Legible
import Sh2Pair.Proofs.NameOrder

/-!
# Names in diagnostics

Names are arbitrary texts, and the diagnostics that show them put them in quotes. No name can be
taken for another one, nor for a piece of the text around it: the written form of each character can
be read back, and none begins with a quote, so the first quote that no written form has used up is
the end of the name. In a list, what follows a name tells whether another one comes.
-/

namespace Sh2Pair

namespace Text

section Quotes

/-- Reads one character in its written form, and what stands behind it. -/
def readEscape : List Char → Option (Char × List Char)
  | [] => none
  | '\\' :: 'u' :: '\x7b' :: later =>
    some (Char.ofNat (spelled 16 (later.takeWhile isHexDigit)),
      (later.dropWhile isHexDigit).tail)
  | '\\' :: '0' :: later => some ('\x00', later)
  | '\\' :: 't' :: later => some ('\t', later)
  | '\\' :: 'r' :: later => some ('\r', later)
  | '\\' :: 'n' :: later => some ('\n', later)
  | '\\' :: c :: later => some (c, later)
  | c :: later => some (c, later)

variable {rest other : List Char}

/-- A code point is read up to the brace behind it. -/
theorem readEscape_codePoint (c : Char) :
    readEscape (['\\', 'u', '\x7b'] ++ hex c.toNat ++ ['\x7d'] ++ rest) = some (c, rest) := by
  have digits : ∀ d ∈ hex c.toNat, isHexDigit d = true :=
    fun d inside => isHexDigit_of_mem_toDigits (by decide) (by decide) inside
  have brace : isHexDigit '\x7d' ≠ true := by decide
  simp only [List.append_assoc, List.cons_append, List.nil_append, readEscape]
  rw [List.takeWhile_append_of_pos digits, List.dropWhile_append_of_pos digits,
    List.takeWhile_cons_of_neg brace, List.dropWhile_cons_of_neg brace, List.append_nil,
    List.tail_cons, hex, spelled_toDigits (by decide) (by decide), Char.ofNat_toNat]

/-- A character that is no backslash is read as itself. -/
theorem readEscape_plain {c : Char} (differs : c ≠ '\\') :
    readEscape (c :: rest) = some (c, rest) := by
  unfold readEscape
  split <;> simp_all

/-- A character is read back from its written form, whatever follows. -/
theorem readEscape_escape (c : Char) : readEscape (escape c ++ rest) = some (c, rest) := by
  unfold escape
  split_ifs with null tab back line slash quote plain hidden
  · rw [null]; rfl
  · rw [tab]; rfl
  · rw [back]; rfl
  · rw [line]; rfl
  · rw [slash]; rfl
  · rw [quote]; rfl
  · exact readEscape_plain slash
  · exact readEscape_codePoint c
  · exact readEscape_plain slash

/-- From an escaped character, both the character and what follows it can be told. -/
theorem escape_append_inj {c d : Char} :
    escape c ++ rest = escape d ++ other ↔ c = d ∧ rest = other := by
  refine ⟨fun same => ?_, fun ⟨same, rests⟩ => by rw [same, rests]⟩
  have read : readEscape (escape c ++ rest) = readEscape (escape d ++ other) :=
    congrArg readEscape same
  rw [readEscape_escape, readEscape_escape] at read
  exact Prod.mk.inj (Option.some.inj read)

/-- No written form begins with a quote. -/
theorem escape_append_ne_quote (c : Char) : escape c ++ rest ≠ '"' :: other := by
  unfold escape
  split_ifs with null tab back line slash quote plain hidden <;> simp_all

/-- The quote that ends a text in quotes can be found, so the text can be read back. The induction
reads both texts together, one character at a time. -/
theorem quoted_append_inj {left right : List Char} :
    quoted left ++ rest = quoted right ++ other ↔ left = right ∧ rest = other := by
  simp only [quoted, List.cons_append, List.append_assoc, List.nil_append, List.cons.injEq,
    true_and]
  induction left generalizing right with
  | nil =>
    cases right with
    | nil => simp
    | cons d others =>
      simp [(escape_append_ne_quote d).symm]
  | cons c later inductionHypothesis =>
    cases right with
    | nil => simp [escape_append_ne_quote c]
    | cons d others =>
      rw [List.flatMap_cons, List.flatMap_cons, List.append_assoc, List.append_assoc,
        escape_append_inj, inductionHypothesis, List.cons.injEq, and_assoc]

end Quotes

end Text

open Text

/-- The message of a refused registration tells the processor and the name. -/
theorem Duplicate.message_inj {left right : Duplicate} :
    left.message = right.message ↔ left.cpu = right.cpu ∧ left.name = right.name := by
  unfold message
  rw [← List.append_nil left.cpu.name.toList, ← List.append_nil right.cpu.name.toList]
  simp only [List.append_assoc, List.append_cancel_left_eq, quoted_append_inj, cpuName_append_inj,
    and_true]
  rw [String.toList_inj, and_comm]

/-- Two rosters list the same names if and only if the same names are in use. -/
theorem Roster.names_inj {left right : Roster} :
    left.names = right.names ↔ ∀ name, left.has name = right.has name := by
  have irreflexive : Std.Irrefl fun left right : String => nameBytes left < nameBytes right :=
    ⟨fun _ => List.lt_irrefl _⟩
  have antisymmetric : Std.Antisymm fun left right : String => nameBytes left < nameBytes right :=
    ⟨fun _ _ less greater => absurd greater (List.lt_asymm less)⟩
  constructor
  · intro same name
    rw [Bool.eq_iff_iff, ← mem_names_iff, ← mem_names_iff, same]
  · intro same
    refine left.pairwise_names.eq_of_mem_iff right.pairwise_names fun name => ?_
    rw [mem_names_iff, mem_names_iff, same]

namespace Registry

/-- The outline of a list of names. -/
def namesOutline (names : List String) : Outline :=
  .group .sequence (names.map fun name => .text (quoted name.toList))

section Lists

variable {rest other : List Char}

/-- Behind a name, a comma announces another one, and a bracket ends the list. -/
theorem compactTail_append_inj {left right : List String} :
    Outline.compactTail (left.map fun name => .text (quoted name.toList)) ++ ']' :: rest =
      Outline.compactTail (right.map fun name => .text (quoted name.toList)) ++ ']' :: other ↔
    left = right ∧ rest = other := by
  induction left generalizing right with
  | nil => cases right <;> simp [Outline.compactTail]
  | cons name later inductionHypothesis =>
    cases right with
    | nil => simp [Outline.compactTail]
    | cons title others =>
      simp only [List.map_cons, Outline.compactTail, Outline.compact, List.append_assoc,
        List.append_cancel_left_eq, quoted_append_inj, inductionHypothesis, String.toList_inj,
        List.cons.injEq, and_assoc]

/-- A list of names can be read back. -/
theorem namesOutline_append_inj {left right : List String} :
    (namesOutline left).compact ++ rest = (namesOutline right).compact ++ other ↔
      left = right ∧ rest = other := by
  cases left with
  | nil =>
    cases right <;>
      simp [namesOutline, Outline.compact, Frame.opening, Frame.closing, Frame.margin, quoted]
  | cons name later =>
    cases right with
    | nil =>
      simp [namesOutline, Outline.compact, Frame.opening, Frame.closing, Frame.margin, quoted]
    | cons title others =>
      simp only [namesOutline, List.map_cons, Outline.compact, Frame.opening, Frame.margin,
        Frame.closing, List.append_assoc, List.cons_append, List.nil_append, quoted_append_inj,
        compactTail_append_inj, String.toList_inj, List.cons.injEq, true_and, and_assoc]

end Lists

/-- The outline of a registry is made of the names for both processors, and of nothing else. -/
theorem outline_eq (registry : Registry) : registry.outline =
    .group (.record "SysEventManager") [
      .field "master" (namesOutline registry.master.names),
      .field "slave" (namesOutline registry.slave.names)] :=
  rfl

/-- The outline of a registry tells which names are in use for which processor. -/
theorem compact_outline_inj {left right : Registry} :
    left.outline.compact = right.outline.compact ↔
      left.master.names = right.master.names ∧ left.slave.names = right.slave.names := by
  simp only [outline_eq, Outline.compact, Outline.compactTail, List.append_assoc,
    List.append_cancel_left_eq, namesOutline_append_inj, and_true]

end Registry

/-- Diagnostics about names are unambiguous: two refusals have the same message if and only if they
are of the same name at the same processor, and two registries have the same outline if and only if
the same names are in use for the master, and for the slave.

Proof: a message is read from the left: the quoted name, whose closing quote is the first one that
no escape precedes, and behind it the name of the processor. An outline is a list of quoted names
for each processor. The names of a roster are sorted, so the list says no more than which names
there are. -/
theorem diagnostics_eq_iff :
    (∀ left right : Duplicate, left.message = right.message ↔
      left.cpu = right.cpu ∧ left.name = right.name) ∧
    ∀ left right : Registry, left.outline.compact = right.outline.compact ↔
      (∀ name, left.master.has name = right.master.has name) ∧
        ∀ name, left.slave.has name = right.slave.has name := by
  refine ⟨fun left right => Duplicate.message_inj, fun left right => ?_⟩
  rw [Registry.compact_outline_inj, Roster.names_inj, Roster.names_inj]

end Sh2Pair
