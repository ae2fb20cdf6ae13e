import Mathlib.Data.List.Forall2
import Sh2Pair.Json.Tree
import Sh2Pair.Proofs.Spelling

/-!
# The texts of written values

Both layouts of a written value are rows of pieces between brackets: the compact one without any
blanks, the spread one with every piece on a line of its own. What is said about either of them
needs no more than that.
-/

namespace Sh2Pair.Json

open Sh2Pair.Text (integer truth)

section Rows

variable {α : Type} {Piece : α → List Char → Prop}

/-- The texts of the pieces behind the first, each behind a comma and some blanks, up to the blanks
in front of the bracket that closes. -/
def joined (before ending : List Char) : List (List Char) → List Char
  | [] => ending
  | text :: later => ',' :: (before ++ (text ++ joined before ending later))

/-- Pieces between commas are a row of them. -/
theorem row_joined {before ending : List Char} (begun : Blanks before) (ended : Blanks ending)
    {piece : α} {pieces : List α} {text : List Char} {texts : List (List Char)}
    (first : Piece piece text) (later : List.Forall₂ Piece pieces texts) :
    Row Piece (piece :: pieces) (before ++ (text ++ joined before ending texts)) := by
  induction later generalizing piece text with
  | nil => exact .last begun first ended
  | cons second later inductionHypothesis =>
    exact .more begun first blanks_nil (inductionHypothesis second)

/-- Brackets around the texts of some trees, if the text of the whole says so. -/
theorem bracketed_of_texts {before ending : List Char} (begun : Blanks before)
    (ended : Blanks ending) {opening closing : Char} {write : Tree → List Char}
    (whole : List Tree → List Char) (empty : whole [] = [opening, closing])
    (filled : ∀ tree trees, whole (tree :: trees) = opening ::
      (before ++ (write tree ++ joined before ending (trees.map write)) ++ [closing]))
    {pieces : List α} {trees : List Tree} (all : List.Forall₂ Piece pieces (trees.map write)) :
    Bracketed opening closing Piece pieces (whole trees) := by
  cases trees with
  | nil =>
    cases all
    rw [empty]
    exact .empty blanks_nil
  | cons tree trees =>
    obtain ⟨piece, pieces, first, later, rfl⟩ := List.forall₂_cons_right_iff.mp all
    rw [filled]
    exact .filled (row_joined begun ended first later)

end Rows

/-- A layout of written values: how a value is written at a depth of brackets. -/
structure Layout (write : Nat → Tree → List Char) : Prop where
  number : ∀ depth value, write depth (.number value) = integer value
  truth : ∀ depth value, write depth (.truth value) = truth value
  name : ∀ depth content, write depth (.name content) = '"' :: (content.toList ++ ['"'])
  member : ∀ depth key value, ∃ gap, Blanks gap ∧
    write depth (.member key value) =
      '"' :: (key.toList ++ '"' :: ':' :: (gap ++ write depth value))
  array : ∀ {α : Type} {Piece : α → List Char → Prop} {pieces : List α} (depth : Nat)
    (trees : List Tree), List.Forall₂ Piece pieces (trees.map (write (depth + 1))) →
      Bracketed '[' ']' Piece pieces (write depth (.array trees))
  object : ∀ {α : Type} {Piece : α → List Char → Prop} {pieces : List α} (depth : Nat)
    (trees : List Tree), List.Forall₂ Piece pieces (trees.map (write (depth + 1))) →
      Bracketed '\x7b' '\x7d' Piece pieces (write depth (.object trees))

/-- A member is written as its name, which spells itself, a colon and its value. -/
theorem Layout.member_text {write : Nat → Tree → List Char} (layout : Layout write) (depth : Nat)
    {key : String} (plain : isPlain key.toList = true) {value : Tree} {Value : List Char → Prop}
    (spelled : Value (write depth value)) :
    Member (Spells key.toList) Value (write depth (.member key value)) := by
  obtain ⟨gap, blanks, same⟩ := layout.member depth key value
  rw [same]
  exact .parts (spells_self plain) blanks_nil blanks spelled

namespace Tree

/-- Without blanks, the pieces behind the first are joined by commas. -/
theorem compactTail_eq (trees : List Tree) :
    compactTail trees = joined [] [] (trees.map compact) := by
  induction trees with
  | nil => rfl
  | cons tree trees inductionHypothesis =>
    rw [compactTail, inductionHypothesis]
    rfl

/-- Over several lines, the pieces behind the first are joined by commas and new lines. -/
theorem spreadTail_append (depth : Nat) (trees : List Tree) (ending : List Char) :
    spreadTail depth trees ++ ending =
      joined (newLine depth) ending (trees.map (spreadAt depth)) := by
  induction trees with
  | nil => rfl
  | cons tree trees inductionHypothesis =>
    rw [spreadTail, List.map_cons, joined, ← inductionHypothesis]
    simp only [List.cons_append, List.append_assoc]

/-- A new line and its indentation are blanks. -/
theorem blanks_newLine (depth : Nat) : Blanks (newLine depth) := by
  intro c member
  rcases List.mem_cons.mp member with rfl | member
  · simp
  · rw [List.eq_of_mem_replicate member]
    simp

/-- The text without blanks is a layout. -/
theorem layout_compact : Layout fun _ => compact where
  number _ _ := by rw [compact]
  truth _ _ := by rw [compact]
  name _ _ := by rw [compact, nameText]
  member _ key value := ⟨[], blanks_nil, by simp [compact, nameText]⟩
  array _ trees all := by
    refine bracketed_of_texts blanks_nil blanks_nil (fun trees => compact (.array trees)) ?_ ?_ all
    · simp only [compact]
    · intro tree trees
      simp only [compact, compactTail_eq, List.nil_append]
  object _ trees all := by
    refine bracketed_of_texts blanks_nil blanks_nil (fun trees => compact (.object trees)) ?_ ?_ all
    · simp only [compact]
    · intro tree trees
      simp only [compact, compactTail_eq, List.nil_append]

/-- The text over several lines is a layout. -/
theorem layout_spread : Layout spreadAt where
  number _ _ := by rw [spreadAt]
  truth _ _ := by rw [spreadAt]
  name _ _ := by rw [spreadAt, nameText]
  member _ key value := ⟨[' '], by simp [Blanks], by simp [spreadAt, nameText]⟩
  array depth trees all := by
    refine bracketed_of_texts (blanks_newLine (depth + 1)) (blanks_newLine depth)
      (fun trees => spreadAt depth (.array trees)) ?_ ?_ all
    · simp only [spreadAt]
    · intro tree trees
      simp only [spreadAt, ← spreadTail_append, List.append_assoc]
  object depth trees all := by
    refine bracketed_of_texts (blanks_newLine (depth + 1)) (blanks_newLine depth)
      (fun trees => spreadAt depth (.object trees)) ?_ ?_ all
    · simp only [spreadAt]
    · intro tree trees
      simp only [spreadAt, ← spreadTail_append, List.append_assoc]

end Tree

end Sh2Pair.Json
