import Mathlib.Data.String.Basic
import Sh2Pair.Hub.Roster

/-!
# The order of names

The names of a roster are listed by the order of their characters. This is the order of the bytes
that encode them: the encoding of a lesser character is less than that of a greater one, whatever
follows either, so the first character in which two names differ decides for the bytes, too.
-/

namespace Sh2Pair

/-- The bytes that encode a name. -/
def nameBytes (name : String) : List UInt8 := name.toUTF8.data.toList

/-- The bytes of a name are those of its characters, one after the other. -/
theorem nameBytes_eq (name : String) :
    nameBytes name = name.toList.flatMap String.utf8EncodeChar := by
  rw [nameBytes, String.toUTF8_eq_toByteArray, ← String.utf8Encode_toList, List.utf8Encode,
    List.data_toByteArray]

section Bytes

variable {left right : Nat} (leftFits : left < 256) (rightFits : right < 256)

include leftFits rightFits

/-- Small numbers are in order as bytes if they are as numbers. -/
theorem ofNat_lt_ofNat_iff : UInt8.ofNat left < UInt8.ofNat right ↔ left < right := by
  rw [UInt8.lt_iff_toNat_lt, UInt8.toNat_ofNat', UInt8.toNat_ofNat', Nat.mod_eq_of_lt leftFits,
    Nat.mod_eq_of_lt rightFits]

/-- Small numbers are equal as bytes if they are as numbers. -/
theorem ofNat_eq_ofNat_iff : UInt8.ofNat left = UInt8.ofNat right ↔ left = right := by
  rw [← UInt8.toNat_inj, UInt8.toNat_ofNat', UInt8.toNat_ofNat', Nat.mod_eq_of_lt leftFits,
    Nat.mod_eq_of_lt rightFits]

end Bytes

/-- The encoding of a lesser character is less, whatever follows either. A lesser character never
has the longer encoding, and the first byte of a longer one is greater.

Proof: by cases on the lengths of both encodings. With equal lengths, the bytes are the digits of
the code points to the base 64, most significant first, so the first bytes that differ are in the
order of the code points. -/
theorem utf8EncodeChar_append_lt {left right : Char} (less : left < right)
    (afterLeft afterRight : List UInt8) :
    String.utf8EncodeChar left ++ afterLeft < String.utf8EncodeChar right ++ afterRight := by
  have less : left.val.toNat < right.val.toNat := less
  have bounded : right.val.toNat < 1114112 := by
    rcases right.valid with small | ⟨_, large⟩
    · exact Nat.lt_trans small (by decide)
    · exact large
  simp only [String.utf8EncodeChar.eq_1]
  generalize left.val.toNat = low at less
  generalize right.val.toNat = high at less bounded
  -- The digits of a code point to the base 64 are digits of its quotients.
  have digits : ∀ code < 1114112, code / 64 / 64 = code / 4096 ∧
      code / 4096 / 64 = code / 262144 ∧ code / 262144 % 8 = code / 262144 :=
    fun code fits => ⟨Nat.div_div_eq_div_mul .., Nat.div_div_eq_div_mul ..,
      Nat.mod_eq_of_lt (by omega)⟩
  have lowDigits : low / 64 / 64 = low / 4096 ∧ low / 4096 / 64 = low / 262144 ∧
      low / 262144 % 8 = low / 262144 := digits low (less.trans bounded)
  have highDigits : high / 64 / 64 = high / 4096 ∧ high / 4096 / 64 = high / 262144 ∧
      high / 262144 % 8 = high / 262144 := digits high bounded
  split_ifs <;>
    simp (disch := omega) only [List.cons_append, List.nil_append, List.cons_lt_cons_iff,
      ofNat_lt_ofNat_iff, ofNat_eq_ofNat_iff] <;> omega

/-- Encoding keeps the order of texts. -/
theorem flatMap_utf8EncodeChar_lt {left right : List Char} (less : left < right) :
    left.flatMap String.utf8EncodeChar < right.flatMap String.utf8EncodeChar := by
  induction left generalizing right with
  | nil =>
    cases right with
    | nil => exact absurd less (List.lt_irrefl [])
    | cons first later =>
      obtain ⟨byte, rest, encoding⟩ :=
        List.exists_cons_of_ne_nil (String.utf8EncodeChar_ne_nil (c := first))
      rw [List.flatMap_nil, List.flatMap_cons, encoding]
      exact List.nil_lt_cons ..
  | cons first later inductionHypothesis =>
    cases right with
    | nil => exact absurd less (List.not_lt_nil _)
    | cons other rest =>
      rw [List.flatMap_cons, List.flatMap_cons]
      rcases List.cons_lt_cons_iff.mp less with decided | ⟨rfl, undecided⟩
      · exact utf8EncodeChar_append_lt decided _ _
      · exact List.append_left_lt (inductionHypothesis undecided)

/-- Names in ascending order have encodings in ascending order. -/
theorem nameBytes_lt {left right : String} (less : left < right) :
    nameBytes left < nameBytes right := by
  rw [nameBytes_eq, nameBytes_eq]
  exact flatMap_utf8EncodeChar_lt (String.lt_iff_toList_lt.mp less)

namespace Roster

/-- The names of a roster are those that it has. -/
theorem mem_names_iff (roster : Roster) (name : String) :
    name ∈ roster.names ↔ roster.has name = true := by
  rw [names, (List.mergeSort_perm ..).mem_iff, has, List.any_eq_true, List.mem_map]
  simp only [decide_eq_true_eq]

/-- The names of a roster are listed in ascending order of their bytes, without repetition. -/
theorem pairwise_names (roster : Roster) :
    roster.names.Pairwise fun left right => nameBytes left < nameBytes right := by
  have ascending : roster.names.Pairwise fun left right => decide (left ≤ right) = true := by
    refine List.pairwise_mergeSort ?_ ?_ _
    · intro first second third
      simpa using le_trans
    · intro left right
      simpa using le_total left right
  have distinct : roster.names.Nodup := (List.mergeSort_perm ..).nodup_iff.mpr roster.nodup
  refine (ascending.and distinct).imp ?_
  rintro left right ⟨least, differs⟩
  exact nameBytes_lt (lt_of_le_of_ne (of_decide_eq_true least) differs)

end Roster

end Sh2Pair
