import Sh2Pair.Proofs.Records

/-!
# Names that come again

A known name that comes a second time in an object makes the reading fail. The members in front of
it may have any well-formed values: either the reading fails at one of them, or it stops right
behind each, and then the field of the name has been given. What follows the name does not matter.

A value that makes its reader fail makes the record around it fail in the same way.
-/

namespace Sh2Pair.Json

variable {ρ : Type} {fields : List (Field ρ)}

/-- A reader fails on a text, with any blanks in front of it. -/
def Fails {α : Type} (reader : List Char → Except Fault (α × List Char)) (text : List Char) :
    Prop :=
  ∀ blanks, Blanks blanks → ∃ fault, reader (blanks ++ text) = .error fault

/-- A reader that fails does so whatever is made of its result. -/
theorem Fails.map {α β : Type} {reader : List Char → Except Fault (α × List Char)}
    {text : List Char} (fails : Fails reader text) (use : α → β) :
    Fails (fun text => reader text >>= fun read => Except.ok (use read.1, read.2)) text := by
  intro blanks inside
  obtain ⟨fault, failed⟩ := fails blanks inside
  refine ⟨fault, ?_⟩
  simp only [failed]
  rfl

/-- A document fails where its reader does, with blanks in front of it. -/
theorem Fails.document {α : Type} {reader : List Char → Except Fault (α × List Char)}
    {text : List Char} (fails : Fails reader text) {before : List Char} (begun : Blanks before) :
    ∃ fault, readDocument reader (String.ofList (before ++ text)) = .error fault := by
  obtain ⟨fault, failed⟩ := fails before begun
  exact ⟨fault, by simp [readDocument, failed, bind, Except.bind]⟩

/-- The pieces in front of a place inside a bracket, each with a comma behind it. -/
inductive Lead {α : Type} (Piece : α → List Char → Prop) : List α → List Char → Prop where
  | start {blanks : List Char} (inside : Blanks blanks) : Lead Piece [] blanks
  | more {piece : α} {pieces : List α} {before text after lead : List Char} (begun : Blanks before)
      (spelled : Piece piece text) (ended : Blanks after) (later : Lead Piece pieces lead) :
      Lead Piece (piece :: pieces) (before ++ (text ++ (after ++ ',' :: lead)))

/-- A member with any well-formed value. -/
def AnyMember (name : List Char) (text : List Char) : Prop :=
  Member (Spells name) (WellFormed .value) text

/-- A text that begins like an object in which a known name comes a second time. -/
inductive RepeatsName (known : List (List Char)) : List Char → Prop where
  | again {names : List (List Char)} {lead name text after : List Char}
      (leading : Lead AnyMember names lead) (among : name ∈ names) (isKnown : name ∈ known)
      (spelled : Spells name text) :
      RepeatsName known ('\x7b' :: (lead ++ '"' :: (text ++ '"' :: after)))

/-- Reading a field gives it, and takes nothing back. -/
structure Marks (fields : List (Field ρ)) : Prop where
  gives : ∀ field ∈ fields, ∀ record text after rest,
    field.read record text = .ok (after, rest) → field.isGiven after = true
  keeps : ∀ field ∈ fields, ∀ other ∈ fields, ∀ record text after rest,
    field.read record text = .ok (after, rest) → other.isGiven record = true →
      other.isGiven after = true

/-- The fields that bear some names have been given. -/
def Given (fields : List (Field ρ)) (names : List (List Char)) (record : ρ) : Prop :=
  ∀ name ∈ names, ∀ field, fieldOf? fields name = some field → field.isGiven record = true

variable {first : Bool} {front before name text rest : List Char} {record : ρ}

/-- Entering a member takes its value, also one that is passed over. -/
theorem takes_enter (attentive : Attentive fields) (name : List Char) (record : ρ) :
    Takes (enter fields name record) := by
  intro text value rest read
  rw [enter] at read
  split at read
  case h_1 field found =>
    exact attentive field (List.mem_of_find?_eq_some found) record _ _ _ read
  case h_2 =>
    obtain ⟨left, passed, ⟨⟩⟩ := bind_eq_ok_iff.mp read
    exact Crosses.iff_skipValue.mpr passed

/-- Whatever the well-formed value of a member says, its reading fails or goes on behind it. -/
theorem enter_of_wellFormed (attentive : Attentive fields) {gap : List Char} (blanks : Blanks gap)
    (value : WellFormed .value text) (ends : Ends rest) {after : ρ} {left : List Char}
    (read : enter fields name record (gap ++ (text ++ rest)) = .ok (after, left)) : left = rest :=
  (takes_enter attentive name record _ _ _ read).unique
    (.of_skipBlanks (skipBlanks_append blanks _) (crosses_of_wellFormed value ends))

/-- Entering a member gives its name, and takes no name back. -/
theorem given_of_enter (marks : Marks fields) {known : List (List Char)}
    (given : Given fields known record) {after : ρ}
    (read : enter fields name record text = .ok (after, rest)) :
    Given fields (known ++ [name]) after := by
  intro other among field found
  have field_mem : field ∈ fields := List.mem_of_find?_eq_some found
  rw [enter] at read
  split at read
  case h_1 entered same =>
    have entered_mem : entered ∈ fields := List.mem_of_find?_eq_some same
    rcases List.mem_append.mp among with among | last
    · have isGiven : field.isGiven record = true := given other among field found
      exact marks.keeps entered entered_mem field field_mem _ _ _ _ read isGiven
    · rw [List.mem_singleton.mp last, same] at found
      cases found
      exact marks.gives _ entered_mem _ _ _ _ read
  case h_2 foreign =>
    obtain ⟨left, passed, ⟨⟩⟩ := bind_eq_ok_iff.mp read
    rcases List.mem_append.mp among with among | last
    · exact given other among field found
    · rw [List.mem_singleton.mp last, foreign] at found
      cases found

/-- A member with a well-formed value is where the reading fails, or the reading goes on behind it
with the name of the member given. -/
theorem readMembers_any (attentive : Attentive fields) (marks : Marks fields)
    {known : List (List Char)} (given : Given fields known record) (begun : Blanks before)
    (spelled : AnyMember name text) (ends : Ends rest)
    (enters : Enters first front (before ++ (text ++ rest))) (bound : Nat) :
    (∃ fault, readMembers fields bound first record front = .error fault) ∨
      ∃ fewer after, readMembers fields bound first record front =
        readMembers fields fewer false after rest ∧ Given fields (known ++ [name]) after := by
  obtain ⟨named, blanks, blanksToo, value⟩ := spelled
  simp only [List.cons_append, List.append_assoc] at enters
  rcases open_or_given fields record name with isOpen | ⟨field, found, closed⟩
  · cases bound with
    | zero => exact .inl ⟨_, rfl⟩
    | succ bound =>
      have step := readMembers_member isOpen begun named blanks enters bound
      cases read : enter fields name record _ with
      | error fault =>
        rw [read] at step
        exact .inl ⟨fault, step⟩
      | ok result =>
        obtain ⟨after, left⟩ := result
        have stopped : left = rest := enter_of_wellFormed attentive blanksToo value ends read
        rw [read] at step
        exact .inr ⟨bound, after, stopped ▸ step, given_of_enter marks given read⟩
  · exact .inl (readMembers_repeated found closed begun named enters)

/-- The reading of members has failed, or it has come to a place in front of a text, where some
names have been given. -/
def Comes (fields : List (Field ρ)) (names : List (List Char)) (text : List Char)
    (result : Except Fault (ρ × List Char)) : Prop :=
  (∃ fault, result = .error fault) ∨ ∃ bound first record front blanks,
    result = readMembers fields bound first record front ∧ Blanks blanks ∧
      Enters first front (blanks ++ text) ∧ Given fields names record

/-- The reading fails at one of the members in front of a place, or comes to that place. -/
theorem comes_behind (attentive : Attentive fields) (marks : Marks fields)
    {names : List (List Char)} {lead : List Char} (leading : Lead AnyMember names lead)
    {known : List (List Char)} (given : Given fields known record)
    (enters : Enters first front (lead ++ text)) (bound : Nat) :
    Comes fields (known ++ names) text (readMembers fields bound first record front) := by
  induction leading generalizing first front record known bound with
  | @start blanks inside =>
    rw [List.append_nil]
    exact .inr ⟨bound, first, record, front, blanks, rfl, inside, enters, given⟩
  | @more name names before member after lead begun spelled ended later inductionHypothesis =>
    simp only [List.append_assoc, List.cons_append] at enters
    have separated : Enters false (after ++ ',' :: (lead ++ text)) (lead ++ text) :=
      skipBlanks_to ended (by decide) _
    rcases readMembers_any attentive marks given begun spelled (ends_append ended (by simp [Ends]))
      enters bound with failed | ⟨fewer, between, same, givenToo⟩
    · exact .inl failed
    · rw [same, List.append_cons known name names]
      exact inductionHypothesis givenToo separated fewer

/-- Reading the members of an object comes to those behind some others, with the names of these
given, or it has failed on the way. -/
theorem comes_inside (attentive : Attentive fields) (marks : Marks fields)
    {names : List (List Char)} {lead : List Char} (leading : Lead AnyMember names lead)
    (text : List Char) (record : ρ) (bound : Nat) :
    Comes fields names text (readMembers fields bound true record (lead ++ text)) := by
  have nothing : Given fields [] record := nofun
  have enters : Enters true (lead ++ text) (lead ++ text) := rfl
  exact comes_behind attentive marks leading nothing enters bound

/-- The reader of records fails where that of members does. -/
theorem fails_object {expected : String} {inside : List Char}
    (fails : ∀ bound, ∃ fault, readMembers fields bound true record inside = .error fault) :
    Fails (readRecord expected fields record) ('\x7b' :: inside) := by
  intro blanks blank
  rw [readRecord, skipBlanks_to blank (by decide)]
  exact fails _

/-- A known name that comes a second time makes the reading fail, whatever follows it. -/
theorem fails_repeated (attentive : Attentive fields) (marks : Marks fields) {expected : String}
    (repeats : RepeatsName (keysOf fields) text) :
    Fails (readRecord expected fields record) text := by
  obtain ⟨leading, among, isKnown, spelled⟩ := repeats
  apply fails_object
  intro bound
  rcases comes_inside attentive marks leading _ record bound with
    failed | ⟨fewer, first, after, front, blanks, same, inside, enters, given⟩
  · exact failed
  · rw [same]
    cases found : fieldOf? fields _ with
    | none => exact absurd isKnown (fieldOf?_eq_none_iff.mp found)
    | some field =>
      exact readMembers_repeated found (given _ among field found) inside spelled enters

/-- A member that makes its reader fail makes the reading of the object fail. -/
theorem fails_member (attentive : Attentive fields) (marks : Marks fields) {expected : String}
    {names : List (List Char)} {lead : List Char} (leading : Lead AnyMember names lead)
    {field : Field ρ} (found : fieldOf? fields name = some field)
    (spelled : Spells name text) {between gap : List Char} (blanks : Blanks between)
    (blanksToo : Blanks gap) (fails : ∀ record, Fails (field.read record) rest) :
    Fails (readRecord expected fields record)
      ('\x7b' :: (lead ++ '"' :: (text ++ '"' :: (between ++ ':' :: (gap ++ rest))))) := by
  apply fails_object
  intro bound
  rcases comes_inside attentive marks leading _ record bound with
    failed | ⟨fewer, first, after, front, before, same, inside, enters, given⟩
  · exact failed
  · rw [same]
    cases fewer with
    | zero => exact ⟨_, rfl⟩
    | succ fewer =>
      rcases open_or_given fields after name with isOpen | ⟨other, known, closed⟩
      · obtain ⟨fault, failed⟩ := fails after gap blanksToo
        rw [readMembers_member isOpen inside spelled blanks enters, enter, found]
        simp only [failed, bind, Except.bind]
        exact ⟨fault, rfl⟩
      · exact readMembers_repeated known closed inside spelled enters

/-- If the reader of a value of an array fails, so does the reading of the values from there on.

Proof: by induction on the values in front. Each of them is either refused, which is a failure as
well, or the reader stops behind it, since it is attentive. -/
theorem readPositional_fails {names : List (List Char)} {lead : List Char}
    (leading : Lead (fun _ => WellFormed .value) names lead) {earlier later : List (Field ρ)}
    (attentive : Attentive earlier) (many : names.length = earlier.length) {field : Field ρ}
    (begins : ¬ Ends text) (fails : ∀ record, Fails (field.read record) text)
    (enters : Enters first front (lead ++ text)) :
    ∃ fault, readPositional (earlier ++ field :: later) first record front = .error fault := by
  induction leading generalizing first front record earlier with
  | @start blanks inside =>
    have none : earlier = [] := List.eq_nil_of_length_eq_zero many.symm
    obtain ⟨fault, failed⟩ := fails record [] blanks_nil
    subst none
    have next : nextItem first front = .ok (.item text) := nextItem_of_text inside begins enters
    rw [List.nil_append] at failed
    rw [List.nil_append, readPositional, next]
    simp only [failed, bind, Except.bind]
    exact ⟨fault, rfl⟩
  | @more name names before value after lead begun spelled ended leads inductionHypothesis =>
    cases earlier with
    | nil => cases many
    | cons served earlier =>
      simp only [List.append_assoc, List.cons_append] at enters
      have begins : ¬ Ends value := not_ends_of_wellFormed spelled
      have next : nextItem first front = .ok (.item (value ++ (after ++ ',' :: (lead ++ text)))) :=
        nextItem_of_text begun (not_ends_append begins _) enters
      have ends : Ends (after ++ ',' :: (lead ++ text)) := ends_append ended (by simp [Ends])
      rw [List.cons_append, readPositional, next]
      cases read : served.read record (value ++ (after ++ ',' :: (lead ++ text))) with
      | error fault =>
        simp only [read, bind, Except.bind]
        exact ⟨fault, rfl⟩
      | ok result =>
        obtain ⟨record, left⟩ := result
        have stopped : left = after ++ ',' :: (lead ++ text) :=
          (attentive served List.mem_cons_self _ _ _ _ read).unique
            (crosses_of_wellFormed spelled ends)
        have separated : Enters false (after ++ ',' :: (lead ++ text)) (lead ++ text) :=
          skipBlanks_to ended (by decide) _
        subst stopped
        simp only [read, bind, Except.bind]
        exact inductionHypothesis (fun field among => attentive field (.tail _ among))
          (Nat.succ.inj many) separated

/-- A value of an array that makes its reader fail makes the reading of the array fail. -/
theorem fails_array {names : List (List Char)} {lead : List Char}
    (leading : Lead (fun _ => WellFormed .value) names lead) {earlier later : List (Field ρ)}
    (attentive : Attentive earlier) (many : names.length = earlier.length) {field : Field ρ}
    (begins : ¬ Ends text) (fails : ∀ record, Fails (field.read record) text) {expected : String} :
    Fails (readRecord expected (earlier ++ field :: later) record) ('[' :: (lead ++ text)) := by
  intro blanks blank
  rw [readRecord, skipBlanks_to blank (by decide)]
  exact readPositional_fails leading attentive many begins fails rfl

end Sh2Pair.Json
