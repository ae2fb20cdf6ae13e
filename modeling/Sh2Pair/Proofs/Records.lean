import Mathlib.Data.List.Nodup
import Sh2Pair.Proofs.Readings

/-!
# Reading records

A record is a row of members, or of the values alone in the order of the fields. Reading one member
puts its value into the field that bears its name, if that is still open, and passes over the value
if no field bears the name. A whole row puts in all its values, whatever the order and the layout.
-/

namespace Sh2Pair.Json

variable {ρ : Type} {fields : List (Field ρ)}

section Entering

/-- The field that bears a name. -/
def fieldOf? (fields : List (Field ρ)) (name : List Char) : Option (Field ρ) :=
  fields.find? fun field => field.name.toList = name

/-- A name is open if the field that bears it, if any, has not been given. -/
def Open (fields : List (Field ρ)) (record : ρ) (name : List Char) : Prop :=
  ∀ field, fieldOf? fields name = some field → field.isGiven record = false

/-- The names that the fields bear. -/
def keysOf (fields : List (Field ρ)) : List (List Char) := fields.map fun field => field.name.toList

/-- A name that is not open is borne by a field that has been given. -/
theorem open_or_given (fields : List (Field ρ)) (record : ρ) (name : List Char) :
    Open fields record name ∨
      ∃ field, fieldOf? fields name = some field ∧ field.isGiven record = true := by
  by_cases isOpen : Open fields record name
  · exact .inl isOpen
  · simp only [Open, not_forall, Bool.not_eq_false] at isOpen
    obtain ⟨field, found, given⟩ := isOpen
    exact .inr ⟨field, found, given⟩

/-- No field bears a name that is not among their names. -/
theorem fieldOf?_eq_none_iff {name : List Char} :
    fieldOf? fields name = none ↔ name ∉ keysOf fields := by
  simp [fieldOf?, keysOf]

/-- Reads the value of a member whose name is open. -/
def enter (fields : List (Field ρ)) (name : List Char) (record : ρ) (text : List Char) :
    Except Fault (ρ × List Char) :=
  match fieldOf? fields name with
  | some field => field.read record text
  | none => do .ok (record, ← skipValue text)

/-- A member of a name that no field bears is passed over. -/
theorem reads_foreign {name text : List Char} (foreign : fieldOf? fields name = none)
    (value : WellFormed .value text) (record : ρ) :
    Reads (enter fields name record) text record := by
  refine ⟨not_ends_of_wellFormed value, ?_⟩
  intro blanks rest inside ends
  have crosses : Crosses .value [] (blanks ++ (text ++ rest)) rest :=
    .of_skipBlanks (skipBlanks_append inside _) (crosses_of_wellFormed value ends)
  rw [enter, foreign]
  simp [crosses.skipValue, bind, Except.bind]

/-- The field that is found under a name is one of the fields and bears this name. -/
theorem field_of_name {name : List Char} {field : Field ρ}
    (found : fieldOf? fields name = some field) :
    field ∈ fields ∧ field.name.toList = name := by
  rw [fieldOf?] at found
  refine ⟨List.mem_of_find?_eq_some found, ?_⟩
  simpa using List.find?_some found

variable {first : Bool} {front before between name text rest : List Char} {record : ρ} {bound : Nat}

/-- Where the object is closed, the record is complete. -/
theorem readMembers_closed (closed : skipBlanks front = '\x7d' :: rest) :
    readMembers fields (bound + 1) first record front = .ok (record, rest) := by
  simp [readMembers, nextName_eq_close_iff.mpr closed, bind, Except.bind]

/-- In front of a member whose name is open, the value of the member is read. -/
theorem readMembers_member (isOpen : Open fields record name) (begun : Blanks before)
    (spelled : Spells name text) (blanks : Blanks between)
    (enters : Enters first front (before ++ '"' :: (text ++ '"' :: (between ++ ':' :: rest))))
    (bound : Nat) :
    readMembers fields (bound + 1) first record front =
      enter fields name record rest >>= fun read =>
        readMembers fields bound false read.1 read.2 := by
  have next : nextName first front = .ok (.name (text ++ '"' :: (between ++ ':' :: rest))) :=
    nextName_eq_name_iff.mpr ⟨_, enters, skipBlanks_to begun (by decide) _⟩
  have read :
      Text.read (text ++ '"' :: (between ++ ':' :: rest)) = .ok (name, between ++ ':' :: rest) :=
    Text.read_of_spells spelled (between ++ ':' :: rest)
  have coloned : colon (between ++ ':' :: rest) = .ok rest := colon_of_blanks blanks rest
  cases found : fieldOf? fields name with
  | none =>
    rw [fieldOf?] at found
    simp only [readMembers, next, read, found, coloned, enter, fieldOf?, bind, Except.bind]
    cases skipValue rest <;> rfl
  | some field =>
    have absent : field.isGiven record = false := isOpen field found
    rw [fieldOf?] at found
    simp [readMembers, next, read, found, absent, coloned, enter, fieldOf?, bind, Except.bind]

/-- A name whose field has been given is refused, whatever follows. -/
theorem readMembers_repeated {field : Field ρ} (found : fieldOf? fields name = some field)
    (given : field.isGiven record = true) (begun : Blanks before) (spelled : Spells name text)
    (enters : Enters first front (before ++ '"' :: (text ++ '"' :: rest))) :
    ∃ fault, readMembers fields bound first record front = .error fault := by
  have next : nextName first front = .ok (.name (text ++ '"' :: rest)) :=
    nextName_eq_name_iff.mpr ⟨_, enters, skipBlanks_to begun (by decide) _⟩
  rw [fieldOf?] at found
  cases bound with
  | zero => exact ⟨_, rfl⟩
  | succ bound =>
    simp [readMembers, next, Text.read_of_spells spelled, found, given, bind, Except.bind]

end Entering

section Members

variable {μ : Type} {key : μ → List Char} {Value : μ → List Char → Prop} {put : μ → ρ → ρ}

/-- The fields serve some members: the value of a member whose name is open is put in, and only that
name is closed by it. -/
structure Serves (fields : List (Field ρ)) (key : μ → List Char) (Value : μ → List Char → Prop)
    (put : μ → ρ → ρ) : Prop where
  reads : ∀ member record, Open fields record (key member) → ∀ text, Value member text →
    Reads (enter fields (key member) record) text (put member record)
  stays : ∀ member record name, name ≠ key member → Open fields record name →
    Open fields (put member record) name

/-- Puts in all members, in their order. -/
def fill (put : μ → ρ → ρ) (members : List μ) (record : ρ) : ρ :=
  members.foldl (fun record member => put member record) record

/-- No two members are for the same field. -/
def Apart (fields : List (Field ρ)) (key : μ → List Char) (members : List μ) : Prop :=
  members.Pairwise fun member other => key other ≠ key member ∨ fieldOf? fields (key other) = none

/-- The members that follow are as open as they were. -/
theorem open_put (serves : Serves fields key Value put) {member : μ} {members : List μ}
    (apart : Apart fields key (member :: members)) {record : ρ}
    (opens : ∀ other ∈ members, Open fields record (key other)) :
    ∀ other ∈ members, Open fields (put member record) (key other) := by
  intro other among
  rcases List.rel_of_pairwise_cons apart among with different | foreign
  · exact serves.stays member record _ different (opens other among)
  · intro field found
    rw [foreign] at found
    cases found

variable {first : Bool} {front before text rest : List Char} {record : ρ}

/-- In front of a member that the fields serve, the member is put in. -/
theorem readMembers_put (serves : Serves fields key Value put) {member : μ}
    (isOpen : Open fields record (key member)) (begun : Blanks before)
    (spelled : Member (Spells (key member)) (Value member) text) (ends : Ends rest)
    (enters : Enters first front (before ++ (text ++ rest))) (bound : Nat) :
    readMembers fields (bound + 1) first record front =
      readMembers fields bound false (put member record) rest := by
  obtain ⟨named, blanks, blanksToo, valued⟩ := spelled
  obtain ⟨_, reads⟩ := serves.reads member record isOpen _ valued
  simp only [List.cons_append, List.append_assoc] at enters
  rw [readMembers_member isOpen begun named blanks enters, reads _ _ blanksToo ends]
  rfl

/-- All members of a row are put in, up to the bracket that closes behind them.

Proof: by induction on the row. Each member is read by the field of its name, which is open, and
leaves the names of the later ones open. -/
theorem readMembers_row (serves : Serves fields key Value put) {members : List μ}
    (row : Row (fun member => Member (Spells (key member)) (Value member)) members text)
    (apart : Apart fields key members) (opens : ∀ member ∈ members, Open fields record (key member))
    (enters : Enters first front (text ++ '\x7d' :: rest)) (spare : Nat) :
    readMembers fields (spare + members.length + 1) first record front =
      .ok (fill put members record, rest) := by
  induction row generalizing first front record with
  | @last member before text after begun spelled ended =>
    have isOpen : Open fields record (key member) := opens member List.mem_cons_self
    simp only [List.append_assoc] at enters
    have count : spare + [member].length + 1 = (spare + 1) + 1 := rfl
    have ends : Ends (after ++ '\x7d' :: rest) := ends_append ended (by simp [Ends])
    rw [count, readMembers_put serves isOpen begun spelled ends enters]
    exact readMembers_closed (skipBlanks_to ended (by decide) rest)
  | @more member members before text after row begun spelled ended later inductionHypothesis =>
    have isOpen : Open fields record (key member) := opens member List.mem_cons_self
    have others : ∀ other ∈ members, Open fields (put member record) (key other) :=
      open_put serves apart fun other among => opens other (.tail member among)
    simp only [List.append_assoc, List.cons_append] at enters
    have ends : Ends (after ++ ',' :: (row ++ '\x7d' :: rest)) := ends_append ended (by simp [Ends])
    have separated :
        Enters false (after ++ ',' :: (row ++ '\x7d' :: rest)) (row ++ '\x7d' :: rest) :=
      skipBlanks_to ended (by decide) _
    have count : spare + (member :: members).length + 1 = (spare + members.length + 1) + 1 := rfl
    rw [count, readMembers_put serves isOpen begun spelled ends enters]
    exact inductionHypothesis apart.of_cons others separated

/-- An object whose names are open is read as the record with its members put in.

Proof: an empty object is closed at once. Otherwise the text is longer than the row has members, so
the bound of the reader is enough for them. -/
theorem reads_object (serves : Serves fields key Value put) {members : List μ}
    (object : Bracketed '\x7b' '\x7d' (fun member => Member (Spells (key member)) (Value member))
      members text)
    (apart : Apart fields key members) (opens : ∀ member ∈ members, Open fields record (key member))
    (expected : String) :
    Reads (readRecord expected fields record) text (fill put members record) := by
  have begins : ∀ later, ¬ Ends ('\x7b' :: later) := by simp [Ends]
  cases object with
  | @empty between inside =>
    refine ⟨begins _, ?_⟩
    intro blanks rest blank ends
    rw [readRecord, skipBlanks_to_value blank (not_ends_append (begins _) _), bracketed_append]
    exact readMembers_closed (skipBlanks_to inside (by decide) rest)
  | @filled _ row inside =>
    refine ⟨begins _, ?_⟩
    intro blanks rest blank ends
    have visible : ∀ member text, Member (Spells (key member)) (Value member) text → text ≠ [] := by
      rintro member text ⟨⟩
      exact List.cons_ne_nil _ _
    obtain ⟨spare, enough⟩ := inside.exists_spare visible ('\x7d' :: rest)
    have read : readMembers fields (spare + members.length + 1) true record
        (row ++ '\x7d' :: rest) = .ok (fill put members record, rest) :=
      readMembers_row serves inside apart opens
        (show Enters true (row ++ '\x7d' :: rest) (row ++ '\x7d' :: rest) from rfl) spare
    rw [← enough] at read
    rw [readRecord, skipBlanks_to_value blank (not_ends_append (begins _) _), bracketed_append]
    exact read

/-- Where the array is closed, the record is complete. -/
theorem readPositional_closed {later : List (Field ρ)} (closed : skipBlanks front = ']' :: rest) :
    readPositional later first record front = .ok (record, rest) := by
  cases later with
  | nil => simp [readPositional, closed]
  | cons field later => simp [readPositional, nextItem_eq_close_iff.mpr closed, bind, Except.bind]

/-- In front of a value that the next field serves, the value is put in. -/
theorem readPositional_put (serves : Serves fields key Value put) {field : Field ρ}
    {later : List (Field ρ)} {member : μ} (found : fieldOf? fields (key member) = some field)
    (isOpen : Open fields record (key member)) (begun : Blanks before) (spelled : Value member text)
    (ends : Ends rest) (enters : Enters first front (before ++ (text ++ rest))) :
    readPositional (field :: later) first record front =
      readPositional later false (put member record) rest := by
  obtain ⟨begins, reads⟩ := serves.reads member record isOpen _ spelled
  have read : field.read record (text ++ rest) = .ok (put member record, rest) := by
    have read :
        enter fields (key member) record ([] ++ (text ++ rest)) = .ok (put member record, rest) :=
      reads [] rest blanks_nil ends
    simpa only [enter, found, List.nil_append] using read
  have next : nextItem first front = .ok (.item (text ++ rest)) :=
    nextItem_of_text begun (not_ends_append begins _) enters
  simp [readPositional, next, read, bind, Except.bind]

/-- The first of some names is borne by the first field, if the names are those of the fields. -/
theorem fieldOf?_first {field : Field ρ} {later : List (Field ρ)} {names : List (List Char)}
    {count : Nat} (known : ∀ other ∈ field :: later, fieldOf? fields other.name.toList = some other)
    (named : name :: names =
      ((field :: later).map fun field => field.name.toList).take (count + 1)) :
    fieldOf? fields name = some field := by
  have same : name = field.name.toList := List.head_eq_of_cons_eq named
  rw [same, known field List.mem_cons_self]

/-- The values of a row are put into the fields in their order. Fields that are left over keep what
they had.

Proof: by induction on the row. The fields are taken in their order, so each value goes to the field
of its key. -/
theorem readPositional_row (serves : Serves fields key Value put) {members : List μ}
    (row : Row Value members text) {later : List (Field ρ)}
    (known : ∀ field ∈ later, fieldOf? fields field.name.toList = some field)
    (named : members.map key = (later.map fun field => field.name.toList).take members.length)
    (apart : Apart fields key members) (opens : ∀ member ∈ members, Open fields record (key member))
    (enters : Enters first front (text ++ ']' :: rest)) :
    readPositional later first record front = .ok (fill put members record, rest) := by
  induction row generalizing later first front record with
  | @last member before text after begun spelled ended =>
    have isOpen : Open fields record (key member) := opens member List.mem_cons_self
    simp only [List.append_assoc] at enters
    cases later with
    | nil => cases named
    | cons field later =>
      have found : fieldOf? fields (key member) = some field := fieldOf?_first known named
      rw [readPositional_put serves found isOpen begun spelled (ends_append ended (by simp [Ends]))
        enters]
      exact readPositional_closed (skipBlanks_to ended (by decide) rest)
  | @more member members before text after row begun spelled ended others inductionHypothesis =>
    have isOpen : Open fields record (key member) := opens member List.mem_cons_self
    have opens : ∀ other ∈ members, Open fields (put member record) (key other) :=
      open_put serves apart fun other among => opens other (.tail member among)
    simp only [List.append_assoc, List.cons_append] at enters
    have separated : Enters false (after ++ ',' :: (row ++ ']' :: rest)) (row ++ ']' :: rest) :=
      skipBlanks_to ended (by decide) _
    cases later with
    | nil => cases named
    | cons field later =>
      have found : fieldOf? fields (key member) = some field := fieldOf?_first known named
      rw [readPositional_put serves found isOpen begun spelled (ends_append ended (by simp [Ends]))
        enters]
      exact inductionHypothesis (fun field among => known field (.tail _ among))
        (List.tail_eq_of_cons_eq named) apart.of_cons opens separated

/-- An array of the values of the first fields is read as the record with these values put in. -/
theorem reads_array (serves : Serves fields key Value put) {members : List μ}
    (array : Bracketed '[' ']' Value members text)
    (known : ∀ field ∈ fields, fieldOf? fields field.name.toList = some field)
    (named : members.map key = (fields.map fun field => field.name.toList).take members.length)
    (apart : Apart fields key members) (opens : ∀ member ∈ members, Open fields record (key member))
    (expected : String) :
    Reads (readRecord expected fields record) text (fill put members record) := by
  have begins : ∀ later, ¬ Ends ('[' :: later) := by simp [Ends]
  cases array with
  | @empty between inside =>
    refine ⟨begins _, ?_⟩
    intro blanks rest blank ends
    rw [readRecord, skipBlanks_to_value blank (not_ends_append (begins _) _), bracketed_append]
    exact readPositional_closed (skipBlanks_to inside (by decide) rest)
  | @filled _ row inside =>
    refine ⟨begins _, ?_⟩
    intro blanks rest blank ends
    rw [readRecord, skipBlanks_to_value blank (not_ends_append (begins _) _), bracketed_append]
    exact readPositional_row serves inside known named apart opens rfl

end Members

section Texts

variable {μ : Type} {key : μ → List Char} {Value : μ → List Char → Prop} {put : μ → ρ → ρ}

/-- Each of the known names occurs at most once. -/
def Once (known names : List (List Char)) : Prop := (names.filter (· ∈ known)).Nodup

instance (known names : List (List Char)) : Decidable (Once known names) :=
  inferInstanceAs (Decidable (List.Nodup _))

/-- An object text with some members, among which each known name occurs at most once. -/
def ObjectText (key : μ → List Char) (Value : μ → List Char → Prop) (known : List (List Char))
    (members : List μ) (text : List Char) : Prop :=
  Bracketed '\x7b' '\x7d' (fun member => Member (Spells (key member)) (Value member)) members text ∧
    Once known (members.map key)

/-- An array text with the values of the first fields, in their order. -/
def ArrayText (key : μ → List Char) (Value : μ → List Char → Prop) (known : List (List Char))
    (members : List μ) (text : List Char) : Prop :=
  Bracketed '[' ']' Value members text ∧ members.map key = known.take members.length

/-- A text of a record: an object or an array. -/
def RecordText (key : μ → List Char) (Value : μ → List Char → Prop) (known : List (List Char))
    (members : List μ) (text : List Char) : Prop :=
  ObjectText key Value known members text ∨ ArrayText key Value known members text

/-- Members whose known names occur once are apart. -/
theorem apart_of_once {members : List μ} (once : Once (keysOf fields) (members.map key)) :
    Apart fields key members := by
  rw [Once, List.Nodup, List.pairwise_filter, List.pairwise_map] at once
  refine once.imp ?_
  intro member other different
  rw [fieldOf?_eq_none_iff]
  by_cases known : key other ∈ keysOf fields
  · left
    intro same
    rw [← same] at different
    exact different (decide_eq_true known) (decide_eq_true known) rfl
  · exact .inr known

/-- Two members of one known name are the same. -/
theorem same_of_once {known : List (List Char)} {members : List μ}
    (once : Once known (members.map key)) {member other : μ} (among : member ∈ members)
    (otherAmong : other ∈ members) (same : key member = key other) (isKnown : key member ∈ known) :
    member = other := by
  rw [Once, List.filter_map] at once
  apply List.inj_on_of_nodup_map once _ _ same
  · exact List.mem_filter.mpr ⟨among, decide_eq_true isKnown⟩
  · exact List.mem_filter.mpr ⟨otherAmong, decide_eq_true (same ▸ isKnown)⟩

/-- What is found first in some members does not depend on their order, if it is found only under
one known name that occurs at most once. -/
theorem findSome?_perm {known : List (List Char)} {members others : List μ}
    (once : Once known (members.map key)) (reordered : others.Perm members) {β : Type}
    {found : μ → Option β} {name : List Char} (isKnown : name ∈ known)
    (only : ∀ member value, found member = some value → key member = name) :
    others.findSome? found = members.findSome? found := by
  cases seen : members.findSome? found with
  | none =>
    rw [List.findSome?_eq_none_iff] at seen ⊢
    exact fun member among => seen member (reordered.mem_iff.mp among)
  | some value =>
    obtain ⟨member, among, gives⟩ := List.exists_of_findSome?_eq_some seen
    cases seenToo : others.findSome? found with
    | none =>
      rw [List.findSome?_eq_none_iff] at seenToo
      rw [seenToo member (reordered.mem_iff.mpr among)] at gives
      cases gives
    | some other =>
      obtain ⟨otherMember, otherAmong, givesToo⟩ := List.exists_of_findSome?_eq_some seenToo
      have named : key member = name := only member value gives
      have same : member = otherMember := same_of_once once among (reordered.mem_iff.mp otherAmong)
        (named.trans (only otherMember other givesToo).symm) (named ▸ isKnown)
      rw [← givesToo, ← gives, same]

/-- The first few of some different names occur once each. -/
theorem once_of_take {known names : List (List Char)} (distinct : known.Nodup) (count : Nat)
    (named : names = known.take count) : Once known names := by
  subst named
  exact (distinct.sublist (List.take_sublist count known)).filter _

/-- The first field of a name bears it. -/
theorem fieldOf?_name (distinct : (keysOf fields).Nodup) :
    ∀ field ∈ fields, fieldOf? fields field.name.toList = some field := by
  induction fields with
  | nil => exact nofun
  | cons served later inductionHypothesis =>
    obtain ⟨new, distinct⟩ := List.nodup_cons.mp distinct
    intro field member
    rw [fieldOf?]
    rcases List.mem_cons.mp member with rfl | member
    · exact List.find?_cons_of_pos (by simp)
    · have different : served.name.toList ≠ field.name.toList := by
        intro same
        exact new (List.mem_map.mpr ⟨field, member, same.symm⟩)
      rw [List.find?_cons_of_neg (by simpa using different)]
      exact inductionHypothesis distinct field member

/-- The members of a record that is spelled are apart, whether they have names or places. -/
theorem apart_of_recordText (distinct : (keysOf fields).Nodup) {members : List μ} {text : List Char}
    (spelled : RecordText key Value (keysOf fields) members text) : Apart fields key members := by
  rcases spelled with ⟨_, once⟩ | ⟨_, named⟩
  · exact apart_of_once once
  · exact apart_of_once (once_of_take distinct _ named)

/-- A text of a record is read as the record with its members put in. -/
theorem reads_record (serves : Serves fields key Value put) (distinct : (keysOf fields).Nodup)
    {record : ρ} (opens : ∀ name, Open fields record name) {members : List μ} {text : List Char}
    (spelled : RecordText key Value (keysOf fields) members text) (expected : String) :
    Reads (readRecord expected fields record) text (fill put members record) := by
  have apart : Apart fields key members := apart_of_recordText distinct spelled
  have allOpen : ∀ member ∈ members, Open fields record (key member) := fun member _ => opens _
  rcases spelled with ⟨object, _⟩ | ⟨array, named⟩
  · exact reads_object serves object apart allOpen expected
  · exact reads_array serves array (fieldOf?_name distinct) named apart allOpen expected

end Texts

end Sh2Pair.Json
