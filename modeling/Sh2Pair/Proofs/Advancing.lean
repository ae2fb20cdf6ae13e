import Sh2Pair.Config.Slice
import Sh2Pair.Proofs.Passing

/-!
# What a reader takes

A reader that succeeds has taken one value: it leaves the text that passing over the value would
leave. The readers of truth values, counts and named constants take a single piece. Those of
sequences and records go through the brackets by the same steps as the passing does, one value of an
array or one member of an object at a time.

So whatever a well-formed value says, a reader either refuses it or stops right behind it.
-/

namespace Sh2Pair.Json

variable {first : Bool} {text behind rest : List Char}

section Separators

/-- The text behind the comma, or the whole text if there is nothing to separate yet. -/
def Enters : Bool → List Char → List Char → Prop
  | true, text, behind => text = behind
  | false, text, behind => skipBlanks text = ',' :: behind

/-- An array is closed where its bracket comes next. -/
theorem nextItem_eq_close_iff :
    nextItem first text = .ok (.close rest) ↔ skipBlanks text = ']' :: rest := by
  constructor
  · fun_cases nextItem first text with
    | case2 left seen =>
      rintro ⟨⟩
      exact seen
    | case1 | case3 | case4 | case5 | case6 | case7 => exact nofun
  · intro seen
    rw [nextItem, seen]
    rfl

/-- A value follows where the separator is there and something other than the bracket comes behind
it.

Proof: forwards, the cases of the function; only two of them answer with an item. Backwards, an item
is the first one or a comma stands in front of it. -/
theorem nextItem_eq_item_iff {later : List Char} : nextItem first text = .ok (.item later) ↔
    ∃ behind, Enters first text behind ∧ Opens ']' behind ∧ later = skipBlanks behind := by
  constructor
  · fun_cases nextItem first text with
    | case1 | case2 | case4 | case5 | case7 => exact nofun
    | case3 c left more seen isFirst =>
      rintro ⟨⟩
      subst isFirst
      exact ⟨text, rfl, ⟨c, left, seen, more⟩, seen.symm⟩
    | case6 left notFirst _ seen filled more =>
      rintro ⟨⟩
      rw [Bool.not_eq_true] at notFirst
      subst notFirst
      exact ⟨left, seen, opens_of_ne filled more, rfl⟩
  · rintro ⟨behind, enters, ⟨c, left, seen, more⟩, rfl⟩
    cases first with
    | true =>
      cases enters
      simp [nextItem, seen]
    | false =>
      have comma : skipBlanks text = ',' :: behind := enters
      simp [nextItem, comma, seen, more]

/-- An object is closed where its bracket comes next. -/
theorem nextName_eq_close_iff :
    nextName first text = .ok (.close rest) ↔ skipBlanks text = '\x7d' :: rest := by
  constructor
  · fun_cases nextName first text with
    | case2 left seen =>
      rintro ⟨⟩
      exact seen
    | case1 | case3 | case4 | case5 | case6 | case7 | case8 => exact nofun
  · intro seen
    rw [nextName, seen]
    rfl

/-- A name follows where the separator is there and a quote comes behind it.

Proof: forwards, the cases of the function; only two of them answer with a name. Backwards, a name
is the first one or a comma stands in front of it. -/
theorem nextName_eq_name_iff {later : List Char} : nextName first text = .ok (.name later) ↔
    ∃ behind, Enters first text behind ∧ skipBlanks behind = '"' :: later := by
  constructor
  · fun_cases nextName first text with
    | case1 | case2 | case4 | case5 | case7 | case8 => exact nofun
    | case3 left isFirst _ seen =>
      rintro ⟨⟩
      subst isFirst
      exact ⟨text, rfl, seen⟩
    | case6 behind notFirst left seen _ comma =>
      rintro ⟨⟩
      rw [Bool.not_eq_true] at notFirst
      subst notFirst
      exact ⟨behind, comma, seen⟩
  · rintro ⟨behind, enters, seen⟩
    cases first with
    | true =>
      cases enters
      simp [nextName, seen]
    | false =>
      have comma : skipBlanks text = ',' :: behind := enters
      simp [nextName, comma, seen]

end Separators

section Brackets

/-- The passing from inside a bracket to the text behind it. In front of the first piece, what is
crossed is the value that the bracket opens. -/
def Within : Bracket → Bool → List Char → List Char → Prop
  | .array, true, text, rest => ∀ before, skipBlanks before = '[' :: text →
    Crosses .value [] before rest
  | .object, true, text, rest => ∀ before, skipBlanks before = '\x7b' :: text →
    Crosses .value [] before rest
  | bracket, false, text, rest => Crosses .behind [bracket] text rest

/-- An array whose bracket comes next ends behind the bracket. -/
theorem within_closed_array (closed : skipBlanks text = ']' :: rest) :
    Within .array first text rest := by
  cases first with
  | true => exact fun before seen => .last (.emptyArray seen closed)
  | false => exact .last (.closeArray closed)

/-- An array in which a value follows ends where it does behind this value. -/
theorem within_item (enters : Enters first text behind) (opens : Opens ']' behind)
    (inside : Crosses .value [.array] (skipBlanks behind) rest) :
    Within .array first text rest := by
  have onwards : Crosses .value [.array] behind rest :=
    inside.of_skipBlanks (skipBlanks_skipBlanks behind).symm
  cases first with
  | true =>
    cases enters
    exact fun before seen => .array seen opens onwards
  | false => exact .more (.nextItem enters) onwards

/-- An object whose bracket comes next ends behind the bracket. -/
theorem within_closed_object (closed : skipBlanks text = '\x7d' :: rest) :
    Within .object first text rest := by
  cases first with
  | true => exact fun before seen => .last (.emptyObject seen closed)
  | false => exact .last (.closeObject closed)

/-- An object in which a member follows ends where it does behind this member. -/
theorem within_member {value : List Char} (enters : Enters first text behind)
    (named : skipName behind = .ok value) (inside : Crosses .value [.object] value rest) :
    Within .object first text rest := by
  cases first with
  | true =>
    cases enters
    exact fun before seen => .more (.openObject seen named) inside
  | false => exact .more (.nextMember enters named) inside

end Brackets

/-- A reader takes the value that stands in front of it. -/
def Takes {α : Type} (read : List Char → Except Fault (α × List Char)) : Prop :=
  ∀ text value rest, read text = .ok (value, rest) → Crosses .value [] text rest

section Pieces

/-- The reader of truth values takes one value. -/
theorem takes_readTruth : Takes readTruth := by
  intro text value rest
  fun_cases readTruth text with
  | case1 | case4 => exact nofun
  | case2 later seen =>
    intro read
    obtain ⟨left, known, ⟨⟩⟩ := bind_eq_ok_iff.mp read
    exact .last (.truth true (seen.trans (congrArg _ (eq_of_word known))))
  | case3 later seen =>
    intro read
    obtain ⟨left, known, ⟨⟩⟩ := bind_eq_ok_iff.mp read
    exact .last (.truth false (seen.trans (congrArg _ (eq_of_word known))))

/-- Where a value is made of a number, the number itself can be read. -/
theorem read_of_readValue {value : Numeral.Value}
    (read : Numeral.readValue text = .ok (value, rest)) :
    ∃ numeral, Numeral.read text = .ok (numeral, rest) := by
  obtain ⟨⟨numeral, left⟩, numeralRead, stands⟩ := bind_eq_ok_iff.mp read
  cases known : numeral.value? with
  | none => simp [known] at stands
  | some value =>
    simp only [known, Except.ok.injEq, Prod.mk.injEq] at stands
    exact ⟨numeral, stands.2 ▸ numeralRead⟩

/-- The reader of counts takes one value. -/
theorem takes_readCount : Takes readCount := by
  intro text value rest
  fun_cases readCount text with
  | case1 | case3 | case4 | case5 | case6 => exact nofun
  | case2 c later seen begins value left counted =>
    rintro ⟨⟩
    obtain ⟨numeral, read⟩ := read_of_readValue counted
    exact .last (.number seen (beginsNumber_iff.mp begins) read)

/-- A name that is read is passed over, with the colon behind it. -/
theorem skipName_of_read {name later value : List Char} (quoted : skipBlanks text = '"' :: later)
    (read : Text.read later = .ok (name, behind)) (coloned : colon behind = .ok value) :
    skipName text = .ok value := by
  simp [skipName, quoted, Text.skip_of_read read, coloned, bind, Except.bind]

/-- The reader of `null` passes over it. -/
theorem crosses_of_readUnit (read : readUnit text = .ok rest) : Crosses .value [] text rest := by
  revert read
  fun_cases readUnit text with
  | case1 | case3 => exact nofun
  | case2 later seen =>
    intro known
    exact .last (.null (seen.trans (congrArg _ (eq_of_word known))))

/-- The reader of named constants takes one value, whether the name stands alone or in an object.

Proof: the reader is followed through its binds. A name that stands alone is passed over as a
string. An object of one name is opened, its `null` is passed over, and it is closed. -/
theorem takes_readNamed {α : Type} (constants : List (String × α)) :
    Takes (readNamed constants) := by
  intro text value rest
  fun_cases readNamed constants text with
  | case1 | case3 | case5 | case6 => exact nofun
  | case2 later seen =>
    intro read
    obtain ⟨⟨name, left⟩, named, found⟩ := bind_eq_ok_iff.mp read
    obtain ⟨constant, _, ⟨⟩⟩ := bind_eq_ok_iff.mp found
    exact .last (.string seen (Text.skip_of_read named))
  | case4 later seen inside quoted =>
    intro read
    obtain ⟨⟨name, left⟩, named, read⟩ := bind_eq_ok_iff.mp read
    obtain ⟨constant, _, read⟩ := bind_eq_ok_iff.mp read
    obtain ⟨unit, coloned, read⟩ := bind_eq_ok_iff.mp read
    obtain ⟨left, unitRead, read⟩ := bind_eq_ok_iff.mp read
    have passed : skipName later = .ok unit := skipName_of_read quoted named coloned
    split at read
    case h_1 => cases read
    case h_3 => cases read
    case h_2 closed =>
      cases read
      have inside : Crosses .value [.object] unit rest :=
        (crosses_of_readUnit unitRead).andThen (.last (.closeObject closed))
      exact .more (.openObject seen passed) inside

end Pieces

section Sequences

variable {α : Type} {readItem : List Char → Except Fault (α × List Char)}

/-- Reading the values of an array leads to its end, if each value is taken. -/
theorem within_readItems (takes : Takes readItem) {bound : Nat} {values : List α} :
    readItems readItem bound first text = .ok (values, rest) → Within .array first text rest := by
  induction bound generalizing first text values with
  | zero => exact nofun
  | succ bound inductionHypothesis =>
    intro read
    obtain ⟨next, looked, read⟩ := bind_eq_ok_iff.mp read
    cases next with
    | close left =>
      cases read
      exact within_closed_array (nextItem_eq_close_iff.mp looked)
    | item left =>
      obtain ⟨behind, enters, opens, rfl⟩ := nextItem_eq_item_iff.mp looked
      obtain ⟨⟨value, left⟩, taken, read⟩ := bind_eq_ok_iff.mp read
      obtain ⟨⟨later, last⟩, laterRead, ⟨⟩⟩ := bind_eq_ok_iff.mp read
      have crosses : Crosses .value [.array] (skipBlanks behind) rest :=
        .andThen (takes _ _ _ taken) (inductionHypothesis laterRead)
      exact within_item enters opens crosses

/-- The reader of sequences takes one value, if that of the values inside does. -/
theorem takes_readSequence (takes : Takes readItem) : Takes (readSequence readItem) := by
  intro text values rest
  fun_cases readSequence readItem text with
  | case1 | case3 => exact nofun
  | case2 later seen =>
    intro read
    exact within_readItems takes read text seen

end Sequences

section Records

variable {ρ : Type} {fields : List (Field ρ)}

/-- The readers of some fields take the values of the fields. -/
def Attentive (fields : List (Field ρ)) : Prop :=
  ∀ field ∈ fields, ∀ record, Takes (field.read record)

/-- Reading a record by the places of its values leads to the end of the array, if every field takes
one value.

Proof: by induction on the fields. In front of each, the array is closed, or one value is taken and
the later fields lead on. -/
theorem within_readPositional (attentive : Attentive fields) {record after : ρ} :
    readPositional fields first record text = .ok (after, rest) →
      Within .array first text rest := by
  induction fields generalizing first text record with
  | nil =>
    intro read
    rw [readPositional] at read
    split at read
    case h_1 => cases read
    case h_3 => cases read
    case h_2 closed =>
      cases read
      exact within_closed_array closed
  | cons field later inductionHypothesis =>
    intro read
    have others : Attentive later := fun other member =>
      attentive other (List.mem_cons_of_mem field member)
    obtain ⟨next, looked, read⟩ := bind_eq_ok_iff.mp read
    cases next with
    | close left =>
      cases read
      exact within_closed_array (nextItem_eq_close_iff.mp looked)
    | item left =>
      obtain ⟨behind, enters, opens, rfl⟩ := nextItem_eq_item_iff.mp looked
      obtain ⟨⟨between, left⟩, taken, read⟩ := bind_eq_ok_iff.mp read
      have crosses : Crosses .value [.array] (skipBlanks behind) rest :=
        .andThen (attentive field List.mem_cons_self record _ _ _ taken)
          (inductionHypothesis others read)
      exact within_item enters opens crosses

/-- Reading a record by the names of its members leads to the end of the object, if every field
takes one value.

Proof: by induction on the bound. In front of each member, the object is closed, or the value of the
member is taken, by its field or by passing over it, and the later members lead on. -/
theorem within_readMembers (attentive : Attentive fields) {bound : Nat} {record after : ρ} :
    readMembers fields bound first record text = .ok (after, rest) →
      Within .object first text rest := by
  induction bound generalizing first text record with
  | zero => exact nofun
  | succ bound inductionHypothesis =>
    intro read
    obtain ⟨next, looked, read⟩ := bind_eq_ok_iff.mp read
    cases next with
    | close left =>
      cases read
      exact within_closed_object (nextName_eq_close_iff.mp looked)
    | name left =>
      obtain ⟨behind, enters, quoted⟩ := nextName_eq_name_iff.mp looked
      obtain ⟨⟨name, left⟩, named, read⟩ := bind_eq_ok_iff.mp read
      cases found : fields.find? fun field => field.name.toList = name with
      | some field =>
        simp only [found] at read
        split at read
        case isTrue => cases read
        case isFalse =>
          obtain ⟨value, coloned, read⟩ := bind_eq_ok_iff.mp read
          obtain ⟨⟨between, left⟩, taken, read⟩ := bind_eq_ok_iff.mp read
          have takes : Takes (field.read record) :=
            attentive field (List.mem_of_find?_eq_some found) record
          exact within_member enters (skipName_of_read quoted named coloned)
            (.andThen (takes _ _ _ taken) (inductionHypothesis read))
      | none =>
        simp only [found] at read
        obtain ⟨value, coloned, read⟩ := bind_eq_ok_iff.mp read
        obtain ⟨left, passed, read⟩ := bind_eq_ok_iff.mp read
        exact within_member enters (skipName_of_read quoted named coloned)
          (.andThen (Crosses.iff_skipValue.mpr passed) (inductionHypothesis read))

/-- The reader of records takes one value, if every field does. -/
theorem takes_readRecord (attentive : Attentive fields) (expected : String) (record : ρ) :
    Takes (readRecord expected fields record) := by
  intro text value rest
  fun_cases readRecord expected fields record text with
  | case1 | case4 => exact nofun
  | case2 later seen =>
    intro read
    exact within_readPositional attentive read text seen
  | case3 later seen =>
    intro read
    exact within_readMembers attentive read text seen

/-- What is done with a value that has been read does not change what was taken. -/
theorem takes_map {α β : Type} {reader : List Char → Except Fault (α × List Char)}
    (takes : Takes reader) (use : α → β) : Takes fun text =>
      reader text >>= fun read => Except.ok (use read.1, read.2) := by
  intro text used rest read
  obtain ⟨⟨value, left⟩, taken, same⟩ := bind_eq_ok_iff.mp read
  cases same
  exact takes _ _ _ taken

end Records

end Sh2Pair.Json

namespace Sh2Pair

open Json

/-- Every field of the settings of a detector takes one value. -/
theorem PollConfig.attentive_fields : Attentive PollConfig.fields := by
  intro field member record
  simp only [PollConfig.fields, List.mem_cons, List.not_mem_nil, or_false] at member
  rcases member with rfl | rfl
  · exact takes_map takes_readTruth fun value => { record with oneShot := some value }
  · exact takes_map (takes_readSequence (takes_readNamed Event.keys))
      fun value => { record with wakeEvents := some value }

/-- The reader of the settings of a detector takes one value. -/
theorem PollConfig.takes_read : Takes PollConfig.read :=
  takes_map (takes_readRecord PollConfig.attentive_fields _ _) PollConfig.Draft.finish

/-- Every field of the settings of a scheduler takes one value. -/
theorem SliceConfig.attentive_fields : Attentive SliceConfig.fields := by
  intro field member record
  simp only [SliceConfig.fields, List.mem_cons, List.not_mem_nil, or_false] at member
  rcases member with rfl | rfl | rfl | rfl | rfl
  · exact takes_map takes_readCount fun value => { record with cycles := some value }
  · exact takes_map takes_readTruth fun value => { record with masterFirst := some value }
  · exact takes_map takes_readTruth fun value => { record with skipPolling := some value }
  · exact takes_map takes_readTruth fun value => { record with debugContexts := some value }
  · exact takes_map PollConfig.takes_read fun value => { record with poll := some value }

end Sh2Pair
