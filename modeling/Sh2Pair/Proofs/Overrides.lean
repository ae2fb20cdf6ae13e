import Sh2Pair.Proofs.Repeats
import Sh2Pair.Proofs.Written

/-!
# Settings that are given in part

A text gives some of the settings, as an object whose names come in any order, with members of
unknown names between them, or as an array of the first few values. What is given is as the text
says it, and everything else is as in the standard settings; the settings of the poll detector are
given in part in the same way.
-/

namespace Sh2Pair

open Json

namespace PollConfig

/-- The names of the settings. -/
def keys : List (List Char) := ["one_shot".toList, "wake_events".toList]

/-- A member of a text that gives some of the settings. -/
inductive Entry where
  | oneShot (value : Bool)
  | wakeEvents (events : List Event)
  /-- A member of a name that no setting has. -/
  | foreign (name : List Char) (unknown : name ∉ keys)

namespace Entry

/-- The name that a member stands under. -/
def key : Entry → List Char
  | oneShot _ => "one_shot".toList
  | wakeEvents _ => "wake_events".toList
  | foreign name _ => name

/-- The texts of the value of a member. -/
def Value : Entry → List Char → Prop
  | oneShot value, text => text = Text.truth value
  | wakeEvents events, text =>
    Bracketed '[' ']' (fun event => NameText event.name.toList) events text
  | foreign _ _, text => WellFormed .value text

/-- Whether to wake once only, if this is the member that says so. -/
def oneShot? : Entry → Option Bool
  | oneShot value => some value
  | _ => none

/-- The events that wake, if this is the member that gives them. -/
def wakeEvents? : Entry → Option (List Event)
  | wakeEvents events => some events
  | _ => none

/-- Puts what a member gives into a draft. -/
def put : Entry → Draft → Draft
  | oneShot value, draft => { draft with oneShot := some value }
  | wakeEvents events, draft => { draft with wakeEvents := some events }
  | foreign _ _, draft => draft

end Entry

/-- The settings that some members give: the standard ones where they give nothing. -/
def given (entries : List Entry) : PollConfig where
  oneShot := (entries.findSome? Entry.oneShot?).getD standard.oneShot
  wakeEvents := (entries.findSome? Entry.wakeEvents?).getD standard.wakeEvents

/-- Every event is found under its name. -/
theorem findNamed_event (event : Event) :
    Json.findNamed Event.keys event.name.toList = .ok event := by
  cases event <;> rfl

/-- The fields of the settings of a detector serve its members. -/
theorem serves_fields : Serves fields Entry.key Entry.Value Entry.put where
  reads := by
    intro entry draft isOpen text spelled
    cases entry with
    | oneShot value =>
      subst spelled
      exact (Json.reads_truth value).map fun value => { draft with oneShot := some value }
    | wakeEvents events =>
      exact (Json.reads_sequence (fun event text => Json.reads_named (findNamed_event event))
        spelled).map fun value => { draft with wakeEvents := some value }
    | foreign name unknown => exact reads_foreign (fieldOf?_eq_none_iff.mpr unknown) spelled draft
  stays := by
    intro entry draft name different isOpen field found
    have absent : field.isGiven draft = false := isOpen field found
    obtain ⟨member, rfl⟩ := field_of_name found
    simp only [fields, List.mem_cons, List.not_mem_nil, or_false] at member
    rcases member with rfl | rfl <;> cases entry <;>
      first | exact absent | exact absurd rfl different

/-- The settings of a detector have different names. -/
theorem distinct_keys : (keysOf fields).Nodup := by decide

/-- In an empty draft, every name is open. -/
theorem open_empty (name : List Char) : Open fields Draft.empty name := by
  intro field found
  obtain ⟨member, _⟩ := field_of_name found
  simp only [fields, List.mem_cons, List.not_mem_nil, or_false] at member
  rcases member with rfl | rfl <;> rfl

/-- Members for different settings are put in where the draft has nothing yet. -/
theorem fill_put (entries : List Entry) {draft : Draft} (apart : Apart fields Entry.key entries)
    (opens : ∀ entry ∈ entries, Open fields draft entry.key) :
    fill Entry.put entries draft =
      ⟨draft.oneShot.or (entries.findSome? Entry.oneShot?),
        draft.wakeEvents.or (entries.findSome? Entry.wakeEvents?)⟩ := by
  induction entries generalizing draft with
  | nil => simp [fill]
  | cons entry entries inductionHypothesis =>
    have isOpen : Open fields draft entry.key := opens entry List.mem_cons_self
    have others : ∀ other ∈ entries, Open fields (entry.put draft) other.key :=
      open_put serves_fields apart fun other among => opens other (.tail entry among)
    rw [fill, List.foldl_cons]
    refine (inductionHypothesis apart.of_cons others).trans ?_
    cases entry with
    | oneShot value =>
      have absent : draft.oneShot = none := by simpa using isOpen _ rfl
      rw [absent]
      rfl
    | wakeEvents events =>
      have absent : draft.wakeEvents = none := by simpa using isOpen _ rfl
      rw [absent]
      rfl
    | foreign name unknown => rfl

/-- A text that gives some of the settings is read as these, with the standard ones for the rest. -/
theorem reads_given {entries : List Entry} {text : List Char}
    (spelled : RecordText Entry.key Entry.Value keys entries text) :
    Reads read text (given entries) := by
  have record : Reads (readRecord "struct PollDetectorConfig" fields Draft.empty) text
      (fill Entry.put entries Draft.empty) :=
    reads_record serves_fields distinct_keys open_empty spelled
      "struct PollDetectorConfig"
  have apart : Apart fields Entry.key entries := apart_of_recordText distinct_keys spelled
  have finished : (fill Entry.put entries Draft.empty).finish = given entries := by
    rw [fill_put entries apart fun entry _ => open_empty _]
    rfl
  exact finished ▸ record.map Draft.finish

/-- Reading a setting of a detector marks it as given, and no other setting as missing. -/
theorem marks_fields : Marks fields := by
  constructor
  · intro field member draft text after rest read
    simp only [fields, List.mem_cons, List.not_mem_nil, or_false] at member
    rcases member with rfl | rfl
    all_goals
      obtain ⟨_, _, same⟩ := bind_eq_ok_iff.mp read
      cases same
      rfl
  · intro field member other among draft text after rest read given
    simp only [fields, List.mem_cons, List.not_mem_nil, or_false] at member among
    rcases member with rfl | rfl <;> rcases among with rfl | rfl
    all_goals
      obtain ⟨_, _, same⟩ := bind_eq_ok_iff.mp read
      cases same
      first | exact given | rfl

/-- A known name that comes a second time makes the reading fail. -/
theorem fails_repeats {text : List Char} (repeats : RepeatsName keys text) : Fails read text :=
  (fails_repeated attentive_fields marks_fields repeats).map Draft.finish

end PollConfig

namespace SliceConfig

/-- The names of the settings. -/
def keys : List (List Char) := [
  "slice_cycles".toList, "master_first".toList, "skip_polling".toList, "debug_contexts".toList,
  "poll".toList]

/-- A member of a text that gives some of the settings. -/
inductive Entry where
  | cycles (value : Int32)
  | masterFirst (value : Bool)
  | skipPolling (value : Bool)
  | debugContexts (value : Bool)
  /-- The settings of the poll detector, given in part as well. -/
  | poll (entries : List PollConfig.Entry)
  /-- A member of a name that no setting has. -/
  | foreign (name : List Char) (unknown : name ∉ keys)

namespace Entry

/-- The name that a member stands under. -/
def key : Entry → List Char
  | cycles _ => "slice_cycles".toList
  | masterFirst _ => "master_first".toList
  | skipPolling _ => "skip_polling".toList
  | debugContexts _ => "debug_contexts".toList
  | poll _ => "poll".toList
  | foreign name _ => name

/-- The texts of the value of a member. -/
def Value : Entry → List Char → Prop
  | cycles value, text => text = Text.integer value.toInt
  | masterFirst value, text => text = Text.truth value
  | skipPolling value, text => text = Text.truth value
  | debugContexts value, text => text = Text.truth value
  | poll entries, text =>
    RecordText PollConfig.Entry.key PollConfig.Entry.Value PollConfig.keys entries text
  | foreign _ _, text => WellFormed .value text

/-- The budget of a turn, if this is the member that gives it. -/
def cycles? : Entry → Option Int32
  | cycles value => some value
  | _ => none

/-- Whether the master is first, if this is the member that says so. -/
def masterFirst? : Entry → Option Bool
  | masterFirst value => some value
  | _ => none

/-- Whether to pass over turns, if this is the member that says so. -/
def skipPolling? : Entry → Option Bool
  | skipPolling value => some value
  | _ => none

/-- Whether contexts are made for debugging, if this is the member that says so. -/
def debugContexts? : Entry → Option Bool
  | debugContexts value => some value
  | _ => none

/-- The settings of the poll detector, if this is the member that gives them. -/
def poll? : Entry → Option PollConfig
  | poll entries => some (PollConfig.given entries)
  | _ => none

/-- Puts what a member gives into a draft. -/
def put : Entry → Draft → Draft
  | cycles value, draft => { draft with cycles := some value }
  | masterFirst value, draft => { draft with masterFirst := some value }
  | skipPolling value, draft => { draft with skipPolling := some value }
  | debugContexts value, draft => { draft with debugContexts := some value }
  | poll entries, draft => { draft with poll := some (PollConfig.given entries) }
  | foreign _ _, draft => draft

end Entry

/-- The settings that some members give: the standard ones where they give nothing. -/
def given (entries : List Entry) : SliceConfig where
  cycles := (entries.findSome? Entry.cycles?).getD standard.cycles
  masterFirst := (entries.findSome? Entry.masterFirst?).getD standard.masterFirst
  skipPolling := (entries.findSome? Entry.skipPolling?).getD standard.skipPolling
  debugContexts := (entries.findSome? Entry.debugContexts?).getD standard.debugContexts
  poll := (entries.findSome? Entry.poll?).getD standard.poll

/-- The settings of a scheduler have different names. -/
theorem distinct_keys : (keysOf fields).Nodup := by decide

/-- The fields of the settings of a scheduler serve its members.

Proof: one case per member for its reader. Putting in one member opens or closes no other field. -/
theorem serves_fields : Serves fields Entry.key Entry.Value Entry.put where
  reads := by
    intro entry draft isOpen text spelled
    cases entry with
    | cycles value =>
      subst spelled
      exact (reads_count value).map fun value => { draft with cycles := some value }
    | masterFirst value =>
      subst spelled
      exact (reads_truth value).map fun value => { draft with masterFirst := some value }
    | skipPolling value =>
      subst spelled
      exact (reads_truth value).map fun value => { draft with skipPolling := some value }
    | debugContexts value =>
      subst spelled
      exact (reads_truth value).map fun value => { draft with debugContexts := some value }
    | poll entries =>
      exact (PollConfig.reads_given spelled).map fun value => { draft with poll := some value }
    | foreign name unknown => exact reads_foreign (fieldOf?_eq_none_iff.mpr unknown) spelled draft
  stays := by
    intro entry draft name different isOpen field found
    have absent : field.isGiven draft = false := isOpen field found
    obtain ⟨member, rfl⟩ := field_of_name found
    simp only [fields, List.mem_cons, List.not_mem_nil, or_false] at member
    rcases member with rfl | rfl | rfl | rfl | rfl <;> cases entry <;>
      first | exact absent | exact absurd rfl different

/-- In an empty draft, every name is open. -/
theorem open_empty (name : List Char) : Open fields Draft.empty name := by
  intro field found
  obtain ⟨member, _⟩ := field_of_name found
  simp only [fields, List.mem_cons, List.not_mem_nil, or_false] at member
  rcases member with rfl | rfl | rfl | rfl | rfl <;> rfl

/-- Members for different settings are put in where the draft has nothing yet.

Proof: by induction on the members. A known member fills its own setting, which is open, and leaves
the others open. -/
theorem fill_put (entries : List Entry) {draft : Draft} (apart : Apart fields Entry.key entries)
    (opens : ∀ entry ∈ entries, Open fields draft entry.key) :
    fill Entry.put entries draft =
      ⟨draft.cycles.or (entries.findSome? Entry.cycles?),
        draft.masterFirst.or (entries.findSome? Entry.masterFirst?),
        draft.skipPolling.or (entries.findSome? Entry.skipPolling?),
        draft.debugContexts.or (entries.findSome? Entry.debugContexts?),
        draft.poll.or (entries.findSome? Entry.poll?)⟩ := by
  induction entries generalizing draft with
  | nil => simp [fill]
  | cons entry entries inductionHypothesis =>
    have isOpen : Open fields draft entry.key := opens entry List.mem_cons_self
    have others : ∀ other ∈ entries, Open fields (entry.put draft) other.key :=
      open_put serves_fields apart fun other among => opens other (.tail entry among)
    rw [fill, List.foldl_cons]
    refine (inductionHypothesis apart.of_cons others).trans ?_
    cases entry with
    | cycles value =>
      have absent : draft.cycles = none := by simpa using isOpen _ rfl
      rw [absent]
      rfl
    | masterFirst value =>
      have absent : draft.masterFirst = none := by simpa using isOpen _ rfl
      rw [absent]
      rfl
    | skipPolling value =>
      have absent : draft.skipPolling = none := by simpa using isOpen _ rfl
      rw [absent]
      rfl
    | debugContexts value =>
      have absent : draft.debugContexts = none := by simpa using isOpen _ rfl
      rw [absent]
      rfl
    | poll polled =>
      have absent : draft.poll = none := by simpa using isOpen _ rfl
      rw [absent]
      rfl
    | foreign name unknown => rfl

/-- A text that gives some of the settings is read as these, with the standard ones for the rest. -/
theorem reads_given {entries : List Entry} {text : List Char}
    (spelled : RecordText Entry.key Entry.Value keys entries text) :
    Reads read text (given entries) := by
  have record : Reads (readRecord "struct SmpConfig" fields Draft.empty) text
      (fill Entry.put entries Draft.empty) :=
    reads_record serves_fields distinct_keys open_empty spelled "struct SmpConfig"
  have apart : Apart fields Entry.key entries := apart_of_recordText distinct_keys spelled
  have finished : (fill Entry.put entries Draft.empty).finish = given entries := by
    rw [fill_put entries apart fun entry _ => open_empty _]
    rfl
  exact finished ▸ record.map Draft.finish

/-- Reading a setting of a scheduler marks it as given, and no other setting as missing. -/
theorem marks_fields : Marks fields := by
  constructor
  · intro field member draft text after rest read
    simp only [fields, List.mem_cons, List.not_mem_nil, or_false] at member
    rcases member with rfl | rfl | rfl | rfl | rfl
    all_goals
      obtain ⟨_, _, same⟩ := bind_eq_ok_iff.mp read
      cases same
      rfl
  · intro field member other among draft text after rest read given
    simp only [fields, List.mem_cons, List.not_mem_nil, or_false] at member among
    rcases member with rfl | rfl | rfl | rfl | rfl <;>
      rcases among with rfl | rfl | rfl | rfl | rfl
    all_goals
      obtain ⟨_, _, same⟩ := bind_eq_ok_iff.mp read
      cases same
      first | exact given | rfl

/-- A text that begins like settings in which a known name comes a second time, among the settings
themselves or among those of the poll detector. -/
inductive Repeats : List Char → Prop where
  | name {text : List Char} (repeats : RepeatsName keys text) : Repeats text
  /-- The settings of the poll detector are a member of an object. -/
  | pollMember {names : List (List Char)} {lead text between gap value : List Char}
      (leading : Lead AnyMember names lead) (spelled : Spells "poll".toList text)
      (blanks : Blanks between) (blanksToo : Blanks gap)
      (repeats : RepeatsName PollConfig.keys value) :
      Repeats ('\x7b' :: (lead ++ '"' :: (text ++ '"' :: (between ++ ':' :: (gap ++ value)))))
  /-- The settings of the poll detector are the last value of an array. -/
  | pollValue {lead value : List Char}
      (leading : Lead (fun _ => WellFormed .value) (keys.take 4) lead)
      (repeats : RepeatsName PollConfig.keys value) : Repeats ('[' :: (lead ++ value))

/-- A known name that comes a second time makes the reading fail. -/
theorem fails_repeats {text : List Char} (repeats : Repeats text) : Fails read text := by
  have poll : ∀ {value : List Char}, RepeatsName PollConfig.keys value → ∀ draft : Draft,
      Fails (fun text => PollConfig.read text >>= fun read =>
        Except.ok ({ draft with poll := some read.1 }, read.2)) value := by
    intro value repeats draft
    exact (PollConfig.fails_repeats repeats).map fun value => { draft with poll := some value }
  cases repeats with
  | name repeats => exact (fails_repeated attentive_fields marks_fields repeats).map Draft.finish
  | pollMember leading spelled blanks blanksToo repeats =>
    have found : fieldOf? fields "poll".toList = fields[4]? := rfl
    exact (fails_member attentive_fields marks_fields leading found spelled blanks blanksToo
      (poll repeats)).map Draft.finish
  | pollValue leading repeats =>
    have attentive : Attentive (fields.take 4) := fun field member =>
      attentive_fields field (List.mem_of_mem_take member)
    have begins : ∀ value, RepeatsName PollConfig.keys value → ¬ Ends value := by
      rintro value ⟨⟩
      simp [Ends]
    exact (fails_array leading attentive rfl (begins _ repeats) (poll repeats)).map Draft.finish

/-- The order of the members does not matter.

Proof: of every known name there is one member at most, so it is found wherever it stands. -/
theorem given_perm {entries others : List Entry} (once : Once keys (entries.map Entry.key))
    (reordered : others.Perm entries) : given others = given entries := by
  have cycles : others.findSome? Entry.cycles? = entries.findSome? Entry.cycles? := by
    refine findSome?_perm once reordered (show (Entry.cycles 0).key ∈ keys by decide) ?_
    rintro ⟨⟩ value ⟨⟩
    rfl
  have masterFirst :
      others.findSome? Entry.masterFirst? = entries.findSome? Entry.masterFirst? := by
    refine findSome?_perm once reordered (show (Entry.masterFirst true).key ∈ keys by decide) ?_
    rintro ⟨⟩ value ⟨⟩
    rfl
  have skipPolling :
      others.findSome? Entry.skipPolling? = entries.findSome? Entry.skipPolling? := by
    refine findSome?_perm once reordered (show (Entry.skipPolling true).key ∈ keys by decide) ?_
    rintro ⟨⟩ value ⟨⟩
    rfl
  have debugContexts :
      others.findSome? Entry.debugContexts? = entries.findSome? Entry.debugContexts? := by
    refine findSome?_perm once reordered (show (Entry.debugContexts true).key ∈ keys by decide) ?_
    rintro ⟨⟩ value ⟨⟩
    rfl
  have poll : others.findSome? Entry.poll? = entries.findSome? Entry.poll? := by
    refine findSome?_perm once reordered (show (Entry.poll []).key ∈ keys by decide) ?_
    rintro ⟨⟩ value ⟨⟩
    rfl
  rw [given, given, cycles, masterFirst, skipPolling, debugContexts, poll]

/-- A text stands in a document with blanks around it. -/
def Document (text : List Char) (document : String) : Prop :=
  ∃ before after, Blanks before ∧ Blanks after ∧
    document = String.ofList (before ++ (text ++ after))

/-- Settings that are given in part override the standard ones and nothing else. An object is
accepted, whatever subset of the names occurs in it, in whatever order, layout and company of
members of unknown names, and the settings are those that the members give. An array of the first
values says the same as an object with these members. A known name that comes a second time is
refused, whatever well-formed members stand in front of it and whatever follows.

Proof: an object or an array is read as the members it spells, by the readings of records. Where no
known name comes twice, the order of the members does not matter. That a second one is refused is
`fails_repeats`. -/
theorem ofText_overrides :
    (∀ entries text document, ObjectText Entry.key Entry.Value keys entries text →
      Document text document → ofText document = .ok (given entries)) ∧
    (∀ entries listed text array document arrayDocument,
      ArrayText Entry.key Entry.Value keys listed array →
      ObjectText Entry.key Entry.Value keys entries text → entries.Perm listed →
      Document text document → Document array arrayDocument →
        ofText arrayDocument = ofText document ∧ ofText document = .ok (given entries)) ∧
    (∀ text document before, Repeats text → Blanks before →
      document = String.ofList (before ++ text) → ∃ fault, ofText document = .error fault) := by
  have reads : ∀ entries text document, RecordText Entry.key Entry.Value keys entries text →
      Document text document → ofText document = .ok (given entries) := by
    rintro entries text document spelled ⟨before, after, begun, ended, rfl⟩
    exact (reads_given spelled).document begun ended
  refine ⟨?_, ?_, ?_⟩
  · intro entries text document object
    exact reads entries text document (.inl object)
  · intro entries listed text array document arrayDocument inOrder object reordered around aroundToo
    have once : Once keys (listed.map Entry.key) := once_of_take distinct_keys _ inOrder.2
    rw [reads listed array arrayDocument (.inr inOrder) aroundToo,
      reads entries text document (.inl object) around, given_perm once reordered]
    exact ⟨rfl, rfl⟩
  · rintro text _ before repeats begun rfl
    exact (fails_repeats repeats).document begun

/-- Two settings that are given among blanks and behind a member of an unknown name, one of them a
setting of the poll detector; the first setting, given by place and by name; and a name that comes a
second time. -/
theorem ofText_overrides_few :
    ofText
        " \x7b\"new\" : [null],\n\"poll\":\x7b\"one_shot\":true\x7d, \"skip_polling\":false\x7d\n" =
        .ok { standard with skipPolling := false, poll := ⟨true, standard.poll.wakeEvents⟩ } ∧
      ofText "[32]" = ofText "\x7b\"slice_cycles\":32\x7d" ∧
      ∃ fault, ofText "\x7b\"skip_polling\":false,\"skip_polling\"" = .error fault := by
  have layout : Layout fun _ => Tree.compact := Tree.layout_compact
  obtain ⟨overrides, listed, repeated⟩ := ofText_overrides
  have skipPolling : Spells "skip_polling".toList "skip_polling".toList := spells_self (by decide)
  refine ⟨?_, ?_, ?_⟩
  · have blank : Blanks [' '] := by decide
    have line : Blanks ['\n'] := by decide
    have list : WellFormed .value "[null]".toList :=
      .array (.lastItem blanks_nil .null blanks_nil)
    have new : Member (Spells "new".toList) (WellFormed .value) "\"new\" : [null]".toList :=
      .parts (spells_self (by decide)) blank blank list
    have polled : RecordText PollConfig.Entry.key PollConfig.Entry.Value PollConfig.keys
        [.oneShot true] "\x7b\"one_shot\":true\x7d".toList :=
      .inl ⟨layout.object 0 [.member "one_shot" (.truth true)]
        (.cons (layout.member_text 0 (by decide) rfl) .nil), by decide⟩
    have poll : Member (Spells "poll".toList) (Entry.poll [.oneShot true]).Value
        "\"poll\":\x7b\"one_shot\":true\x7d".toList :=
      .parts (spells_self (by decide)) blanks_nil blanks_nil polled
    have skip : Member (Spells "skip_polling".toList) (Entry.skipPolling false).Value
        "\"skip_polling\":false".toList :=
      .parts skipPolling blanks_nil blanks_nil rfl
    have row : Row (fun entry => Member (Spells (Entry.key entry)) (Entry.Value entry))
        [.foreign "new".toList (by decide), .poll [.oneShot true], .skipPolling false] _ :=
      .more blanks_nil new blanks_nil (.more line poll blanks_nil (.last blank skip blanks_nil))
    have object : ObjectText Entry.key Entry.Value keys
        [.foreign "new".toList (by decide), .poll [.oneShot true], .skipPolling false] _ :=
      ⟨.filled row, by decide⟩
    exact overrides _ _ _ object ⟨[' '], ['\n'], blank, line, rfl⟩
  · have array : ArrayText Entry.key Entry.Value keys [.cycles 32]
        (Tree.compact (.array [.number 32])) :=
      ⟨layout.array 0 _ (.cons rfl .nil), by decide⟩
    have object : ObjectText Entry.key Entry.Value keys [.cycles 32]
        (Tree.compact (.object [.member "slice_cycles" (.number 32)])) :=
      ⟨layout.object 0 _ (.cons (layout.member_text 0 (by decide) rfl) .nil), by decide⟩
    have same : ofText "[32]" = ofText "\x7b\"slice_cycles\":32\x7d" ∧
        ofText "\x7b\"slice_cycles\":32\x7d" = .ok (given [.cycles 32]) :=
      listed _ _ _ _ "\x7b\"slice_cycles\":32\x7d" "[32]" array object (.refl _)
        ⟨[], [], blanks_nil, blanks_nil, rfl⟩ ⟨[], [], blanks_nil, blanks_nil, rfl⟩
    exact same.1
  · have member : AnyMember "skip_polling".toList "\"skip_polling\":false".toList :=
      .parts skipPolling blanks_nil blanks_nil (.truth false)
    have leading : Lead AnyMember ["skip_polling".toList] "\"skip_polling\":false,".toList :=
      .more blanks_nil member blanks_nil (.start blanks_nil)
    have repeats : RepeatsName keys
        ('\x7b' :: ("\"skip_polling\":false,".toList ++ '"' :: ("skip_polling".toList ++ ['"']))) :=
      .again leading (by decide) (by decide) skipPolling
    exact repeated _ _ [] (.name repeats) blanks_nil rfl

end SliceConfig

end Sh2Pair
