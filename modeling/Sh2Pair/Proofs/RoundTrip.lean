import Sh2Pair.Proofs.Overrides

/-!
# Settings that are written and read again

Written settings are an object text that gives every setting once, in either layout. So they are
read as what was written, whether a scheduler accepts them or not.
-/

namespace Sh2Pair

open Json

variable {write : Nat → Tree → List Char}

namespace PollConfig

/-- The members of written settings. -/
def entries (config : PollConfig) : List Entry :=
  [.oneShot config.oneShot, .wakeEvents config.wakeEvents]

/-- The members of written settings of a detector give these settings. -/
theorem given_entries (config : PollConfig) : given config.entries = config := rfl

/-- The names of events need no escapes. -/
theorem plain_name (event : Event) : isPlain event.name.toList = true := by
  cases event <;> decide

/-- Written events are a text of the member that lists them. -/
theorem value_events (layout : Layout write) (depth : Nat) (events : List Event) :
    (Entry.wakeEvents events).Value
      (write depth (.array (events.map fun event => .name event.name))) := by
  apply layout.array
  induction events with
  | nil => exact .nil
  | cons event events inductionHypothesis =>
    refine .cons ?_ inductionHypothesis
    rw [layout.name]
    exact .name (spells_self (plain_name event))

/-- Written settings give every setting once. -/
theorem objectText_tree (layout : Layout write) (depth : Nat) (config : PollConfig) :
    ObjectText Entry.key Entry.Value keys config.entries (write depth config.tree) := by
  constructor
  · apply layout.object
    refine .cons (layout.member_text _ (by decide) ?_)
      (.cons (layout.member_text _ (by decide) ?_) .nil)
    · exact layout.truth _ _
    · exact value_events layout _ _
  · exact (by decide : Once keys keys)

/-- Written settings are read as they were. -/
theorem ofText_write (layout : Layout write) (config : PollConfig) :
    ofText (String.ofList (write 0 config.tree)) = .ok config := by
  have reads : Reads read (write 0 config.tree) (given config.entries) :=
    reads_given (.inl (objectText_tree layout 0 config))
  have document : readDocument read (String.ofList ([] ++ (write 0 config.tree ++ []))) =
      .ok (given config.entries) := reads.document blanks_nil blanks_nil
  rw [List.nil_append, List.append_nil, given_entries] at document
  exact document

end PollConfig

namespace SliceConfig

/-- The members of written settings. -/
def entries (config : SliceConfig) : List Entry := [
  .cycles config.cycles, .masterFirst config.masterFirst, .skipPolling config.skipPolling,
  .debugContexts config.debugContexts, .poll config.poll.entries]

/-- The members of written settings of a scheduler give these settings. -/
theorem given_entries (config : SliceConfig) : given config.entries = config := rfl

/-- Written settings give every setting once. -/
theorem objectText_tree (layout : Layout write) (depth : Nat) (config : SliceConfig) :
    ObjectText Entry.key Entry.Value keys config.entries (write depth config.tree) := by
  constructor
  · apply layout.object
    refine .cons (layout.member_text _ (by decide) ?_) (.cons (layout.member_text _ (by decide) ?_)
      (.cons (layout.member_text _ (by decide) ?_) (.cons (layout.member_text _ (by decide) ?_)
        (.cons (layout.member_text _ (by decide) ?_) .nil))))
    · exact layout.number _ _
    · exact layout.truth _ _
    · exact layout.truth _ _
    · exact layout.truth _ _
    · exact .inl (PollConfig.objectText_tree layout _ config.poll)
  · exact (by decide : Once keys keys)

/-- Written settings are read as they were. -/
theorem ofText_write (layout : Layout write) (config : SliceConfig) :
    ofText (String.ofList (write 0 config.tree)) = .ok config := by
  have reads : Reads read (write 0 config.tree) (given config.entries) :=
    reads_given (.inl (objectText_tree layout 0 config))
  have document : readDocument read (String.ofList ([] ++ (write 0 config.tree ++ []))) =
      .ok (given config.entries) := reads.document blanks_nil blanks_nil
  rw [List.nil_append, List.append_nil, given_entries] at document
  exact document

end SliceConfig

/-- Settings of a scheduler and of a poll detector are read as they were written, in either layout,
and so reading, writing and reading again changes nothing.

Proof: both layouts are texts that spell the members of the settings, and the readings of records do
the rest. A text that was accepted gives settings, to which this applies. -/
theorem settings_roundTrip :
    (∀ config : SliceConfig,
      SliceConfig.ofText (String.ofList config.tree.compact) = .ok config ∧
      SliceConfig.ofText (String.ofList config.tree.spread) = .ok config) ∧
    (∀ config : PollConfig,
      PollConfig.ofText (String.ofList config.tree.compact) = .ok config ∧
      PollConfig.ofText (String.ofList config.tree.spread) = .ok config) ∧
    (∀ text config, SliceConfig.ofText text = .ok config →
      SliceConfig.ofText (String.ofList config.tree.compact) = SliceConfig.ofText text ∧
      SliceConfig.ofText (String.ofList config.tree.spread) = SliceConfig.ofText text) ∧
    (∀ text config, PollConfig.ofText text = .ok config →
      PollConfig.ofText (String.ofList config.tree.compact) = PollConfig.ofText text ∧
      PollConfig.ofText (String.ofList config.tree.spread) = PollConfig.ofText text) := by
  have slice : ∀ config : SliceConfig,
      SliceConfig.ofText (String.ofList config.tree.compact) = .ok config ∧
      SliceConfig.ofText (String.ofList config.tree.spread) = .ok config := by
    intro config
    constructor
    · apply SliceConfig.ofText_write Tree.layout_compact
    · apply SliceConfig.ofText_write Tree.layout_spread
  have poll : ∀ config : PollConfig,
      PollConfig.ofText (String.ofList config.tree.compact) = .ok config ∧
      PollConfig.ofText (String.ofList config.tree.spread) = .ok config := by
    intro config
    constructor
    · apply PollConfig.ofText_write Tree.layout_compact
    · apply PollConfig.ofText_write Tree.layout_spread
  refine ⟨slice, poll, ?_, ?_⟩
  · intro text config accepted
    rw [accepted]
    exact slice config
  · intro text config accepted
    rw [accepted]
    exact poll config

/-- Settings that no scheduler accepts, with an event that is listed twice. -/
def SliceConfig.unusual : SliceConfig :=
  { standard with cycles := -8, poll := ⟨false, [.comm, .comm]⟩ }

/-- Unusual settings are read from a text that gives only some of them, and written in either layout
they are read as the same again. So are those of a poll detector that are given by place. -/
theorem settings_roundTrip_unusual :
    SliceConfig.ofText
        "\x7b\"poll\": \x7b\"wake_events\": [\"COMM\", \"COMM\"]\x7d, \"slice_cycles\": -8\x7d" =
        .ok .unusual ∧
      SliceConfig.ofText (String.ofList SliceConfig.unusual.tree.compact) = .ok .unusual ∧
      SliceConfig.ofText (String.ofList SliceConfig.unusual.tree.spread) = .ok .unusual ∧
      PollConfig.ofText "[true, [\"DMA\", \"DMA\"]]" = .ok ⟨true, [.dma, .dma]⟩ ∧
      PollConfig.ofText (String.ofList (PollConfig.tree ⟨true, [.dma, .dma]⟩).spread) =
        .ok ⟨true, [.dma, .dma]⟩ := by
  have accepted : SliceConfig.ofText
      "\x7b\"poll\": \x7b\"wake_events\": [\"COMM\", \"COMM\"]\x7d, \"slice_cycles\": -8\x7d" =
      .ok .unusual := rfl
  have acceptedToo :
      PollConfig.ofText "[true, [\"DMA\", \"DMA\"]]" = .ok ⟨true, [.dma, .dma]⟩ := rfl
  obtain ⟨compact, spread⟩ := settings_roundTrip.2.2.1 _ _ accepted
  obtain ⟨_, spreadToo⟩ := settings_roundTrip.2.2.2 _ _ acceptedToo
  exact ⟨accepted, compact.trans accepted, spread.trans accepted, acceptedToo,
    spreadToo.trans acceptedToo⟩

end Sh2Pair
