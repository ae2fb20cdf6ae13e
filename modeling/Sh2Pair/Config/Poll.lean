import Sh2Pair.Config.Names
import Sh2Pair.Json.Tree
import Sh2Pair.Text.Outline

/-!
# Settings of a poll detector

Which events end a poll, and whether the detector leaves the registry of a processor after the
first poll that ended there.
-/

namespace Sh2Pair

/-- The settings of a poll detector. -/
structure PollConfig where
  /-- Leave the registry of a processor after its first wake-up. -/
  oneShot : Bool
  /-- The events that end a poll. -/
  wakeEvents : List Event
  deriving DecidableEq

namespace PollConfig

/-- Stay registered, and wake on every event that comes from outside the processor. -/
def standard : PollConfig := ⟨false, [.int, .sys, .sdram, .comm, .dma, .pwm, .vdp]⟩

instance : Inhabited PollConfig := ⟨standard⟩

/-- The settings as a value to be written. -/
def tree (config : PollConfig) : Json.Tree :=
  .object [
    .member "one_shot" (.truth config.oneShot),
    .member "wake_events" (.array (config.wakeEvents.map fun event => .name event.name))]

/-- The outline of the settings. -/
def outline (config : PollConfig) : Text.Outline :=
  .group (.record "PollDetectorConfig") [
    .field "one_shot" (.text (Text.truth config.oneShot)),
    .field "wake_events" (.group .sequence
      (config.wakeEvents.map fun event => .text event.title.toList))]

/-- Settings of which some may not be given yet. -/
structure Draft where
  oneShot : Option Bool
  wakeEvents : Option (List Event)

/-- Settings of which none is given. -/
def Draft.empty : Draft := ⟨none, none⟩

/-- Completes a draft: what is not given is as in the standard settings. -/
def Draft.finish (draft : Draft) : PollConfig :=
  ⟨draft.oneShot.getD standard.oneShot, draft.wakeEvents.getD standard.wakeEvents⟩

/-- The fields of the settings, in order. -/
def fields : List (Json.Field Draft) := [
  { name := "one_shot"
    isGiven := fun draft => draft.oneShot.isSome
    read := fun draft text => do
      let (value, rest) ← Json.readTruth text
      .ok ({ draft with oneShot := some value }, rest) },
  { name := "wake_events"
    isGiven := fun draft => draft.wakeEvents.isSome
    read := fun draft text => do
      let (value, rest) ← Json.readSequence (Json.readNamed Event.keys) text
      .ok ({ draft with wakeEvents := some value }, rest) }]

/-- Reads settings in front of a text. -/
def read (text : List Char) : Except Json.Fault (PollConfig × List Char) := do
  let (draft, rest) ← Json.readRecord "struct PollDetectorConfig" fields Draft.empty text
  .ok (draft.finish, rest)

/-- The settings that a text describes. -/
def ofText (text : String) : Except Json.Fault PollConfig := Json.readDocument read text

end PollConfig

end Sh2Pair
