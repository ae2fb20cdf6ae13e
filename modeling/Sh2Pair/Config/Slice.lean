import Sh2Pair.Config.Poll
import Sh2Pair.Context.Basic

/-!
# Settings of a scheduler

How many cycles each processor gets per slice, who runs first, whether a processor that polls
is skipped, and the settings of the poll detector. Any settings can be written down and read;
`check` says whether a scheduler accepts them.
-/

namespace Sh2Pair

/-- The settings of a scheduler. -/
structure SliceConfig where
  /-- The cycles granted to each processor per slice. -/
  cycles : Int32
  /-- Run the master before the slave within a slice. -/
  masterFirst : Bool
  /-- Pass over the turn of a processor that polls. -/
  skipPolling : Bool
  /-- Make contexts with their debug flag set. -/
  debugContexts : Bool
  poll : PollConfig
  deriving DecidableEq

/-- Why settings are not accepted. -/
inductive ConfigFault where
  /-- No cycles, or fewer, are granted. -/
  | nonPositive (cycles : Int32)
  /-- More cycles are granted than a slice may have. -/
  | tooLarge (cycles : Int32)
  deriving DecidableEq

namespace SliceConfig

/-- The greatest number of cycles of one slice, so that the processors do not drift apart. -/
def maxCycles : Int32 := 1048576

/-- The settings of which nothing is given. -/
def standard : SliceConfig where
  cycles := 1024
  masterFirst := true
  skipPolling := true
  debugContexts := false
  poll := .standard

instance : Inhabited SliceConfig := ⟨standard⟩

/-- Why the settings are not accepted, if they are not. -/
def check (config : SliceConfig) : Except ConfigFault Unit :=
  if config.cycles.toInt ≤ 0 then .error (.nonPositive config.cycles)
  else if config.cycles.toInt > maxCycles.toInt then .error (.tooLarge config.cycles)
  else .ok ()

/-- Settings that are accepted grant some cycles. -/
theorem pos_of_check {config : SliceConfig} (accepted : config.check = .ok ()) :
    0 < config.cycles.toInt := by
  by_cases positive : 0 < config.cycles.toInt
  · exact positive
  · rw [check, if_pos (Int.not_lt.mp positive)] at accepted
    contradiction

/-- The processor that runs first within a slice. -/
def firstCpu (config : SliceConfig) : Cpu := if config.masterFirst then .master else .slave

/-- The order of turns within a slice. -/
def order (config : SliceConfig) : List Cpu := [config.firstCpu, config.firstCpu.other]

/-- Fresh contexts for both processors. -/
def contexts (config : SliceConfig) : Pair Context :=
  ⟨.fresh .master config.debugContexts, .fresh .slave config.debugContexts⟩

/-- The settings as a value to be written. -/
def tree (config : SliceConfig) : Json.Tree :=
  .object [
    .member "slice_cycles" (.number config.cycles.toInt),
    .member "master_first" (.truth config.masterFirst),
    .member "skip_polling" (.truth config.skipPolling),
    .member "debug_contexts" (.truth config.debugContexts),
    .member "poll" config.poll.tree]

/-- The outline of the settings. -/
def outline (config : SliceConfig) : Text.Outline :=
  .group (.record "SmpConfig") [
    .field "slice_cycles" (.text (Text.integer config.cycles.toInt)),
    .field "master_first" (.text (Text.truth config.masterFirst)),
    .field "skip_polling" (.text (Text.truth config.skipPolling)),
    .field "debug_contexts" (.text (Text.truth config.debugContexts)),
    .field "poll" config.poll.outline]

/-- Settings of which some may not be given yet. -/
structure Draft where
  cycles : Option Int32
  masterFirst : Option Bool
  skipPolling : Option Bool
  debugContexts : Option Bool
  poll : Option PollConfig

/-- Settings of which none is given. -/
def Draft.empty : Draft := ⟨none, none, none, none, none⟩

/-- Completes a draft: what is not given is as in the standard settings. -/
def Draft.finish (draft : Draft) : SliceConfig where
  cycles := draft.cycles.getD standard.cycles
  masterFirst := draft.masterFirst.getD standard.masterFirst
  skipPolling := draft.skipPolling.getD standard.skipPolling
  debugContexts := draft.debugContexts.getD standard.debugContexts
  poll := draft.poll.getD standard.poll

/-- The fields of the settings, in order. -/
def fields : List (Json.Field Draft) := [
  { name := "slice_cycles"
    isGiven := fun draft => draft.cycles.isSome
    read := fun draft text => do
      let (value, rest) ← Json.readCount text
      .ok ({ draft with cycles := some value }, rest) },
  { name := "master_first"
    isGiven := fun draft => draft.masterFirst.isSome
    read := fun draft text => do
      let (value, rest) ← Json.readTruth text
      .ok ({ draft with masterFirst := some value }, rest) },
  { name := "skip_polling"
    isGiven := fun draft => draft.skipPolling.isSome
    read := fun draft text => do
      let (value, rest) ← Json.readTruth text
      .ok ({ draft with skipPolling := some value }, rest) },
  { name := "debug_contexts"
    isGiven := fun draft => draft.debugContexts.isSome
    read := fun draft text => do
      let (value, rest) ← Json.readTruth text
      .ok ({ draft with debugContexts := some value }, rest) },
  { name := "poll"
    isGiven := fun draft => draft.poll.isSome
    read := fun draft text => do
      let (value, rest) ← PollConfig.read text
      .ok ({ draft with poll := some value }, rest) }]

/-- Reads settings in front of a text. -/
def read (text : List Char) : Except Json.Fault (SliceConfig × List Char) := do
  let (draft, rest) ← Json.readRecord "struct SmpConfig" fields Draft.empty text
  .ok (draft.finish, rest)

/-- The settings that a text describes. -/
def ofText (text : String) : Except Json.Fault SliceConfig := Json.readDocument read text

end SliceConfig

namespace ConfigFault

/-- The message of a fault. -/
def message : ConfigFault → List Char
  | .nonPositive cycles =>
    "slice_cycles must be positive (got ".toList ++ Text.integer cycles.toInt ++ [')']
  | .tooLarge cycles =>
    "slice_cycles ".toList ++ Text.integer cycles.toInt ++ " exceeds maximum ".toList ++
      Text.integer SliceConfig.maxCycles.toInt

end ConfigFault

end Sh2Pair
