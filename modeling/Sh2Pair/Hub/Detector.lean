import Sh2Pair.Config.Poll
import Sh2Pair.Cpu

/-!
# Poll detectors

A poll detector keeps, for each processor, whether it polls at the moment, and counts the polls
begun and the wake-ups. A poll begins when the processor is reported to spin, and ends with the
next wake event for the same processor; the report itself never wakes, also when the settings
list it. A poll can also be cleared, which counts as no wake-up.
-/

namespace Sh2Pair

/-- What a detector keeps about one processor. -/
structure Watch where
  polling : Bool
  /-- The number of polls begun. -/
  started : Nat
  /-- The number of polls ended by an event. -/
  wakeups : Nat
  deriving DecidableEq

/-- What an event did to a watch. -/
inductive Reaction where
  | ignored
  | started
  | woken
  deriving DecidableEq

namespace Watch

/-- The watch of a processor that has never polled. -/
def idle : Watch := ⟨false, 0, 0⟩

instance : Inhabited Watch := ⟨idle⟩

/-- What an event would do to a watch. -/
def reaction (config : PollConfig) (watch : Watch) (event : Event) : Reaction :=
  if event = .startPolling then if watch.polling then .ignored else .started
  else if event ∈ config.wakeEvents then if watch.polling then .woken else .ignored
  else .ignored

/-- The watch after a reaction. -/
def after (watch : Watch) : Reaction → Watch
  | .ignored => watch
  | .started => { watch with polling := true, started := watch.started + 1 }
  | .woken => { watch with polling := false, wakeups := watch.wakeups + 1 }

/-- The watch after an event. -/
def receive (config : PollConfig) (watch : Watch) (event : Event) : Watch :=
  watch.after (watch.reaction config event)

/-- The watch after a poll has been cleared. -/
def clear (watch : Watch) : Watch := { watch with polling := false }

/-- A poll begins with a report, if there is none yet. -/
theorem reaction_eq_started_iff (config : PollConfig) (watch : Watch) (event : Event) :
    watch.reaction config event = .started ↔
      event = .startPolling ∧ watch.polling = false := by
  rw [reaction]
  split <;> split <;> simp_all
  split <;> simp

/-- A poll ends with a wake event, which the report itself is not. -/
theorem reaction_eq_woken_iff (config : PollConfig) (watch : Watch) (event : Event) :
    watch.reaction config event = .woken ↔
      event ≠ .startPolling ∧ event ∈ config.wakeEvents ∧ watch.polling = true := by
  rw [reaction]
  split <;> split <;> simp_all

end Watch

/-- A poll detector: its settings, the number of the registry it was attached to, and what it
keeps about each processor. -/
structure Detector where
  config : PollConfig
  home : Nat
  watches : Pair Watch
  deriving Inhabited

namespace Detector

/-- A detector that has seen nothing yet. -/
def fresh (config : PollConfig) (home : Nat) : Detector := ⟨config, home, .both .idle⟩

/-- The name under which a detector is registered for both processors. -/
def name : String := "poller"

/-- Whether the detector takes a processor to be polling. -/
def polling (detector : Detector) (cpu : Cpu) : Bool := (detector.watches.get cpu).polling

/-- What an event for a processor would do to the detector. -/
def reaction (detector : Detector) (cpu : Cpu) (event : Event) : Reaction :=
  (detector.watches.get cpu).reaction detector.config event

/-- The detector after an event for a processor. -/
def receive (detector : Detector) (cpu : Cpu) (event : Event) : Detector :=
  { detector with watches := detector.watches.modify cpu (·.receive detector.config event) }

/-- The detector after the poll of a processor has been cleared. -/
def clear (detector : Detector) (cpu : Cpu) : Detector :=
  { detector with watches := detector.watches.modify cpu .clear }

end Detector

end Sh2Pair
