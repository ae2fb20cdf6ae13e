import Sh2Pair.Hub.Detector
import Sh2Pair.Hub.Roster
import Sh2Pair.Hub.Table
import Sh2Pair.Text.Outline
import Sh2Pair.Text.Quoted

/-!
# Registries and detectors

A registry has one roster for each processor. A hub is all registries and all detectors, both
known by their numbers. A registry that has never been opened is empty, and so is one that has
been retired.
-/

namespace Sh2Pair

/-- The rosters of both processors. -/
abbrev Registry := Pair Roster

/-- A name is in use already for a processor. -/
structure Duplicate where
  cpu : Cpu
  name : String
  deriving DecidableEq

namespace Duplicate

open Text

/-- The message of a refused registration. -/
def message (duplicate : Duplicate) : List Char :=
  "listener ".toList ++ quoted duplicate.name.toList ++ " is already registered for ".toList ++
    duplicate.cpu.name.toList

end Duplicate

namespace Registry

/-- The registry without registrations. -/
def empty : Registry := .both .empty

open Text in
/-- The outline of a registry: the names in use for each processor. -/
def outline (registry : Registry) : Outline :=
  let names (cpu : Cpu) : Outline :=
    .group .sequence ((registry.get cpu).names.map fun name => .text (quoted name.toList))
  .group (.record "SysEventManager") [
    .field "master" (names .master),
    .field "slave" (names .slave)]

end Registry

/-- All registries and all detectors. -/
structure Hub where
  registries : Table Registry
  detectors : Table Detector

namespace Hub

/-- The hub of no registries and no detectors. -/
def empty : Hub := ⟨.empty, .empty⟩

instance : Inhabited Hub := ⟨empty⟩

/-- The registry of a number. -/
def registry (hub : Hub) (number : Nat) : Registry := hub.registries.get number

/-- The roster of a registry for a processor. -/
def roster (hub : Hub) (number : Nat) (cpu : Cpu) : Roster := (hub.registry number).get cpu

/-- Replaces the roster of a registry for a processor. -/
def setRoster (hub : Hub) (number : Nat) (cpu : Cpu) (roster : Roster) : Hub :=
  { hub with registries := hub.registries.modify number (·.set cpu roster) }

/-- The detector of a number. -/
def detector (hub : Hub) (number : Nat) : Detector := hub.detectors.get number

/-- Changes the detector of a number. -/
def modifyDetector (hub : Hub) (number : Nat) (change : Detector → Detector) : Hub :=
  { hub with detectors := hub.detectors.modify number change }

/-- Replacing a roster changes that roster only. -/
theorem roster_setRoster (hub : Hub) (number seen : Nat) (cpu place : Cpu) (roster : Roster) :
    (hub.setRoster number cpu roster).roster seen place =
      if seen = number ∧ place = cpu then roster else hub.roster seen place := by
  simp only [Hub.roster, registry, setRoster, Table.modify, Table.get_set]
  by_cases same : seen = number
  · subst same
    simp only [if_true, true_and]
    exact Pair.get_set _ cpu place roster
  · simp [same]

/-- Changing a detector changes that detector only. -/
theorem detector_modifyDetector (hub : Hub) (number seen : Nat) (change : Detector → Detector) :
    (hub.modifyDetector number change).detector seen =
      if seen = number then change (hub.detector number) else hub.detector seen :=
  Table.get_set hub.detectors number seen (change (hub.detector number))

/-- Changing a detector leaves all rosters alone. -/
@[simp] theorem roster_modifyDetector (hub : Hub) (number seen : Nat) (cpu : Cpu)
    (change : Detector → Detector) :
    (hub.modifyDetector number change).roster seen cpu = hub.roster seen cpu := rfl

/-- Replacing a roster leaves all detectors alone. -/
@[simp] theorem detectors_setRoster (hub : Hub) (number : Nat) (cpu : Cpu) (roster : Roster) :
    (hub.setRoster number cpu roster).detectors = hub.detectors := rfl

end Hub

end Sh2Pair
