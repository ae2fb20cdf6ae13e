import Sh2Pair.Hub.Basic
import Sh2Pair.Journal

/-!
# The world of events

The world is everything that events can reach: the hub, the journal, and whatever state the
outside listeners keep. This module holds the operations that call no outside listener:
registering and removing, attaching and clearing detectors, opening and retiring registries, and
telling a detector about an event.

Registrations are all or nothing. A refused one leaves the hub as it was, and a registration for
both processors is refused as a whole if the name is in use for either, the master first.
-/

namespace Sh2Pair

/-- What stands outside the library: the state of the outside listeners, and the notes they may
leave in the journal. -/
structure Host where
  State : Type
  Note : Type

/-- Everything that events can reach. -/
structure World (H : Host) where
  hub : Hub
  /-- What happened, the latest first. -/
  journal : List (Entry H.Note)
  /-- The number of fires so far, which numbers the next one. -/
  fires : Nat
  host : H.State

namespace World

variable {H : Host}

/-- A world in which nothing has happened. -/
def initial (host : H.State) : World H := ⟨.empty, [], 0, host⟩

/-- Adds an entry to the journal. -/
def record (world : World H) (entry : Entry H.Note) : World H :=
  { world with journal := entry :: world.journal }

/-- Opens an empty registry. -/
def openRegistry (world : World H) : Nat × World H :=
  let number := world.hub.registries.size
  let hub := { world.hub with registries := world.hub.registries.push .empty }
  (number, { world with hub := hub }.record (.opened number))

/-- Empties a registry that nothing refers to any more. -/
def retire (world : World H) (registry : Nat) : World H :=
  let hub := { world.hub with registries := world.hub.registries.set registry .empty }
  { world with hub := hub }.record (.retired registry)

/-- Registers a listener under a name for one processor. -/
def register (world : World H) (registry : Nat) (cpu : Cpu) (name : String)
    (listener : Listener) : Except Duplicate Unit × World H :=
  let roster := world.hub.roster registry cpu
  if free : roster.has name = false then
    let hub := world.hub.setRoster registry cpu (roster.insert name listener free)
    (.ok (), { world with hub := hub }.record (.registered registry cpu name listener))
  else (.error ⟨cpu, name⟩, world.record (.refused registry cpu name))

/-- Registers a listener under a name for both processors. -/
def registerBoth (world : World H) (registry : Nat) (name : String) (listener : Listener) :
    Except Duplicate Unit × World H :=
  let master := world.hub.roster registry .master
  let slave := world.hub.roster registry .slave
  if masterFree : master.has name = false then
    if slaveFree : slave.has name = false then
      let hub := (world.hub.setRoster registry .master
        (master.insert name listener masterFree)).setRoster registry .slave
          (slave.insert name listener slaveFree)
      (.ok (), { world with hub := hub }.record (.registeredBoth registry name listener))
    else (.error ⟨.slave, name⟩, world.record (.refused registry .slave name))
  else (.error ⟨.master, name⟩, world.record (.refused registry .master name))

/-- Removes what is registered under a name for one processor, and says whether there was
anything. -/
def remove (world : World H) (registry : Nat) (cpu : Cpu) (name : String) :
    Bool × World H :=
  let roster := world.hub.roster registry cpu
  if roster.has name then
    let hub := world.hub.setRoster registry cpu (roster.erase name)
    (true, { world with hub := hub }.record (.removed registry cpu name))
  else (false, world)

/-- Removes a name for both processors, and counts the registrations removed. -/
def removeBoth (world : World H) (registry : Nat) (name : String) : Nat × World H :=
  let (first, world) := world.remove registry .master name
  let (second, world) := world.remove registry .slave name
  (first.toNat + second.toNat, world)

/-- Makes a detector and registers it for both processors. A detector that cannot be registered
is not made. -/
def attach (world : World H) (registry : Nat) (config : PollConfig) :
    Except Duplicate Nat × World H :=
  let number := world.hub.detectors.size
  match world.registerBoth registry Detector.name (.detector number) with
  | (.ok (), world) =>
    let hub := { world.hub with
      detectors := world.hub.detectors.push (.fresh config registry) }
    (.ok number, { world with hub := hub })
  | (.error duplicate, world) => (.error duplicate, world)

/-- Ends the poll of a processor, if there is one, without counting a wake-up. -/
def clear (world : World H) (detector : Nat) (cpu : Cpu) : World H :=
  let polling := (world.hub.detector detector).polling cpu
  let hub := world.hub.modifyDetector detector (·.clear cpu)
  { world with hub := hub }.record (.pollCleared detector cpu polling)

/-- Tells a detector about an event. One that wakes for the first time and is to do so only once
leaves the registry it was attached to. -/
def signal (world : World H) (number : Nat) (cpu : Cpu) (event : Event) : World H :=
  let detector := world.hub.detector number
  let hub := world.hub.modifyDetector number (·.receive cpu event)
  let told : World H := { world with hub := hub }
  match detector.reaction cpu event with
  | .ignored => told
  | .started => told.record (.pollStarted number cpu)
  | .woken =>
    let told := told.record (.pollEnded number cpu event)
    if detector.config.oneShot then (told.remove detector.home cpu Detector.name).2 else told

end World

end Sh2Pair
