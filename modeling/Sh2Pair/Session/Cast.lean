import Sh2Pair.Program
import Sh2Pair.Session.Answer
import Sh2Pair.Session.Step

/-!
# Scripted listeners

The outside listeners of a session are scripts. Each acts on the events it cares about until it
has acted as often as it may. The cast is the state that they share: the scripts, the tags under
which they were declared, the calls counted for each tag, and the number of the current registry.

A tag may be declared again. What was registered under it before stays the script that it was,
and both are counted together.

A registry that has been replaced as the current one lives on while something refers to it: a
scheduler, or a fire or a run that is under way. After that it is retired.
-/

namespace Sh2Pair.Session

/-- A scripted listener. -/
structure Script where
  tag : String
  /-- The events it acts on; all of them if none are listed. -/
  events : Option (List Event)
  limit : Nat
  actions : List EventStep
  /-- How often it has acted. -/
  acted : Nat

instance : Inhabited Script := ⟨⟨"", some [], 0, [], 0⟩⟩

/-- The state that the scripted listeners share. -/
structure Cast where
  scripts : Table Script
  /-- The script of each tag, by its number, the latest declaration first. -/
  tags : List (String × Nat)
  /-- How often the scripts of each tag have been called, for tags that have been called. -/
  calls : List (String × Nat)
  /-- The number of the current registry. -/
  current : Nat
  /-- The registries that have not been retired. -/
  alive : List Nat
  /-- The registries of the schedulers. -/
  kept : List Nat
  /-- The registries of the fires and runs under way, the innermost first. -/
  busy : List Nat

/-- What a session notes in the journal: where calls, actions and runs begin and end. -/
inductive Note where
  | callBegan (tag : String) (number : Nat) (cpu : Cpu) (event : Event)
  | callEnded
  | actionBegan
  | actionEnded (answer : Answer)
  | runBegan (cpu : Cpu) (cycles ran : Int32) (scripted : Bool)
  | runEnded (pc : UInt32) (ran : Int32)

/-- The host of a session. -/
def host : Host := ⟨Cast, Note⟩

namespace Cast

/-- The cast of a session that begins with a registry. -/
def initial (registry : Nat) : Cast := ⟨.empty, [], [], registry, [registry], [], []⟩

/-- Whether something refers to a registry. -/
def refers (cast : Cast) (registry : Nat) : Bool :=
  cast.current = registry || cast.kept.contains registry || cast.busy.contains registry

/-- The registries that nothing refers to any more. -/
def lost (cast : Cast) : List Nat := cast.alive.filter fun registry => !cast.refers registry

/-- The listener meant by a step, if it is there. -/
def listener? (cast : Cast) (hub : Hub) : Who → Option Listener
  | .tag tag => (cast.tags.lookup tag).map .hosted
  | .detector number => if number < hub.detectors.size then some (.detector number) else none

/-- Declares a script. -/
def declare (cast : Cast) (script : Script) : Cast :=
  { cast with
    scripts := cast.scripts.push script
    tags := (script.tag, cast.scripts.size) :: cast.tags }

/-- How often the scripts of a tag have been called. -/
def callsOf (cast : Cast) (tag : String) : Nat := (cast.calls.lookup tag).getD 0

/-- Counts a call for a tag. -/
def countCall (cast : Cast) (tag : String) : Cast :=
  { cast with
    calls := (tag, cast.callsOf tag + 1) :: cast.calls.filter fun entry => entry.1 ≠ tag }

/-- Changes the script of a number. -/
def modifyScript (cast : Cast) (number : Nat) (change : Script → Script) : Cast :=
  { cast with scripts := cast.scripts.modify number change }

end Cast

/-- Whether a script acts when it is called now. -/
def Script.acts (script : Script) (event : Event) : Bool :=
  script.acted < script.limit &&
    match script.events with
    | some events => events.contains event
    | none => true

end Sh2Pair.Session
