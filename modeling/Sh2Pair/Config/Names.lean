import Sh2Pair.Cpu
import Sh2Pair.Event
import Sh2Pair.Json.Value

/-!
# Named constants as texts

Processors and events are written by their names. A named constant is read from its name as a
string, or from an object whose only member has that name and the value `null`. Such a constant can
also be the whole of a configuration text.
-/

namespace Sh2Pair

namespace Json

/-- Reads the word `null` where nothing else is allowed. -/
def readUnit (text : List Char) : Except Fault (List Char) :=
  match skipBlanks text with
  | [] => .error .truncated
  | 'n' :: rest => word ['u', 'l', 'l'] rest
  | rest => .error (wrongType "unit" rest)

/-- Finds the constant of a name. -/
def findNamed {α : Type} (constants : List (String × α)) (name : List Char) : Except Fault α :=
  match constants.find? fun constant => constant.1.toList = name with
  | some constant => .ok constant.2
  | none => .error (.mismatch (.unknownVariant name (constants.map Prod.fst)))

/-- Reads a named constant: its name as a string, or an object of that single name with the
value `null`. -/
def readNamed {α : Type} (constants : List (String × α)) (text : List Char) :
    Except Fault (α × List Char) :=
  match skipBlanks text with
  | [] => .error .truncated
  | '"' :: rest => do
    let (name, rest) ← Text.read rest
    .ok (← findNamed constants name, rest)
  | '\x7b' :: rest =>
    match skipBlanks rest with
    | [] => .error .truncated
    | '"' :: rest => do
      let (name, rest) ← Text.read rest
      let constant ← findNamed constants name
      let rest ← readUnit (← colon rest)
      match skipBlanks rest with
      | [] => .error .truncated
      | '\x7d' :: rest => .ok (constant, rest)
      | _ => .error .malformed
    | _ => .error .malformed
  | _ => .error .malformed

end Json

/-- The names of the processors, for reading. -/
def Cpu.keys : List (String × Cpu) := Cpu.all.map fun cpu => (cpu.key, cpu)

/-- The processor that a text names. -/
def Cpu.ofText (text : String) : Except Json.Fault Cpu :=
  Json.readDocument (Json.readNamed Cpu.keys) text

/-- The names of the events, for reading. -/
def Event.keys : List (String × Event) := Event.all.map fun event => (event.name, event)

/-- The event that a text names. -/
def Event.ofText (text : String) : Except Json.Fault Event :=
  Json.readDocument (Json.readNamed Event.keys) text

end Sh2Pair
