import Sh2Pair.Config.Poll
import Sh2Pair.Context.Basic
import Sh2Pair.Memory.Store

/-!
# Steps of a session

A session is a list of steps. Bench steps concern contexts, devices and the bus; event steps
concern the current registry, its listeners and the detectors; the remaining ones make
schedulers and run slices. Event steps are also what a scripted listener does when it is called,
and both kinds together are what a scripted executor does in its turn. There a step may leave
open which processor it means: the one concerned, or its partner.
-/

namespace Sh2Pair.Session

/-- The processor that a step means. -/
inductive Party where
  | named (cpu : Cpu)
  /-- The processor of the call or of the turn. -/
  | same
  /-- Its partner. -/
  | other

/-- The processor meant, if the step leaves it open only where one is concerned. -/
def Party.resolve? (concerned : Option Cpu) : Party → Option Cpu
  | .named cpu => some cpu
  | .same => concerned
  | .other => concerned.map Cpu.other

/-- A field of a context with its new value. -/
inductive Assignment where
  | gbr (value : UInt32)
  | vbr (value : UInt32)
  | sr (value : UInt32)
  | mach (value : UInt32)
  | macl (value : UInt32)
  | pr (value : UInt32)
  | pc (value : UInt32)
  | delayPc (value : UInt32)
  | opcode (value : UInt16)
  | delaySlot (value : Bool)
  | cycles (value : Int32)
  | ran (value : Int32)
  | fetched (value : Fetched)

/-- Writes a field of a context. -/
def Assignment.apply (context : Context) : Assignment → Context
  | .gbr value => { context with gbr := value }
  | .vbr value => { context with vbr := value }
  | .sr value => { context with sr := value }
  | .mach value => { context with mach := value }
  | .macl value => { context with macl := value }
  | .pr value => { context with pr := value }
  | .pc value => { context with pc := value }
  | .delayPc value => { context with delayPc := value }
  | .opcode value => { context with opcode := value }
  | .delaySlot value => { context with delaySlot := value }
  | .cycles value => { context with cycles := value }
  | .ran value => { context with ran := value }
  | .fetched value => { context with fetched := value }

/-- What is done to one context, or asked of it. -/
inductive ContextStep where
  | assign (assignment : Assignment)
  | setReg (number : Nat) (value : UInt32)
  | reg (number : Nat)
  | reset (pc stack : UInt32)
  | grant (cycles : Int32)
  | left
  | burn (cycles : Int32)
  | state
  | listing
  | outline (spread : Bool)
  | copyTo (name : String)
  | attachDevice (device : String)
  | detach
  | device
  | fetch
  | fetchSlot (pc : UInt32)

/-- What is done on the bench, on which contexts, devices and the bus stand. A context step
without a name means the context of the turn. -/
inductive BenchStep where
  | create (name : String) (cpu : Cpu) (debug : Bool)
  | context (name : Option String) (step : ContextStep)
  | compare (left right : String)
  | makeDevice (name : String) (payload : Payload)
  | flat (base : UInt32) (size : Nat) (cached : Bool)
  | probe (answer : UInt32) (cached : Bool)
  | rewrap (cached : Bool)
  | read (party : Party) (address : UInt32) (width : Width)
  | write (party : Party) (address : UInt32) (width : Width) (value : UInt32)
  | purge (party : Party) (address : UInt32) (width : Width)
  /-- Reads from the memory itself, past the bus. -/
  | peek (party : Party) (address : UInt32) (width : Width)
  /-- Writes to the memory itself, past the bus. -/
  | poke (party : Party) (address : UInt32) (width : Width) (value : UInt32)
  /-- Purges in the memory itself, past the bus. -/
  | drop (party : Party) (address : UInt32) (width : Width)
  | load (address : UInt32) (bytes : List UInt8)
  | dump
  | purges
  | requests

/-- A listener, by the tag of its script or the number of the detector. -/
inductive Who where
  | tag (tag : String)
  | detector (number : Nat)

/-- What is done to the current registry, its listeners and the detectors. -/
inductive EventStep where
  | renewRegistry
  /-- Declares a scripted listener: which events it acts on, how often at most, and what it
  does. -/
  | declare (tag : String) (events : Option (List Event)) (limit : Nat)
    (actions : List EventStep)
  | register (party : Party) (name : String) (who : Who)
  | registerBoth (name : String) (who : Who)
  | remove (party : Party) (name : String)
  | removeBoth (name : String)
  | fire (party : Party) (event : Event)
  | fireBoth (event : Event)
  | isRegistered (party : Party) (name : String)
  | count (party : Party)
  | names (party : Party)
  | calls (tag : String)
  | outline (spread : Bool)
  | notify (who : Who) (party : Party) (event : Event)
  | panic (text : String)
  | attach (config : String)
  | watches (detector : Nat)
  | clear (detector : Nat) (party : Party)
  | settings (detector : Nat)

/-- What a scripted executor can do. -/
inductive Action where
  | bench (step : BenchStep)
  | event (step : EventStep)

/-- What runs a processor in its turn. -/
inductive Executing where
  /-- Consumes a number of cycles at a time until the budget is used up. -/
  | burn (cycles : Int32)
  /-- Follows the script of the processor. -/
  | script (actions : Pair (List Action))
  /-- Is the small core, on the flat memory of the bench. -/
  | micro

/-- A step of a session. -/
inductive Step where
  | bench (step : BenchStep)
  | event (step : EventStep)
  | makeScheduler (config : String) (watching : Bool)
  | makeContexts (scheduler : Nat) (names : Pair String)
  | scheduler (number : Nat)
  | slice (scheduler : Nat) (contexts : Pair String) (executing : Executing)
  | slices (scheduler count : Nat) (contexts : Pair String) (executing : Executing)

end Sh2Pair.Session
