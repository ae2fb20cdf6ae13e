import Sh2Pair.Bus
import Sh2Pair.Context.Text
import Sh2Pair.Session.Answer
import Sh2Pair.Session.Step

/-!
# The bench

The bench holds the contexts of a session under their names, the devices made so far, and the
bus. During a turn the context of the turn stands on it without a name. A step that names
something that is not there changes nothing.
-/

namespace Sh2Pair.Session

/-- The memory of a session: flat memory, or a probe. -/
inductive Fitted where
  | flat (memory : Ram)
  | probe (memory : Probe)

namespace Fitted

instance : Store Fitted where
  read cpu address width
    | .flat memory =>
      let (value, memory) := Store.read cpu address width memory
      (value, .flat memory)
    | .probe memory =>
      let (value, memory) := Store.read cpu address width memory
      (value, .probe memory)
  write cpu address width value
    | .flat memory =>
      let (taken, memory) := Store.write cpu address width value memory
      (taken, .flat memory)
    | .probe memory =>
      let (taken, memory) := Store.write cpu address width value memory
      (taken, .probe memory)

instance : CacheControl Fitted where
  purge cpu address width
    | .flat memory => .flat (CacheControl.purge cpu address width memory)
    | .probe memory => .probe (CacheControl.purge cpu address width memory)

end Fitted

/-- The contexts, devices and the bus of a session. -/
structure Bench where
  contexts : List (String × Context)
  devices : List (String × Device)
  bus : Option (Bus Fitted)
  /-- The context of the turn, while there is one. -/
  running : Option Context

/-- What a bench step comes to: its answer, the bench afterwards, and what is remarked. -/
structure Effect (ν : Type) where
  answer : Answer
  bench : Bench
  remarks : List (Remark ν)

/-- Reads through the accessor of a width. -/
def readTyped {M : Type} [Store M] (bus : Bus M) (cpu : Cpu) (address : UInt32) :
    Width → UInt32 × Bus M
  | .byte =>
    let (value, bus) := bus.read8 cpu address
    (value.toUInt32, bus)
  | .word =>
    let (value, bus) := bus.read16 cpu address
    (value.toUInt32, bus)
  | .long => bus.read32 cpu address

/-- Writes through the accessor of a width, which takes the low bits of the value. -/
def writeTyped {M : Type} [Store M] (bus : Bus M) (cpu : Cpu) (address : UInt32) (width : Width)
    (value : UInt32) : Bool × Bus M :=
  match width with
  | .byte => bus.write8 cpu address value.toUInt8
  | .word => bus.write16 cpu address value.toUInt16
  | .long => bus.write32 cpu address value

/-- A bus over a memory, with or without a cache. -/
def wire {M : Type} [CacheControl M] (memory : M) (cached : Bool) : Bus M :=
  if cached then .cached memory else .plain memory

namespace Bench

/-- The bench with nothing on it. -/
def empty : Bench := ⟨[], [], none, none⟩

/-- The context of a name, or the one of the turn. -/
def context? (bench : Bench) : Option String → Option Context
  | some name => bench.contexts.lookup name
  | none => bench.running

/-- Puts a context under a name. -/
def put (bench : Bench) (name : String) (context : Context) : Bench :=
  { bench with
    contexts := (name, context) :: bench.contexts.filter fun entry => entry.1 ≠ name }

/-- Puts a context under a name, or makes it the one of the turn. -/
def putAt (bench : Bench) (context : Context) : Option String → Bench
  | some name => bench.put name context
  | none => { bench with running := some context }

/-- Takes the context of a name off the bench. -/
def take (bench : Bench) (name : String) : Bench :=
  { bench with contexts := bench.contexts.filter fun entry => entry.1 ≠ name }

variable {ν : Type}

/-- An answer that changes nothing. -/
def only (bench : Bench) (answer : Answer) : Effect ν := ⟨answer, bench, []⟩

/-- Does something with the bus, if there is one. -/
def withBus (bench : Bench) (use : Bus Fitted → Answer × Bus Fitted) : Effect ν :=
  match bench.bus with
  | some bus =>
    let (answer, bus) := use bus
    { bench with bus := some bus }.only answer
  | none => bench.only .unusable

/-- Offers a value to the bus or to its memory, and remarks on a write that is not taken. -/
def offer (bench : Bench) (cpu : Cpu) (address : UInt32) (width : Width)
    (use : Bus Fitted → Bool × Bus Fitted) : Effect ν :=
  match bench.bus with
  | some bus =>
    let (taken, bus) := use bus
    { answer := .ok
      bench := { bench with bus := some bus }
      remarks := if taken then [] else [.dropped cpu address width] }
  | none => bench.only .unusable

/-- Fetches for a context from the bus, the instruction of a delay slot if one is given. -/
def fetch (bench : Bench) (name : Option String) (context : Context) (slot : Option UInt32) :
    Effect ν :=
  match bench.bus with
  | some bus =>
    let (opcode, context, bus) :=
      match slot with
      | some pc => bus.fetchSlot context pc
      | none => bus.fetch context
    ({ bench with bus := some bus }.putAt context name).only (.fetched opcode context)
  | none => bench.only .unusable

/-- Asks the flat memory of the bench, if it has one. -/
def ofRam (bench : Bench) (ask : Ram → Answer) : Effect ν :=
  match bench.bus with
  | some ⟨.flat ram, _⟩ => bench.only (ask ram)
  | _ => bench.only .unusable

/-- Performs a step on one context. -/
def performOn (bench : Bench) (name : Option String) (context : Context) :
    ContextStep → Effect ν
  | .assign assignment => (bench.putAt (assignment.apply context) name).only .ok
  | .setReg number value =>
    let context := context.setReg number value
    (bench.putAt context name).only
      (.integers (context.regs.toList.map fun value => (value.toNat : Int)))
  | .reg number => bench.only (.natural (context.reg number).toNat)
  | .reset pc stack =>
    { answer := .ok
      bench := bench.putAt (context.reset pc stack) name
      remarks := if context.debug then [.reset context.cpu pc stack] else [] }
  | .grant cycles =>
    let context := context.grant cycles
    (bench.putAt context name).only (.integers [context.cycles.toInt, context.ran.toInt])
  | .left => bench.only (.integer context.left.toInt)
  | .burn cycles =>
    let context := context.burn cycles
    (bench.putAt context name).only (.integers [context.ran.toInt, context.left.toInt])
  | .state => bench.only (.context context)
  | .listing => bench.only (.text context.listing)
  | .outline spread =>
    bench.only (.text (if spread then context.outline.spread else context.outline.compact))
  | .copyTo target => (bench.put target context.copy).only .ok
  | .attachDevice device =>
    match bench.devices.lookup device with
    | some device => (bench.putAt { context with devices := some device } name).only .ok
    | none => bench.only .unusable
  | .detach => (bench.putAt { context with devices := none } name).only .ok
  | .device => bench.only (.device (context.devices.map Device.payload))
  | .fetch => bench.fetch name context none
  | .fetchSlot pc => bench.fetch name context (some pc)

/-- Performs a step for a processor, if it can be told which one is meant. -/
def forParty (bench : Bench) (concerned : Option Cpu) (party : Party)
    (perform : Cpu → Effect ν) : Effect ν :=
  match party.resolve? concerned with
  | some cpu => perform cpu
  | none => bench.only .unusable

/-- Performs a step on the bench, in a turn of the processor concerned, if there is one. -/
def perform (bench : Bench) (concerned : Option Cpu) : BenchStep → Effect ν
  | .create name cpu debug => (bench.put name (.fresh cpu debug)).only .ok
  | .context name step =>
    match bench.context? name with
    | some context => bench.performOn name context step
    | none => bench.only .unusable
  | .compare left right =>
    match bench.contexts.lookup left, bench.contexts.lookup right with
    | some left, some right => bench.only (.comparison (.of left right))
    | _, _ => bench.only .unusable
  | .makeDevice name payload =>
    let device := ⟨bench.devices.length, payload⟩
    { bench with devices := (name, device) :: bench.devices }.only .ok
  | .flat base size cached =>
    { bench with bus := some (wire (.flat (.zeroed base size)) cached) }.only .ok
  | .probe value cached =>
    { bench with bus := some (wire (.probe (.answering value)) cached) }.only .ok
  | .rewrap cached => bench.withBus fun bus => (.ok, wire bus.memory cached)
  | .read party address width =>
    bench.forParty concerned party fun cpu => bench.withBus fun bus =>
      let (value, bus) := readTyped bus cpu address width
      (.natural value.toNat, bus)
  | .write party address width value =>
    bench.forParty concerned party fun cpu =>
      bench.offer cpu (width.align address) width (writeTyped · cpu address width value)
  | .purge party address width =>
    bench.forParty concerned party fun cpu => bench.withBus fun bus =>
      let (forwarded, bus) := bus.purge cpu address width
      (.flag forwarded, bus)
  | .peek party address width =>
    bench.forParty concerned party fun cpu => bench.withBus fun bus =>
      let (value, memory) := Store.read cpu address width bus.memory
      (.natural value.toNat, { bus with memory })
  | .poke party address width value =>
    bench.forParty concerned party fun cpu => bench.offer cpu address width fun bus =>
      let (taken, memory) := Store.write cpu address width value bus.memory
      (taken, { bus with memory })
  | .drop party address width =>
    bench.forParty concerned party fun cpu => bench.withBus fun bus =>
      (.ok, { bus with memory := CacheControl.purge cpu address width bus.memory })
  | .load address bytes =>
    match bench.bus with
    | some ⟨.flat ram, forward⟩ =>
      { bench with bus := some ⟨.flat (ram.load address bytes), forward⟩ }.only .ok
    | _ => bench.only .unusable
  | .dump => bench.ofRam fun ram => .bytes ram.bytes.toList
  | .purges => bench.ofRam fun ram => .purges ram.purged.reverse
  | .requests =>
    match bench.bus with
    | some ⟨.probe probe, _⟩ => bench.only (.requests probe.requests.reverse)
    | _ => bench.only .unusable

end Bench

end Sh2Pair.Session
