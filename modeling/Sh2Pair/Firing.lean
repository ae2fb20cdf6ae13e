import Sh2Pair.Program

/-!
# Firing events

A fire takes a snapshot of the listeners of one processor and calls each of them once, one after
the other. What the listeners do to the registry meanwhile shows in later fires only. Listeners
may fire again from their calls, to any depth; a panic of one ends the fire and everything
around it, and leaves the world as it was then.

The order of the calls inside a fire is not part of what a fire promises. A `Setting` fixes it
by a function from the number of the fire, which may rearrange the snapshot in any way, and says
how the outside listeners behave. The depth to which calls may nest is a parameter; a run that
would go deeper ends as exhausted.
-/

namespace Sh2Pair

/-- How the outside listeners behave, and in which order each fire calls its snapshot. -/
structure Setting (H : Host) where
  /-- What the outside listener of a number does when it is told about an event. -/
  behave : Nat → Cpu → Event → Program H Unit Unit
  /-- The order in which the fire of a number calls its snapshot. -/
  arrange : Nat → List Listener → List Listener
  arrange_perm : ∀ fire listeners, (arrange fire listeners).Perm listeners

/-- A way to tell a listener about an event. -/
abbrev Delivery (H : Host) := Listener → Cpu → Event → World H → Outcome Unit × World H

namespace World

variable {H : Host}

/-- Calls the listeners of a fire one after the other, up to the first that does not come
back. -/
def callEach (deliver : Delivery H) (fire : Nat) (cpu : Cpu) (event : Event) :
    List Listener → World H → Outcome Unit × World H
  | [], world => (.done (), world)
  | listener :: later, world =>
    match deliver listener cpu event (world.record (.called fire listener cpu event)) with
    | (.done (), world) =>
      callEach deliver fire cpu event later (world.record (.returned fire))
    | (outcome, world) => (outcome, world)

/-- Fires an event for a processor and gives the number of listeners called. -/
def fire (deliver : Delivery H) (arrange : Nat → List Listener → List Listener)
    (world : World H) (registry : Nat) (cpu : Cpu) (event : Event) : Outcome Nat × World H :=
  let listeners := (world.hub.roster registry cpu).listeners
  let number := world.fires
  let begun : World H := { world with fires := number + 1 }.record
    (.fired number registry cpu event listeners.length)
  match callEach deliver number cpu event (arrange number listeners) begun with
  | (outcome, world) => (outcome.map fun _ => listeners.length, world)

/-- Fires an event for the master and then, if that comes back, for the slave. -/
def fireBoth (deliver : Delivery H) (arrange : Nat → List Listener → List Listener)
    (world : World H) (registry : Nat) (event : Event) : Outcome Nat × World H :=
  match world.fire deliver arrange registry .master event with
  | (.done first, world) =>
    match world.fire deliver arrange registry .slave event with
    | (outcome, world) => (outcome.map (first + ·), world)
  | (outcome, world) => (outcome, world)

/-- Answers a request of a program. -/
def answer (deliver : Delivery H) (arrange : Nat → List Listener → List Listener)
    (world : World H) : (wanted : Request) → Outcome wanted.Reply × World H
  | .register registry cpu name listener =>
    let (reply, world) := world.register registry cpu name listener
    (.done reply, world)
  | .registerBoth registry name listener =>
    let (reply, world) := world.registerBoth registry name listener
    (.done reply, world)
  | .remove registry cpu name =>
    let (reply, world) := world.remove registry cpu name
    (.done reply, world)
  | .removeBoth registry name =>
    let (reply, world) := world.removeBoth registry name
    (.done reply, world)
  | .fire registry cpu event => world.fire deliver arrange registry cpu event
  | .fireBoth registry event => world.fireBoth deliver arrange registry event
  | .notify listener cpu event =>
    deliver listener cpu event (world.record (.notified listener cpu event))
  | .attach registry config =>
    let (reply, world) := world.attach registry config
    (.done reply, world)
  | .clear detector cpu => (.done (), world.clear detector cpu)
  | .openRegistry =>
    let (number, world) := world.openRegistry
    (.done number, world)
  | .retire registry => (.done (), world.retire registry)
  | .survey => (.done world.hub, world)

end World

namespace Program

variable {H : Host} {σ α : Type}

/-- Runs a program from a state of its own in a world. Its own state is there after a panic,
too. -/
def run (deliver : Delivery H) (arrange : Nat → List Listener → List Listener) :
    Program H σ α → σ → World H → Outcome α × σ × World H
  | .ret value, state, world => (.done value, state, world)
  | .panic cause, state, world => (.panicked cause, state, world)
  | .look next, state, world => (next state).run deliver arrange state world
  | .change f next, state, world => next.run deliver arrange (f state) world
  | .ask next, state, world => (next world.host).run deliver arrange state world
  | .alter f next, state, world =>
    next.run deliver arrange state { world with host := f world.host }
  | .remark content next, state, world =>
    next.run deliver arrange state (world.record (.remark content))
  | .request wanted next, state, world =>
    match world.answer deliver arrange wanted with
    | (.done reply, world) => (next reply).run deliver arrange state world
    | (.panicked cause, world) => (.panicked cause, state, world)
    | (.exhausted, world) => (.exhausted, state, world)

/-- Running two programs one after the other is running the first and then, if it comes back,
the second from where the first stopped.

Proof: by induction on the first program. Each of its constructors runs one step and leaves a rest
that is shorter. -/
theorem run_bind {β : Type} (deliver : Delivery H)
    (arrange : Nat → List Listener → List Listener) (program : Program H σ α)
    (rest : α → Program H σ β) (state : σ) (world : World H) :
    (program.bind rest).run deliver arrange state world =
      Outcome.andThen (program.run deliver arrange state world) fun value reached =>
        (rest value).run deliver arrange reached.1 reached.2 := by
  induction program generalizing state world with
  | ret value => rfl
  | panic cause => rfl
  | look next inductionHypothesis => exact inductionHypothesis state state world
  | change f next inductionHypothesis => exact inductionHypothesis (f state) world
  | ask next inductionHypothesis => exact inductionHypothesis world.host state world
  | alter f next inductionHypothesis => exact inductionHypothesis state _
  | remark content next inductionHypothesis => exact inductionHypothesis state _
  | request wanted next inductionHypothesis =>
    simp only [bind, run]
    cases world.answer deliver arrange wanted with
    | mk outcome world =>
      cases outcome with
      | done reply => exact inductionHypothesis reply state world
      | panicked cause => rfl
      | exhausted => rfl

end Program

namespace Setting

variable {H : Host}

/-- Tells a listener about an event, with calls nesting to a depth at most. A detector reacts by
itself; an outside listener does what the setting says. -/
def deliver (setting : Setting H) : Nat → Delivery H
  | 0, listener, cpu, event, world =>
    match listener with
    | .detector number => (.done (), world.signal number cpu event)
    | .hosted _ => (.exhausted, world)
  | depth + 1, listener, cpu, event, world =>
    match listener with
    | .detector number => (.done (), world.signal number cpu event)
    | .hosted number =>
      match (setting.behave number cpu event).run (setting.deliver depth) setting.arrange ()
        world with
      | (outcome, _, world) => (outcome, world)

/-- Runs a program, with calls nesting to a depth at most. -/
def run (setting : Setting H) (depth : Nat) {σ α : Type} (program : Program H σ α) (state : σ)
    (world : World H) : Outcome α × σ × World H :=
  program.run (setting.deliver depth) setting.arrange state world

end Setting

end Sh2Pair
