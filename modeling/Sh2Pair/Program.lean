import Sh2Pair.Panic
import Sh2Pair.World

/-!
# Programs

A program is a finite piece of behaviour that runs against the world: what an outside listener
does when it is called, and what an executor does in its turn. It has a state of its own, of
type `σ`, which it can see and change; it can see and change the state of its host; it can leave
remarks in the journal; and everything it wants from registries and detectors it requests. What
it does next may depend on every answer. It ends with a value or with a panic.

A panic in a nested fire ends the program that fired. There is no construct that catches it and goes
on: nothing in the library catches panics, and a user who catches one does so outside of everything
that runs, where the next program begins in the world that the panic left.

A program is a tree, so it ends on every path. The hub is out of its reach but for requests,
which keeps what the library says about registries and detectors true of every program.
-/

namespace Sh2Pair

/-- What a program can ask for. -/
inductive Request where
  | register (registry : Nat) (cpu : Cpu) (name : String) (listener : Listener)
  | registerBoth (registry : Nat) (name : String) (listener : Listener)
  | remove (registry : Nat) (cpu : Cpu) (name : String)
  | removeBoth (registry : Nat) (name : String)
  | fire (registry : Nat) (cpu : Cpu) (event : Event)
  | fireBoth (registry : Nat) (event : Event)
  | notify (listener : Listener) (cpu : Cpu) (event : Event)
  | attach (registry : Nat) (config : PollConfig)
  | clear (detector : Nat) (cpu : Cpu)
  | openRegistry
  | retire (registry : Nat)
  /-- A look at the hub. -/
  | survey

/-- The type of the answer to a request. -/
def Request.Reply : Request → Type
  | .register .. => Except Duplicate Unit
  | .registerBoth .. => Except Duplicate Unit
  | .remove .. => Bool
  | .removeBoth .. => Nat
  | .fire .. => Nat
  | .fireBoth .. => Nat
  | .notify .. => Unit
  | .attach .. => Except Duplicate Nat
  | .clear .. => Unit
  | .openRegistry => Nat
  | .retire .. => Unit
  | .survey => Hub

/-- A finite behaviour with a state of its own of type `σ` that ends with a value of type `α`. -/
inductive Program (H : Host) (σ α : Type) : Type where
  | ret (value : α)
  | panic (cause : Panic)
  /-- Sees its own state. -/
  | look (next : σ → Program H σ α)
  /-- Changes its own state. -/
  | change (f : σ → σ) (next : Program H σ α)
  /-- Sees the state of the host. -/
  | ask (next : H.State → Program H σ α)
  /-- Changes the state of the host. -/
  | alter (f : H.State → H.State) (next : Program H σ α)
  /-- Leaves a remark in the journal. -/
  | remark (content : Remark H.Note) (next : Program H σ α)
  | request (wanted : Request) (next : wanted.Reply → Program H σ α)

namespace Program

variable {H : Host} {σ α β : Type}

/-- Goes on with another program once a value is there. -/
def bind : Program H σ α → (α → Program H σ β) → Program H σ β
  | .ret value, rest => rest value
  | .panic cause, _ => .panic cause
  | .look next, rest => .look fun state => (next state).bind rest
  | .change f next, rest => .change f (next.bind rest)
  | .ask next, rest => .ask fun state => (next state).bind rest
  | .alter f next, rest => .alter f (next.bind rest)
  | .remark content next, rest => .remark content (next.bind rest)
  | .request wanted next, rest => .request wanted fun reply => (next reply).bind rest

instance : Monad (Program H σ) where
  pure := .ret
  bind := .bind

/-- Raises a panic. -/
def raise (cause : Panic) : Program H σ α := .panic cause

/-- The program's own state. -/
def own : Program H σ σ := .look .ret

/-- Changes the program's own state. -/
def update (f : σ → σ) : Program H σ Unit := .change f (.ret ())

/-- The state of the host. -/
def hostState : Program H σ H.State := .ask .ret

/-- Changes the state of the host. -/
def updateHost (f : H.State → H.State) : Program H σ Unit := .alter f (.ret ())

/-- Leaves a remark in the journal. -/
def leave (content : Remark H.Note) : Program H σ Unit := .remark content (.ret ())

/-- Leaves a note of the host in the journal. -/
def note (content : H.Note) : Program H σ Unit := leave (.note content)

/-- Makes a request and gives its answer. -/
def demand (wanted : Request) : Program H σ wanted.Reply := .request wanted .ret

/-- Fires an event for the listeners of a processor and gives their number. -/
def fire (registry : Nat) (cpu : Cpu) (event : Event) : Program H σ Nat :=
  demand (.fire registry cpu event)

end Program

end Sh2Pair
