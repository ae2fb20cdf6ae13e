import Sh2Pair.Text.Numeral

/-!
# Panics

A panic ends everything that is running, up to the step that was asked for. It is raised by an
outside listener or executor, with a text of its own, or by the small core when it meets
something that it cannot execute.
-/

namespace Sh2Pair

/-- Why everything that was running ended. -/
inductive Panic where
  /-- Raised on purpose, with a text. -/
  | raised (text : String)
  /-- A delay slot held an opcode that may not stand there. -/
  | delaySlot (opcode : UInt16)
  /-- An opcode that the small core does not know, at an address. -/
  | unknownOpcode (opcode : UInt16) (pc : UInt32)
  /-- A sum left the range of its word. -/
  | overflow
  deriving DecidableEq

namespace Panic

open Text

/-- The text of a panic. -/
def message : Panic → List Char
  | .raised text => text.toList
  | .delaySlot opcode =>
    "assertion `left == right` failed: only NOP is supported in the delay slot\n".toList ++
      "  left: ".toList ++ decimal opcode.toNat ++ "\n right: 9".toList
  | .unknownOpcode opcode pc =>
    "unhandled opcode 0x".toList ++ hexFixed 4 opcode.toNat ++ " at 0x".toList ++
      hexFixed 8 pc.toNat
  | .overflow => "attempt to add with overflow".toList

end Panic

/-- How something that was asked for ended. -/
inductive Outcome (α : Type) where
  /-- It came back with a value. -/
  | done (value : α)
  | panicked (cause : Panic)
  /-- Listeners called each other more deeply than the depth that was allowed. -/
  | exhausted
  deriving DecidableEq

namespace Outcome

/-- Changes the value of an outcome. -/
def map {α β : Type} (f : α → β) : Outcome α → Outcome β
  | .done value => .done (f value)
  | .panicked cause => .panicked cause
  | .exhausted => .exhausted

/-- A value is not the lack of one. -/
theorem done_ne_exhausted {α : Type} (value : α) : done value ≠ exhausted := by
  rintro ⟨⟩

/-- A panic is not the lack of an outcome. -/
theorem panicked_ne_exhausted {α : Type} (cause : Panic) : (panicked cause : Outcome α) ≠
    exhausted := by
  rintro ⟨⟩

/-- Goes on after something that came back. After a panic, and when the depth is used up, the
state stays as it was then. -/
def andThen {α β σ : Type} (result : Outcome α × σ) (next : α → σ → Outcome β × σ) :
    Outcome β × σ :=
  match result with
  | (.done value, state) => next value state
  | (.panicked cause, state) => (.panicked cause, state)
  | (.exhausted, state) => (.exhausted, state)

end Outcome

end Sh2Pair
