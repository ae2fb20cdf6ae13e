import Sh2Pair.Firing

/-!
# The depth is no limit

The depth to which calls may nest is there so that every run ends. It never shows in a result:
a run that does not use it up is the same run at every greater depth. What is proved at all
depths is therefore proved of every run whose calls nest finitely deep.
-/

namespace Sh2Pair

variable {H : Host}

/-- Another way to tell listeners agrees wherever the first does not use up its depth. -/
def Deeper (shallow deep : Delivery H) : Prop :=
  ∀ listener cpu event world, (shallow listener cpu event world).1 ≠ .exhausted →
    deep listener cpu event world = shallow listener cpu event world

section Requests

variable {shallow deep : Delivery H} (deeper : Deeper shallow deep)
  (arrange : Nat → List Listener → List Listener)

include deeper

/-- Calling listeners comes to the same deeper down, if it came to an end.

Proof: by induction on the listeners. If the calls come to an end, so does the first one, and it
comes to the same deeper down. -/
theorem World.callEach_deeper {fire : Nat} {cpu : Cpu} {event : Event} (order : List Listener)
    (world : World H)
    (settled : (World.callEach shallow fire cpu event order world).1 ≠ .exhausted) :
    World.callEach deep fire cpu event order world =
      World.callEach shallow fire cpu event order world := by
  induction order generalizing world with
  | nil => rfl
  | cons listener later inductionHypothesis =>
    have agree : (shallow listener cpu event (world.record (.called fire listener cpu event))).1 ≠
        .exhausted → deep listener cpu event (world.record (.called fire listener cpu event)) =
        shallow listener cpu event (world.record (.called fire listener cpu event)) :=
      deeper listener cpu event (world.record (.called fire listener cpu event))
    simp only [callEach] at settled ⊢
    generalize shallow listener cpu event (world.record (.called fire listener cpu event)) =
      result at settled agree ⊢
    obtain ⟨outcome, middle⟩ := result
    cases outcome with
    | done value =>
      rw [agree (by simp)]
      exact inductionHypothesis _ settled
    | panicked cause => rw [agree (by simp)]
    | exhausted => exact absurd rfl settled

/-- A fire comes to the same deeper down, if it came to an end. -/
theorem World.fire_deeper (world : World H) (registry : Nat) (cpu : Cpu) (event : Event)
    (settled : (world.fire shallow arrange registry cpu event).1 ≠ .exhausted) :
    world.fire deep arrange registry cpu event = world.fire shallow arrange registry cpu event := by
  simp only [fire] at settled ⊢
  rw [callEach_deeper deeper]
  intro exhausted
  rw [exhausted] at settled
  exact settled rfl

/-- A fire for both processors comes to the same deeper down, if it came to an end. -/
theorem World.fireBoth_deeper (world : World H) (registry : Nat) (event : Event)
    (settled : (world.fireBoth shallow arrange registry event).1 ≠ .exhausted) :
    world.fireBoth deep arrange registry event = world.fireBoth shallow arrange registry event := by
  have first : (world.fire shallow arrange registry .master event).1 ≠ .exhausted → world.fire deep
      arrange registry .master event = world.fire shallow arrange registry .master event :=
    world.fire_deeper deeper arrange registry .master event
  simp only [fireBoth] at settled ⊢
  generalize world.fire shallow arrange registry .master event = result at settled first ⊢
  obtain ⟨outcome, middle⟩ := result
  cases outcome with
  | done count =>
    rw [first (by simp)]
    dsimp only at settled ⊢
    rw [fire_deeper deeper]
    intro exhausted
    rw [exhausted] at settled
    exact settled rfl
  | panicked cause => rw [first (by simp)]
  | exhausted => exact absurd rfl settled

/-- The answer to a request is the same deeper down, if there was one. -/
theorem World.answer_deeper (world : World H) (wanted : Request)
    (settled : (world.answer shallow arrange wanted).1 ≠ .exhausted) :
    world.answer deep arrange wanted = world.answer shallow arrange wanted := by
  cases wanted with
  | fire registry cpu event => exact world.fire_deeper deeper arrange registry cpu event settled
  | fireBoth registry event => exact world.fireBoth_deeper deeper arrange registry event settled
  | notify listener cpu event => exact deeper listener cpu event _ settled
  | _ => rfl

/-- A program comes to the same deeper down, if it came to an end.

Proof: by induction on the program. Only a request asks for a delivery. If it were exhausted, so
would be the program. -/
theorem Program.run_deeper {σ α : Type} (program : Program H σ α) (state : σ) (world : World H)
    (settled : (program.run shallow arrange state world).1 ≠ .exhausted) :
    program.run deep arrange state world = program.run shallow arrange state world := by
  induction program generalizing state world with
  | ret value => rfl
  | panic cause => rfl
  | look next inductionHypothesis => exact inductionHypothesis state state world settled
  | change f next inductionHypothesis => exact inductionHypothesis (f state) world settled
  | ask next inductionHypothesis => exact inductionHypothesis world.host state world settled
  | alter f next inductionHypothesis => exact inductionHypothesis state _ settled
  | remark content next inductionHypothesis => exact inductionHypothesis state _ settled
  | request wanted next inductionHypothesis =>
    have agree : (world.answer shallow arrange wanted).1 ≠ .exhausted →
        world.answer deep arrange wanted = world.answer shallow arrange wanted :=
      world.answer_deeper deeper arrange wanted
    simp only [run] at settled ⊢
    generalize world.answer shallow arrange wanted = result at settled agree ⊢
    obtain ⟨outcome, middle⟩ := result
    cases outcome with
    | done reply =>
      rw [agree (by simp)]
      exact inductionHypothesis reply state middle settled
    | panicked cause => rw [agree (by simp)]
    | exhausted => exact absurd rfl settled

end Requests

namespace Setting

variable (setting : Setting H)

/-- One more level of calls changes no result.

Proof: by induction on the depth. A delivery runs a program, whose own deliveries come from one
level below. -/
theorem deliver_succ (depth : Nat) :
    Deeper (setting.deliver depth) (setting.deliver (depth + 1)) := by
  induction depth with
  | zero =>
    intro listener cpu event world settled
    cases listener with
    | detector number => rfl
    | hosted number => exact absurd rfl settled
  | succ depth inductionHypothesis =>
    intro listener cpu event world settled
    cases listener with
    | detector number => rfl
    | hosted number =>
      have same :
          (setting.behave number cpu event).run (setting.deliver (depth + 1)) setting.arrange ()
            world =
          (setting.behave number cpu event).run (setting.deliver depth) setting.arrange ()
            world :=
        Program.run_deeper inductionHypothesis setting.arrange
          (setting.behave number cpu event) () world settled
      simp only [deliver] at same ⊢
      rw [same]

/-- More levels of calls change no result. -/
theorem deliver_deeper {depth deepest : Nat} (more : depth ≤ deepest) :
    Deeper (setting.deliver depth) (setting.deliver deepest) := by
  induction more with
  | refl => exact fun _ _ _ _ _ => rfl
  | @step deep _ inductionHypothesis =>
    intro listener cpu event world settled
    have same : setting.deliver deep listener cpu event world =
        setting.deliver depth listener cpu event world :=
      inductionHypothesis listener cpu event world settled
    exact (setting.deliver_succ deep listener cpu event world (same ▸ settled)).trans same

end Setting

end Sh2Pair
