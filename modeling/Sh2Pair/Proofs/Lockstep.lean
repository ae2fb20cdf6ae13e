import Sh2Pair.Panic

/-!
# Results side by side

Two runs go in lockstep if both come back with related values or both end with the same panic, and
leave related states in either case. Neither of them uses up its depth. What goes on from results in
lockstep, and is itself in lockstep, stays so.
-/

namespace Sh2Pair.Outcome

/-- Both results came back, or both panicked for one cause. The values are in the first relation,
and what was left is in the second. -/
inductive Lockstep {α β σ τ : Type} (values : α → β → Prop) (states : σ → τ → Prop) :
    Outcome α × σ → Outcome β × τ → Prop where
  | done {value : α} {other : β} {left : σ} {right : τ} (related : values value other)
      (kept : states left right) : Lockstep values states (.done value, left) (.done other, right)
  | panicked {cause : Panic} {left : σ} {right : τ} (kept : states left right) :
      Lockstep values states (.panicked cause, left) (.panicked cause, right)

namespace Lockstep

variable {α β γ δ σ τ : Type} {values : α → β → Prop} {states : σ → τ → Prop}
  {left : Outcome α × σ} {right : Outcome β × τ}

/-- What goes on from results in lockstep is in lockstep, if it is so from related values. -/
theorem andThen {results : γ → δ → Prop} {next : α → σ → Outcome γ × σ}
    {follow : β → τ → Outcome δ × τ} (alike : Lockstep values states left right)
    (goes : ∀ value other before after, left = (.done value, before) → values value other →
      states before after →
      Lockstep results states (next value before) (follow other after)) :
    Lockstep results states (Outcome.andThen left next) (Outcome.andThen right follow) := by
  cases alike with
  | done related kept => exact goes _ _ _ _ rfl related kept
  | panicked kept => exact .panicked kept

/-- What is left is in the relation, however both ended. -/
theorem kept (alike : Lockstep values states left right) : states left.2 right.2 := by
  cases alike with
  | done _ kept => exact kept
  | panicked kept => exact kept

/-- Results in lockstep did not use up their depth. -/
theorem settled (alike : Lockstep values states left right) : left.1 ≠ .exhausted := by
  cases alike with
  | done _ _ => exact done_ne_exhausted _
  | panicked _ => exact panicked_ne_exhausted _

/-- Runs in lockstep with equal values ended alike. -/
theorem outcome {left right : Outcome α × σ} {states : σ → σ → Prop}
    (alike : Lockstep Eq states left right) : left.1 = right.1 := by
  cases alike with
  | done related _ => exact congrArg Outcome.done related
  | panicked _ => rfl

end Lockstep

end Sh2Pair.Outcome
