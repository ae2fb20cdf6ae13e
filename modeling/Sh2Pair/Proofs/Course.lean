import Sh2Pair.Proofs.Steady
import Sh2Pair.Scheduler.Machine

/-!
# The course of a machine

Between two slices the surroundings of a scheduler may do anything: run any program against the
world, put other contexts or another rig in place, ask for a slice with another executor. A
course is a list of such moves. A move that panics ends where the panic left the machine, and
the next one starts from there.

What holds across each single thing that can happen in a world holds across every course. The
one thing that only a scheduler does, passing over a turn, is asked for separately.
-/

namespace Sh2Pair

/-- The setting in which outside listeners do nothing, and each fire calls its snapshot in the
order of the registrations. -/
def Setting.still {H : Host} : Setting H where
  behave _ _ _ := .ret ()
  arrange _ listeners := listeners
  arrange_perm _ _ := .refl _

namespace Scheduler

/-- What a scheduler is made with and never changes. -/
def terms (scheduler : Scheduler) : SliceConfig × Nat × Option Nat :=
  (scheduler.config, scheduler.registry, scheduler.poller)

/-- Schedulers on the same terms have the same settings. -/
theorem config_eq_of_terms {left right : Scheduler} (same : left.terms = right.terms) :
    left.config = right.config :=
  congrArg Prod.fst same

/-- Schedulers on the same terms have the same detector. -/
theorem poller_eq_of_terms {left right : Scheduler} (same : left.terms = right.terms) :
    left.poller = right.poller :=
  congrArg (fun terms => terms.2.2) same

/-- Counts have no say in whether a turn is passed over. -/
theorem skips_eq_of_terms {left right : Scheduler} (same : left.terms = right.terms) (hub : Hub)
    (cpu : Cpu) : left.skips hub cpu = right.skips hub cpu := by
  rw [skips, skips, config_eq_of_terms same, poller_eq_of_terms same]

end Scheduler

namespace Machine

variable {H : Host} {ε : Type}

/-- One thing that the surroundings of a scheduler do. -/
inductive Move (H : Host) (ε : Type) where
  /-- Run a program against the world. -/
  | act (program : Program H Unit Unit)
  /-- Put contexts and a rig in place. -/
  | place (contexts : Pair Context) (rig : ε)
  /-- Ask for a slice with an executor. -/
  | slice (executor : Executor H ε)

/-- The machine after a move, however it ended. -/
def move (setting : Setting H) (depth : Nat) (machine : Machine H ε) : Move H ε → Machine H ε
  | .act program => { machine with world := (setting.run depth program () machine.world).2.2 }
  | .place contexts rig => { machine with contexts, rig }
  | .slice executor => (machine.slice setting depth executor).2

/-- The machine after a course of moves. -/
def play (setting : Setting H) (depth : Nat) : List (Move H ε) → Machine H ε → Machine H ε
  | [], machine => machine
  | next :: later, machine => play setting depth later (machine.move setting depth next)

/-- The machine at the moment at which the turn of a processor starts, in a slice. -/
def atTurn (setting : Setting H) (depth : Nat) (executor : Executor H ε) (machine : Machine H ε)
    (cpu : Cpu) : Machine H ε :=
  if cpu = machine.scheduler.config.firstCpu then machine
  else (machine.turn setting depth executor machine.scheduler.config.firstCpu).2

/-- A later machine of the same scheduler whose world is related to the earlier one. -/
structure Follows (keeps : World H → World H → Prop) (before after : Machine H ε) : Prop where
  terms : after.scheduler.terms = before.scheduler.terms
  kept : keeps before.world after.world

/-- Passing over a turn, where a scheduler of the given terms does so, keeps to a relation. -/
def PassesWithin (keeps : World H → World H → Prop)
    (terms : SliceConfig × Nat × Option Nat) : Prop :=
  ∀ (scheduler : Scheduler) (world : World H) cpu cycles, scheduler.terms = terms →
    scheduler.skips world.hub cpu = true → keeps world (world.record (.skipped cpu cycles))

namespace Follows

variable {keeps : World H → World H → Prop} (steady : World.Steady keeps)

include steady

/-- A machine follows itself. -/
theorem refl (machine : Machine H ε) : Follows keeps machine machine :=
  ⟨rfl, steady.refl _⟩

/-- What follows a machine that follows another follows that one. -/
theorem trans {start middle finish : Machine H ε} (first : Follows keeps start middle)
    (second : Follows keeps middle finish) : Follows keeps start finish :=
  ⟨second.terms.trans first.terms, steady.trans first.kept second.kept⟩

variable (setting : Setting H) (depth : Nat) (executor : Executor H ε) (machine : Machine H ε)

/-- An executor keeps to the terms, and to what every step within them keeps. -/
theorem execute (cpu : Cpu) :
    Follows keeps machine (machine.execute setting depth executor cpu).2 := by
  refine ⟨rfl, ?_⟩
  exact steady.trans (steady.mark machine.world (.turnBegan cpu) rfl)
    (steady.run setting depth executor (machine.contexts.get cpu, machine.rig) _)

/-- The end of a turn keeps to the terms. -/
theorem close (cpu : Cpu) : Follows keeps machine (machine.close cpu) := by
  refine ⟨rfl, ?_⟩
  have ended : keeps machine.world
      (machine.world.record (.turnEnded cpu (machine.contexts.get cpu).ran)) :=
    steady.mark _ _ rfl
  simp only [Machine.close]
  by_cases stuck : (machine.contexts.get cpu).ran.toInt ≤ 0
  · rw [if_pos stuck]
    exact steady.marked ended rfl
  · rw [if_neg stuck]
    exact ended

/-- A turn keeps to the terms, and to what every step within them keeps. -/
theorem turn (passes : PassesWithin keeps machine.scheduler.terms) (cpu : Cpu) :
    Follows keeps machine (machine.turn setting depth executor cpu).2 := by
  simp only [Machine.turn]
  by_cases skipped : (machine.grant cpu).skips cpu = true
  · rw [if_pos skipped]
    exact ⟨rfl, passes machine.scheduler machine.world cpu _ rfl skipped⟩
  · rw [if_neg skipped]
    have granted : Follows keeps (machine.grant cpu)
        ((machine.grant cpu).execute setting depth executor cpu).2 :=
      execute steady setting depth executor (machine.grant cpu) cpu
    have ran : Follows keeps machine ((machine.grant cpu).execute setting depth executor cpu).2 :=
      ⟨granted.terms, granted.kept⟩
    generalize (machine.grant cpu).execute setting depth executor cpu = result at ran ⊢
    obtain ⟨outcome, after⟩ := result
    cases outcome with
    | done value =>
      have closed : Follows keeps machine (after.close cpu) :=
        trans steady ran (close steady after cpu)
      exact ⟨closed.terms, closed.kept⟩
    | panicked cause => exact ran
    | exhausted => exact ran

/-- A slice keeps to the terms, and to what every step within them keeps.

Proof: a slice is two turns, or one if that does not complete, and each of them follows what the
steps within it keep. -/
theorem slice (passes : PassesWithin keeps machine.scheduler.terms) :
    Follows keeps machine (machine.slice setting depth executor).2 := by
  simp only [Machine.slice]
  cases machine.misplaced? with
  | some misplaced => exact refl steady machine
  | none =>
    have first : Follows keeps machine
        (machine.turn setting depth executor machine.scheduler.config.firstCpu).2 :=
      turn steady setting depth executor machine passes
        machine.scheduler.config.firstCpu
    simp only [Outcome.andThen]
    generalize machine.turn setting depth executor machine.scheduler.config.firstCpu = result
      at first ⊢
    obtain ⟨outcome, middle⟩ := result
    cases outcome with
    | panicked cause => exact first
    | exhausted => exact first
    | done firstTurn =>
      have second : Follows keeps machine
          (middle.turn setting depth executor machine.scheduler.config.firstCpu.other).2 :=
        trans steady first (turn steady setting depth executor middle
          (first.terms ▸ passes) machine.scheduler.config.firstCpu.other)
      dsimp only at second ⊢
      generalize middle.turn setting depth executor machine.scheduler.config.firstCpu.other =
        result at second ⊢
      obtain ⟨outcome, last⟩ := result
      cases outcome with
      | panicked cause => exact second
      | exhausted => exact second
      | done secondTurn => exact ⟨second.terms, second.kept⟩

/-- Any number of slices keep to the terms, and to what every step within them keeps.

Proof: by induction on the number of slices. Only a slice that completes is followed by the others.
-/
theorem slices (count : Nat) (passes : PassesWithin keeps machine.scheduler.terms) :
    Follows keeps machine (machine.slices setting depth executor count).2 := by
  induction count generalizing machine with
  | zero => exact refl steady machine
  | succ count inductionHypothesis =>
    have first : Follows keeps machine (machine.slice setting depth executor).2 :=
      slice steady setting depth executor machine passes
    simp only [Machine.slices]
    generalize machine.slice setting depth executor = result at first ⊢
    obtain ⟨outcome, middle⟩ := result
    cases outcome with
    | panicked cause => exact first
    | exhausted => exact first
    | done result =>
      cases result with
      | error misplaced => exact first
      | ok report => exact trans steady first (inductionHypothesis middle (first.terms ▸ passes))

/-- A move keeps to the terms, and to what every step within them keeps. -/
theorem move (passes : PassesWithin keeps machine.scheduler.terms) (next : Move H ε) :
    Follows keeps machine (machine.move setting depth next) := by
  cases next with
  | act program => exact ⟨rfl, steady.run setting depth program () machine.world⟩
  | place contexts rig => exact ⟨rfl, steady.refl machine.world⟩
  | slice executor => exact slice steady setting depth executor machine passes

/-- What holds across each single thing holds across every course. -/
theorem play (moves : List (Move H ε)) (passes : PassesWithin keeps machine.scheduler.terms) :
    Follows keeps machine (machine.play setting depth moves) := by
  induction moves generalizing machine with
  | nil => exact refl steady machine
  | cons next later inductionHypothesis =>
    have moved : Follows keeps machine (machine.move setting depth next) :=
      move steady setting depth machine passes next
    exact trans steady moved (inductionHypothesis _ (moved.terms ▸ passes))

/-- What holds across each single thing holds up to the moment at which a turn starts. -/
theorem atTurn (passes : PassesWithin keeps machine.scheduler.terms) (cpu : Cpu) :
    Follows keeps machine (machine.atTurn setting depth executor cpu) := by
  rw [Machine.atTurn]
  by_cases first : cpu = machine.scheduler.config.firstCpu
  · rw [if_pos first]
    exact refl steady machine
  · rw [if_neg first]
    exact turn steady setting depth executor machine passes _

end Follows

end Machine

end Sh2Pair
