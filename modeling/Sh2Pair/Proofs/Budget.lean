import Mathlib.Algebra.Order.BigOperators.Group.List
import Mathlib.Algebra.Order.Group.Abs
import Sh2Pair.Proofs.Accounting
import Sh2Pair.Proofs.Announcements

/-!
# A run of the small core ends within its budget

Each instruction consumes at least one cycle, so a run executes no more instructions than it has
cycles. The loop of the core counts its instructions down, and this bound is never what ends it: a
loop with any greater bound does the same. What ends a run that comes back is the budget, which is
used up to the cycle, or passed by one cycle if the last instruction is a branch that leaves its
place, since such a branch takes two.

A turn that is passed over uses up the budget, too. So the totals of a scheduler lie between as many
budgets as it has completed slices, and that many cycles more.
-/

namespace Sh2Pair

variable {H : Host}

/-- There is nothing left to spend once the budget is used up. -/
theorem Context.left_nonpos_iff (context : Context) :
    context.left.toInt ≤ 0 ↔ context.cycles.toInt ≤ context.ran.toInt := by
  have some_left : 0 < (Cycles.satSub context.cycles context.ran).toInt ↔
      context.ran.toInt < context.cycles.toInt := Cycles.satSub_pos_iff context.cycles context.ran
  rw [Context.left]
  omega

namespace Micro

/-- What is consumed by an instruction of one cycle that has no fault. -/
theorem ran_advance {context : Context} (whole : (advance context).2 = none) :
    (advance context).1.cycles = context.cycles ∧
      (advance context).1.ran.toInt = context.ran.toInt + 1 := by
  revert whole
  rw [advance]
  cases following? context.pc with
  | none => simp
  | some pc =>
    cases sum : Cycles.checkedAdd? context.ran 1 with
    | none => simp
    | some ran =>
      intro _
      have exactSum : context.ran.toInt + (1 : Int32).toInt = ran.toInt :=
        Cycles.checkedAdd?_eq_some_iff.mp sum
      exact ⟨rfl, exactSum.symm⟩

/-- What is consumed by a branch that has no fault. -/
theorem ran_jump {context : Context} {fetched : List UInt32} {target : UInt32}
    (whole : (Stride.jump fetched target context).fault = none) :
    (Stride.jump fetched target context).context.cycles = context.cycles ∧
      if target = context.pc then
        (Stride.jump fetched target context).context.ran = context.cycles
      else (Stride.jump fetched target context).context.ran.toInt = context.ran.toInt + 2 := by
  obtain ⟨ran, spent⟩ := spent_of_jump whole
  have exactSum : context.ran.toInt + (2 : Int32).toInt = ran.toInt :=
    Cycles.checkedAdd?_eq_some_iff.mp spent
  by_cases loops : target = context.pc
  · simp [Stride.jump, spent, loops]
  · simp only [Stride.jump, spent, if_neg loops, true_and]
    exact exactSum.symm

/-- An instruction that has no fault consumes one cycle, or it is a branch. A branch to itself uses
up the budget, and any other one consumes two cycles.

Proof: by cases on the instruction. All but the branch advance by one cycle; the branch either stops
with a fault or jumps. -/
theorem ran_stride {read : UInt32 → UInt16} {context : Context}
    (whole : (stride read context).fault = none) :
    (stride read context).context.cycles = context.cycles ∧
      ((stride read context).context.ran.toInt = context.ran.toInt + 1 ∨
        ∃ distance, decode (read context.pc) = .branch distance ∧
          if context.pc + 4 + distance = context.pc then
            (stride read context).context.ran = context.cycles
          else (stride read context).context.ran.toInt = context.ran.toInt + 2) := by
  revert whole
  simp only [stride]
  cases decoded : decode (read context.pc) with
  | idle =>
    intro whole
    obtain ⟨cycles, ran⟩ := ran_advance whole
    exact ⟨cycles, .inl ran⟩
  | load register value =>
    intro whole
    obtain ⟨cycles, ran⟩ := ran_advance whole
    exact ⟨cycles, .inl ran⟩
  | store target source =>
    intro whole
    obtain ⟨cycles, ran⟩ := ran_advance whole
    exact ⟨cycles, .inl ran⟩
  | unknown => simp [Stride.stop]
  | branch distance =>
    cases next : following? context.pc with
    | none => simp [Stride.stop]
    | some slot =>
      by_cases idle : read slot = idleOpcode
      · simp only [if_pos idle]
        intro whole
        obtain ⟨cycles, ran⟩ := ran_jump whole
        exact ⟨cycles, .inr ⟨distance, rfl, ran⟩⟩
      · simp [if_neg idle, Stride.stop]

/-- The instruction of a moment is a branch that leaves its place. -/
def Departs (moment : Moment H) : Prop :=
  ∃ distance, decode (word moment.1.2 moment.1.1.pc) = .branch distance ∧
    moment.1.1.pc + 4 + distance ≠ moment.1.1.pc

section Instructions

variable (setting : Setting H) (depth registry : Nat)

/-- The listeners that the instruction of a moment tells about an event do not come back. -/
def Hangs (moment : Moment H) : Prop :=
  let stride := stride (word moment.1.2) moment.1.1
  ∃ cpu event, stride.announced = some (cpu, event) ∧
    ((stride.noted moment.1.2 moment.2).fire (setting.deliver depth) setting.arrange registry cpu
      event).1 = .exhausted

variable {setting depth registry} {moment : Moment H} {after : Desk × World H}

/-- An instruction that comes back leaves what its stride says, and has no fault.

Proof: by cases on whether the stride announces something. Either way, what comes back is the
outcome of the stride, which is done only if there is no fault. -/
theorem whole_of_step
    (ran : setting.run depth (step registry) moment.1 moment.2 = (.done (), after)) :
    (stride (word moment.1.2) moment.1.1).fault = none ∧
      after.1.1 = (stride (word moment.1.2) moment.1.1).context := by
  obtain ⟨⟨context, bus⟩, world⟩ := moment
  rw [Setting.run, step_run, Stride.carryOut, Stride.announce] at ran
  dsimp only at ran ⊢
  generalize stride (word bus) context = stride at ran ⊢
  have none_of_done : ∀ {left : Desk × World H}, (stride.outcome, left) = (.done (), after) →
      stride.fault = none ∧ left = after := by
    intro left ended
    cases fault : stride.fault with
    | none =>
      rw [Stride.outcome, fault] at ended
      cases ended
      exact ⟨rfl, rfl⟩
    | some cause =>
      rw [Stride.outcome, fault] at ended
      cases ended
  cases announced : stride.announced with
  | none =>
    rw [announced] at ran
    obtain ⟨fault, rfl⟩ := none_of_done ran
    exact ⟨fault, rfl⟩
  | some told =>
    rw [announced] at ran
    dsimp only at ran
    split at ran
    · obtain ⟨fault, rfl⟩ := none_of_done ran
      exact ⟨fault, rfl⟩
    · cases ran
    · cases ran

/-- An instruction does not come back, and does not panic either, exactly if the listeners that it
tells do not come back.

Proof: the stride itself always comes to an end. So nothing but the listeners that it tells can fail
to come back. -/
theorem hangs_iff :
    (setting.run depth (step registry) moment.1 moment.2).1 = .exhausted ↔
      Hangs setting depth registry moment := by
  obtain ⟨⟨context, bus⟩, world⟩ := moment
  rw [Setting.run, step_run, Stride.carryOut, Stride.announce, Hangs]
  dsimp only
  have settled : ∀ stride : Stride, stride.outcome ≠ .exhausted := by
    intro stride
    rw [Stride.outcome]
    split <;> simp
  cases announced : (stride (word bus) context).announced with
  | none => simp [settled]
  | some told =>
    obtain ⟨cpu, event⟩ := told
    simp only [Option.some.injEq, Prod.mk.injEq]
    constructor
    · intro exhausted
      refine ⟨cpu, event, ⟨rfl, rfl⟩, ?_⟩
      split at exhausted
      · exact absurd exhausted (settled _)
      · cases exhausted
      · rename_i fired
        rw [fired]
    · rintro ⟨_, _, ⟨rfl, rfl⟩, exhausted⟩
      split
      · rename_i fired
        rw [fired] at exhausted
        cases exhausted
      · rename_i fired
        rw [fired] at exhausted
        cases exhausted
      · rfl

/-- An instruction that comes back consumes something, if there was something to consume. -/
theorem progress {desk : Desk} {world : World H}
    (remains : desk.1.ran.toInt < desk.1.cycles.toInt)
    (ran : setting.run depth (step registry) desk world = (.done (), after)) :
    after.1.1.cycles = desk.1.cycles ∧ desk.1.ran.toInt + 1 ≤ after.1.1.ran.toInt := by
  have start : setting.run depth (step registry) (desk, world).1 (desk, world).2 = _ := ran
  obtain ⟨whole, left⟩ := whole_of_step start
  dsimp only at whole left
  obtain ⟨cycles, consumed⟩ := ran_stride whole
  rw [← left] at cycles consumed
  refine ⟨cycles, ?_⟩
  rcases consumed with one | ⟨distance, _, branch⟩
  · omega
  · split at branch
    · rw [branch]
      omega
    · omega

end Instructions

section Loops

variable (setting : Setting H) (depth registry : Nat) {bound : Nat} {desk : Desk} {world : World H}

/-- A loop that may execute as many instructions as there are cycles left is never ended by that
bound.

Proof: by induction on the bound. Where no cycles are left, both loops stop. Otherwise the next
instruction consumes one cycle at least, so the smaller bound is still enough for the cycles that
are left. -/
theorem steps_of_enough
    (enough : desk.1.cycles.toInt - desk.1.ran.toInt ≤ bound) {more : Nat} (le : bound ≤ more) :
    setting.run depth (steps registry more) desk world =
        setting.run depth (steps registry bound) desk world ∧
      executed setting depth registry more desk world =
        executed setting depth registry bound desk world := by
  induction bound generalizing more desk world with
  | zero =>
    have spent : desk.1.left.toInt ≤ 0 := by
      rw [Context.left_nonpos_iff]
      omega
    cases more with
    | zero => simp
    | succ more =>
      simp only [steps_succ_run, executed, if_pos spent, and_true]
      rfl
  | succ bound inductionHypothesis =>
    obtain ⟨more, rfl⟩ : ∃ less, more = less + 1 := ⟨more - 1, by omega⟩
    rw [steps_succ_run, steps_succ_run, executed, executed]
    by_cases spent : desk.1.left.toInt ≤ 0
    · simp only [if_pos spent, and_self]
    · simp only [if_neg spent]
      rw [Context.left_nonpos_iff] at spent
      cases ran : setting.run depth (step registry) desk world with
      | mk outcome reached =>
      cases outcome with
      | panicked cause => simp [Outcome.andThen]
      | exhausted => simp [Outcome.andThen]
      | done value =>
        obtain ⟨cycles, consumed⟩ := progress (Int.not_le.mp spent) ran
        have still : reached.1.1.cycles.toInt - reached.1.1.ran.toInt ≤ bound := by
          rw [cycles]
          omega
        have rest : setting.run depth (steps registry more) reached.1 reached.2 =
              setting.run depth (steps registry bound) reached.1 reached.2 ∧
            executed setting depth registry more reached.1 reached.2 =
              executed setting depth registry bound reached.1 reached.2 :=
          @inductionHypothesis reached.1 reached.2 still more
            (Nat.le_of_succ_le_succ le)
        simp only [Outcome.andThen, rest, and_self]

/-- So the bound of a run is never what ends it: a loop that is allowed more does the same, whatever
the counts of the context are. -/
theorem run_of_enough (enough : desk.1.remaining ≤ bound) :
    setting.run depth (steps registry bound) desk world =
        setting.run depth (run registry) desk world ∧
      executed setting depth registry bound desk world =
        instructions setting depth registry desk world := by
  rw [run_eq_steps, instructions]
  exact steps_of_enough setting depth registry (Int.self_le_toNat _) enough

/-- So a loop that comes back has used up its budget.

Proof: by induction on the bound. A loop is done where no cycles are left, and it cannot be ended by
the bound before, since each instruction consumes one of the cycles that the bound counts. -/
theorem spent_of_steps
    (enough : desk.1.cycles.toInt - desk.1.ran.toInt ≤ bound) {left : Desk} {after : World H}
    (ran : setting.run depth (steps registry bound) desk world = (.done (), left, after)) :
    left.1.cycles = desk.1.cycles ∧ desk.1.cycles.toInt ≤ left.1.ran.toInt := by
  induction bound generalizing desk world with
  | zero =>
    cases ran
    exact ⟨rfl, by omega⟩
  | succ bound inductionHypothesis =>
    rw [steps_succ_run] at ran
    by_cases spent : desk.1.left.toInt ≤ 0
    · rw [if_pos spent] at ran
      cases ran
      exact ⟨rfl, left.1.left_nonpos_iff.mp spent⟩
    · rw [if_neg spent] at ran
      obtain ⟨_, reached, stepped, rest⟩ := Outcome.andThen_eq_done_iff.mp ran
      rw [Context.left_nonpos_iff] at spent
      obtain ⟨cycles, consumed⟩ := progress (Int.not_le.mp spent) stepped
      rw [← cycles]
      apply inductionHypothesis ?_ rest
      rw [cycles]
      omega

/-- Every instruction of a loop finds the budget that was granted, and something left of it.

Proof: by induction on the bound. An instruction is executed only while cycles are left, and the
counter never goes back. -/
theorem remains_of_executed {moment : Moment H}
    (inside : moment ∈ executed setting depth registry bound desk world) :
    moment.1.1.cycles = desk.1.cycles ∧ desk.1.ran.toInt ≤ moment.1.1.ran.toInt ∧
      moment.1.1.ran.toInt < desk.1.cycles.toInt := by
  induction bound generalizing desk world with
  | zero => simp [executed] at inside
  | succ bound inductionHypothesis =>
    rw [executed] at inside
    split at inside
    · simp at inside
    · rename_i unspent
      rw [Context.left_nonpos_iff] at unspent
      rcases List.mem_cons.mp inside with rfl | later
      · exact ⟨rfl, Int.le_refl _, Int.not_le.mp unspent⟩
      · cases ran : setting.run depth (step registry) desk world with
        | mk outcome reached =>
        rw [ran] at later
        cases outcome with
        | panicked cause => simp at later
        | exhausted => simp at later
        | done value =>
          obtain ⟨cycles, consumed⟩ := progress (Int.not_le.mp unspent) ran
          obtain ⟨same, above, below⟩ := inductionHypothesis later
          rw [cycles] at same below
          exact ⟨same, by omega, below⟩

/-- No more instructions are executed than the bound allows. -/
theorem length_executed_le :
    (executed setting depth registry bound desk world).length ≤ bound := by
  induction bound generalizing desk world with
  | zero => simp [executed]
  | succ bound inductionHypothesis =>
    rw [executed]
    split
    · simp
    · rw [List.length_cons]
      apply Nat.succ_le_succ
      split
      · exact inductionHypothesis
      · simp

end Loops

/-- An instruction that finds something of a budget left and leaves nothing of it ends on the
budget, or passes it by one cycle and is a branch to elsewhere.

Proof: by what the instruction consumes. One cycle does not lead past the budget, a branch to itself
sets the counter to it, and the second cycle of another branch can lead past it by one. -/
theorem ran_of_final {setting : Setting H} {depth registry : Nat} {budget : Int32} {last : Moment H}
    {left : Desk} {after : World H} (same : last.1.1.cycles = budget)
    (below : last.1.1.ran.toInt < budget.toInt)
    (ended : setting.run depth (step registry) last.1 last.2 = (.done (), left, after))
    (spent : budget.toInt ≤ left.1.ran.toInt) :
    left.1.ran.toInt = budget.toInt ∨ left.1.ran.toInt = budget.toInt + 1 ∧ Departs last := by
  obtain ⟨whole, reached⟩ := whole_of_step ended
  obtain ⟨_, consumed⟩ := ran_stride whole
  rw [← reached, same] at consumed
  dsimp only at consumed
  rcases consumed with one | ⟨distance, decoded, branch⟩
  · left
    omega
  · by_cases loops : last.1.1.pc + 4 + distance = last.1.1.pc
    · rw [if_pos loops] at branch
      exact .inl (congrArg Int32.toInt branch)
    · rw [if_neg loops] at branch
      by_cases exactly : left.1.ran.toInt = budget.toInt
      · exact .inl exactly
      · exact .inr ⟨by omega, distance, decoded, loops⟩

/-- How a run of the core with a budget ends. -/
structure EndsInBudget (setting : Setting H) (depth registry : Nat) (budget : Int32) (desk : Desk)
    (world : World H) : Prop where
  /-- A loop that is allowed more instructions does the same. -/
  unbounded : ∀ bound, budget.toInt.toNat ≤ bound →
    setting.run depth (steps registry bound) desk world =
        setting.run depth (run registry) desk world ∧
      executed setting depth registry bound desk world =
        instructions setting depth registry desk world
  /-- It executes as many instructions as it has cycles, at most. -/
  instructions : ((instructions setting depth registry desk world).length : Int) ≤ budget.toInt
  /-- The counter of the cycles has room for what any of them consumes. -/
  room : ∀ moment ∈ Micro.instructions setting depth registry desk world,
    0 ≤ moment.1.1.ran.toInt ∧ moment.1.1.ran.toInt < budget.toInt ∧
      (Cycles.checkedAdd? moment.1.1.ran 1).isSome ∧ (Cycles.checkedAdd? moment.1.1.ran 2).isSome
  /-- If it comes back, the budget is used up, or passed by one cycle. -/
  done : ∀ left after, setting.run depth (run registry) desk world = (.done (), left, after) →
    left.1.ran.toInt = budget.toInt ∨ left.1.ran.toInt = budget.toInt + 1 ∧
      ∃ last, (Micro.instructions setting depth registry desk world).getLast? = some last ∧
        Departs last
  /-- It comes back or panics, unless some listener does not come back. -/
  settled : (setting.run depth (run registry) desk world).1 = .exhausted →
    ∃ last, (Micro.instructions setting depth registry desk world).getLast? = some last ∧
      Hangs setting depth registry last

/-- A run with any budget ends in it, as long as two cycles more still fit into the counter.

Proof: the loop is allowed as many instructions as there are cycles, and it needs no more, since
each instruction consumes one. So a run ends as its last instruction does. When that one started,
some budget was left; when it came back, none was, and `ran_of_final` says where it can end. -/
theorem endsInBudget (setting : Setting H) (depth registry : Nat) {budget : Int32}
    (positive : 0 < budget.toInt) (small : budget.toInt + 1 ≤ Cycles.greatest) {desk : Desk}
    (granted : desk.1.cycles = budget) (fresh : desk.1.ran = 0) (world : World H) :
    EndsInBudget setting depth registry budget desk world := by
  have nothing : desk.1.ran.toInt = 0 := by rw [fresh, Int32.toInt_zero]
  have allowed : desk.1.remaining = budget.toInt.toNat := by
    rw [Context.remaining, granted, nothing, Int.sub_zero]
  have runs : setting.run depth (run registry) desk world =
      setting.run depth (steps registry budget.toInt.toNat) desk world := by
    rw [run_eq_steps, allowed]
  have listed : instructions setting depth registry desk world =
      executed setting depth registry budget.toInt.toNat desk world := by
    rw [instructions, allowed]
  have enough : desk.1.cycles.toInt - desk.1.ran.toInt ≤ budget.toInt.toNat := by
    rw [granted, nothing]
    omega
  have remains : ∀ moment ∈ executed setting depth registry budget.toInt.toNat desk world,
      moment.1.1.cycles = budget ∧ 0 ≤ moment.1.1.ran.toInt ∧
        moment.1.1.ran.toInt < budget.toInt := by
    intro moment inside
    obtain ⟨same, above, below⟩ := remains_of_executed setting depth registry inside
    rw [granted] at same below
    exact ⟨same, by omega, below⟩
  constructor
  case unbounded =>
    intro bound le
    exact run_of_enough setting depth registry (allowed.trans_le le)
  case instructions =>
    have short : (executed setting depth registry budget.toInt.toNat desk world).length ≤
        budget.toInt.toNat := length_executed_le setting depth registry
    rw [listed]
    omega
  case room =>
    intro moment inside
    rw [listed] at inside
    obtain ⟨_, above, below⟩ := remains moment inside
    have fits : ∀ cost : Int32, 0 ≤ cost.toInt → cost.toInt ≤ 2 →
        (Cycles.checkedAdd? moment.1.1.ran cost).isSome := by
      intro cost low high
      rw [Cycles.checkedAdd?, if_pos]
      · rfl
      · simp only [Cycles.least]
        omega
    exact ⟨above, below, fits 1 (by decide) (by decide), fits 2 (by decide) (by decide)⟩
  case done =>
    intro left after ended
    rw [runs] at ended
    obtain ⟨_, spent⟩ := spent_of_steps setting depth registry enough ended
    rw [granted] at spent
    rw [run_eq_last] at ended
    rw [listed]
    cases final : (executed setting depth registry budget.toInt.toNat desk world).getLast? with
    | none =>
      rw [final] at ended
      cases ended
      omega
    | some last =>
      rw [final] at ended
      obtain ⟨same, _, below⟩ := remains last (List.mem_of_getLast? final)
      rcases ran_of_final same below ended spent with exactly | ⟨oneMore, departs⟩
      · exact .inl exactly
      · exact .inr ⟨oneMore, last, rfl, departs⟩
  case settled =>
    rw [runs, run_eq_last, listed]
    intro exhausted
    cases final : (executed setting depth registry budget.toInt.toNat desk world).getLast? with
    | none =>
      rw [final] at exhausted
      cases exhausted
    | some last =>
      rw [final] at exhausted
      exact ⟨last, rfl, hangs_iff.mp exhausted⟩

end Micro

/-- Settings that are accepted grant one cycle at least, and far fewer than the counter holds. -/
theorem SliceConfig.bounds_of_check {config : SliceConfig} (accepted : config.check = .ok ()) :
    0 < config.cycles.toInt ∧ config.cycles.toInt + 1 ≤ Cycles.greatest := by
  have positive : 0 < config.cycles.toInt := pos_of_check accepted
  refine ⟨positive, ?_⟩
  by_cases large : config.cycles.toInt > maxCycles.toInt
  · rw [check, if_neg (Int.not_le.mpr positive), if_pos large] at accepted
    contradiction
  · have limit : maxCycles.toInt + 1 ≤ Cycles.greatest := by decide
    omega

namespace Machine

variable {setting : Setting H} {depth : Nat}

/-- The slices of a call, if it is about any, are run by the small core. -/
def Call.Drives : Call H (Bus Ram) → Prop
  | .move (.slice executor) => ∃ registry, executor = Micro.run registry
  | .move _ => True
  | .slices executor _ => ∃ registry, executor = Micro.run registry

/-- A turn of the small core consumes the budget, or one cycle more.

Proof: a turn that is passed over is credited with the budget. Any other turn is a run of the core
on a context that was just granted it. -/
theorem spent_of_turn {machine after : Machine H (Bus Ram)} {registry : Nat} {cpu : Cpu}
    {turn : Turn} (accepted : machine.scheduler.config.check = .ok ())
    (ended : machine.turn setting depth (Micro.run registry) cpu = (.done turn, after)) :
    turn.ran.toInt = machine.scheduler.config.cycles.toInt ∨
      turn.ran.toInt = machine.scheduler.config.cycles.toInt + 1 := by
  obtain ⟨positive, small⟩ := SliceConfig.bounds_of_check accepted
  cases skips : machine.skips cpu with
  | true =>
    have passed : turn.skipped = true := (skipped_of_turn ended).trans skips
    exact .inl (congrArg Int32.toInt ((credited_of_turn ended).whole passed))
  | false =>
    let desk : Micro.Desk :=
      ((machine.contexts.get cpu).grant machine.scheduler.config.cycles, machine.rig)
    cases ran : setting.run depth (Micro.run registry) desk
      (machine.world.record (.turnBegan cpu)) with
    | mk outcome left =>
    obtain ⟨⟨context, rig⟩, world⟩ := left
    have turned := turn_of_runs skips ran
    cases outcome with
    | done value =>
      obtain ⟨closed, _, came⟩ := turned
      rw [came] at ended
      cases ended
      have ends : Micro.EndsInBudget setting depth registry machine.scheduler.config.cycles desk
          (machine.world.record (.turnBegan cpu)) :=
        Micro.endsInBudget setting depth registry positive small
          (show desk.1.cycles = _ from rfl) (show desk.1.ran = 0 from rfl)
          (machine.world.record (.turnBegan cpu))
      rcases ends.done _ _ ran with exactly | ⟨beyond, _⟩
      · exact .inl exactly
      · exact .inr beyond
    | panicked cause => cases turned.symm.trans ended
    | exhausted => cases turned.symm.trans ended

/-- So does either turn of a slice that completes. -/
theorem spent_of_completed (slice : Completed setting depth (Bus Ram))
    (drives : ∃ registry, slice.executor = Micro.run registry)
    (accepted : slice.start.scheduler.config.check = .ok ()) (cpu : Cpu) :
    slice.start.scheduler.config.cycles.toInt ≤ slice.cycles cpu ∧
      slice.cycles cpu ≤ slice.start.scheduler.config.cycles.toInt + 1 := by
  obtain ⟨registry, core⟩ := drives
  obtain ⟨finish, turned, _, settings⟩ := turn_of_slice slice.completed cpu
  rw [core] at turned settings
  rw [← settings] at accepted ⊢
  generalize slice.start.atTurn setting depth (Micro.run registry) cpu = start
    at accepted turned ⊢
  have positive : 0 < start.scheduler.config.cycles.toInt := SliceConfig.pos_of_check accepted
  have ran : (slice.report.get cpu).ran.toInt = start.scheduler.config.cycles.toInt ∨
      (slice.report.get cpu).ran.toInt = start.scheduler.config.cycles.toInt + 1 :=
    spent_of_turn accepted turned
  rw [Completed.cycles]
  omega

/-- The slices of a number of slices are run by the executor that was asked for. -/
theorem executor_of_completed {ε : Type} {executor : Executor H ε} {machine : Machine H ε}
    (count : Nat) : ∀ slice ∈ machine.completed setting depth executor count,
      slice.executor = executor := by
  induction count generalizing machine with
  | zero => simp [completed]
  | succ count inductionHypothesis =>
    intro slice inside
    rw [completed] at inside
    split at inside
    · rcases List.mem_cons.mp inside with rfl | later
      · rfl
      · exact inductionHypothesis slice later
    · simp at inside

/-- If all calls of a run leave the slices to the small core, it runs those that complete.

Proof: by induction on the calls. The slices that a call completes have its executor. -/
theorem drives_of_runCompleted {calls : List (Call H (Bus Ram))} {machine : Machine H (Bus Ram)}
    (drive : ∀ next ∈ calls, next.Drives) :
    ∀ slice ∈ machine.runCompleted setting depth calls,
      ∃ registry, slice.executor = Micro.run registry := by
  induction calls generalizing machine with
  | nil => simp [runCompleted]
  | cons next later inductionHypothesis =>
    intro slice inside
    rcases List.mem_append.mp inside with now | afterwards
    · have drives : next.Drives := drive next List.mem_cons_self
      cases next with
      | slices executor count =>
        rw [executor_of_completed count slice now]
        exact drives
      | move next =>
        cases next with
        | slice executor =>
          rw [executor_of_completed 1 slice now]
          exact drives
        | act program => simp [callCompleted] at now
        | place contexts rig => simp [callCompleted] at now
    · exact inductionHypothesis (fun next member => drive next (List.mem_cons_of_mem _ member))
        slice afterwards

/-- Take settings that a scheduler accepts. A run of the small core with the budget that they grant
ends in it, whatever the memory, the context and the listeners are. Take a scheduler made for them
that drives the small core, with anything else going on in between. Then the total of each processor
is between as many budgets as it has completed slices, and that many cycles more. So the totals of
the processors differ by at most one cycle for each completed slice.

Proof: each completed slice adds between one budget and one cycle more to either total. The totals
start at zero, so they lie between as many budgets and as many cycles more as there are slices, and
the difference of the two is bounded by the width of that interval. -/
theorem totals_within_budgets (setting : Setting H) (depth : Nat) {config : SliceConfig}
    (accepted : config.check = .ok ()) :
    (∀ registry (context : Context) (bus : Bus Ram) (world : World H),
      Micro.EndsInBudget setting depth registry config.cycles
        (context.grant config.cycles, bus) world) ∧
    ∀ registry (start : Machine H (Bus Ram)),
      (Scheduler.plain config registry = .ok start.scheduler ∨
        ∃ before, Scheduler.watching config registry before = (.ok start.scheduler, start.world)) →
      ∀ calls, (∀ next ∈ calls, next.Drives) → start.Returns setting depth calls →
        let count : Int := (start.runCompleted setting depth calls).length
        let totals := (start.serve setting depth calls).scheduler.totals
        (∀ cpu, count * config.cycles.toInt ≤ totals.get cpu ∧
          totals.get cpu ≤ count * (config.cycles.toInt + 1)) ∧
        |(totals.get .master : Int) - totals.get .slave| ≤ count := by
  obtain ⟨positive, small⟩ := SliceConfig.bounds_of_check accepted
  refine ⟨?_, ?_⟩
  · intro registry context bus world
    exact Micro.endsInBudget setting depth registry positive small rfl rfl world
  · intro registry start made calls drive returns count totals
    obtain ⟨_, poller, new⟩ := Scheduler.fresh_of_made made
    obtain ⟨counted, terms⟩ := counted_of_run calls returns
    have each : ∀ cpu, ∀ slice ∈ start.runCompleted setting depth calls,
        config.cycles.toInt ≤ slice.cycles cpu ∧ slice.cycles cpu ≤ config.cycles.toInt + 1 := by
      intro cpu slice inside
      have settings : slice.start.scheduler.config = config :=
        Scheduler.config_eq_of_terms ((terms slice inside).trans (congrArg Scheduler.terms new))
      have ran : slice.start.scheduler.config.cycles.toInt ≤ Completed.cycles cpu slice ∧
          Completed.cycles cpu slice ≤ slice.start.scheduler.config.cycles.toInt + 1 :=
        spent_of_completed slice (drives_of_runCompleted drive slice inside)
          (settings.symm ▸ accepted) cpu
      rwa [settings] at ran
    have total : ∀ cpu, (totals.get cpu : Int) =
        ((start.runCompleted setting depth calls).map (Completed.cycles cpu)).sum := by
      intro cpu
      have sum : ((start.serve setting depth calls).scheduler.totals.get cpu : Int) =
          (start.scheduler.totals.get cpu : Int) +
          ((start.runCompleted setting depth calls).map (Completed.cycles cpu)).sum :=
        counted.totals cpu
      simp only [new, Scheduler.fresh, Pair.get_both] at sum
      exact sum.trans (Int.zero_add _)
    have within : ∀ cpu, count * config.cycles.toInt ≤ totals.get cpu ∧
        totals.get cpu ≤ count * (config.cycles.toInt + 1) := by
      intro cpu
      have above : ((start.runCompleted setting depth calls).map (Completed.cycles cpu)).length •
          config.cycles.toInt ≤
          ((start.runCompleted setting depth calls).map (Completed.cycles cpu)).sum :=
        List.card_nsmul_le_sum
          ((start.runCompleted setting depth calls).map (Completed.cycles cpu)) config.cycles.toInt
          (List.forall_mem_map.mpr fun slice inside => (each cpu slice inside).1)
      have below : ((start.runCompleted setting depth calls).map (Completed.cycles cpu)).sum ≤
          ((start.runCompleted setting depth calls).map (Completed.cycles cpu)).length •
          (config.cycles.toInt + 1) :=
        List.sum_le_card_nsmul
          ((start.runCompleted setting depth calls).map (Completed.cycles cpu))
          (config.cycles.toInt + 1)
          (List.forall_mem_map.mpr fun slice inside => (each cpu slice inside).2)
      rw [List.length_map, nsmul_eq_mul, ← total cpu] at above below
      exact ⟨above, below⟩
    refine ⟨within, ?_⟩
    have master : count * config.cycles.toInt ≤ (totals.get .master : Int) ∧
        (totals.get .master : Int) ≤ count * (config.cycles.toInt + 1) := within .master
    have slave : count * config.cycles.toInt ≤ (totals.get .slave : Int) ∧
        (totals.get .slave : Int) ≤ count * (config.cycles.toInt + 1) := within .slave
    rw [Int.mul_add, Int.mul_one] at master slave
    rw [abs_le]
    omega

/-- A program that loads a register and branches back to its beginning, over and over, which takes
three cycles each time. -/
def looping : Bus Ram :=
  .plain ⟨0, #[0xe1, 5, 0xaf, 0xfd, 0, 9], []⟩

/-- A scheduler that grants five cycles, with the master at the load and the slave at the branch. -/
def pacing : Machine ⟨Unit, Unit⟩ (Bus Ram) where
  scheduler := .fresh { SliceConfig.standard with cycles := 5 } 0 none
  contexts := ⟨.fresh .master false, { Context.fresh .slave false with pc := 2 }⟩
  rig := looping
  world := .initial ()

/-- Two slices of the small core, asked for in two ways. -/
def pacedCalls : List (Call ⟨Unit, Unit⟩ (Bus Ram)) := [
  .slices (Micro.run 0) 1,
  .move (.slice (Micro.run 0))]

/-- In two slices, the master passes its budget with a branch each time, and the slave once. -/
theorem totals_within_budgets_of_looping :
    pacing.scheduler.config.check = .ok () ∧
      Scheduler.plain pacing.scheduler.config 0 = .ok pacing.scheduler ∧
      (∀ next ∈ pacedCalls, next.Drives) ∧ pacing.Returns .still 1 pacedCalls ∧
      let totals := (pacing.serve .still 1 pacedCalls).scheduler.totals
      (∀ cpu, 2 * 5 ≤ (totals.get cpu : Int) ∧ (totals.get cpu : Int) ≤ 2 * 6) ∧
        totals = ⟨12, 11⟩ := by
  have accepted : pacing.scheduler.config.check = .ok () := by decide +kernel
  have made : Scheduler.plain pacing.scheduler.config 0 = .ok pacing.scheduler := rfl
  have drives : ∀ next ∈ pacedCalls, next.Drives := by
    simp [pacedCalls, Call.Drives]
  have returns : pacing.Returns .still 1 pacedCalls :=
    ⟨⟨.ok (), by decide +kernel⟩, ⟨.ok (), by decide +kernel⟩, trivial⟩
  have two : (pacing.runCompleted .still 1 pacedCalls).length = 2 := by decide +kernel
  have bounds := ((totals_within_budgets .still 1 accepted).2 0 pacing (.inl made) pacedCalls drives
    returns).1
  rw [two] at bounds
  exact ⟨accepted, made, drives, returns, bounds, by decide +kernel⟩

end Machine

end Sh2Pair
