import Sh2Pair.Proofs.Accounting

/-!
# What a slice that fails leaves

A slice fails in two ways. A misplaced context is found before anything happens, and nothing is
touched. A panic comes out of a turn, from the executor or from a listener behind it, and leaves
what had happened until then: the turns that were over are counted, the one that panicked is not,
and the one behind it has not begun. Nothing else is left behind, so the next slice starts from
there as from anywhere.
-/

namespace Sh2Pair

namespace Machine

variable {H : Host} {ε : Type}

/-- What a panic in the turn of a processor leaves of a slice. -/
structure BrokenOff (setting : Setting H) (depth : Nat) (executor : Executor H ε)
    (machine : Machine H ε) (cpu : Cpu) (cause : Panic) (after : Machine H ε) : Prop where
  placed : ∀ place, (machine.contexts.get place).cpu = place
  /-- If the processor comes second, the first turn is over and counted. -/
  second : cpu = machine.scheduler.config.firstCpu.other → ∃ turn,
    machine.turn setting depth executor cpu.other =
      (.done turn, machine.atTurn setting depth executor cpu) ∧
    after.scheduler.totals.get cpu.other =
      machine.scheduler.totals.get cpu.other + Cycles.credit turn.ran
  /-- If it comes first, the other one has not been granted anything, and counts nothing. -/
  first : cpu = machine.scheduler.config.firstCpu →
    machine.atTurn setting depth executor cpu = machine ∧
    after.scheduler.totals.get cpu.other = machine.scheduler.totals.get cpu.other ∧
    after.contexts.get cpu.other = machine.contexts.get cpu.other
  /-- The turn was not passed over, and what it left is what the executor left. -/
  panicked : let ready := machine.atTurn setting depth executor cpu
    ready.skips cpu = false ∧ ∃ context rig world,
      setting.run depth executor
        ((ready.contexts.get cpu).grant ready.scheduler.config.cycles, ready.rig)
        (ready.world.record (.turnBegan cpu)) = (.panicked cause, (context, rig), world) ∧
      after = { ready with contexts := ready.contexts.set cpu context, rig, world }
  terms : after.scheduler.terms = machine.scheduler.terms
  slices : after.scheduler.slices = machine.scheduler.slices
  own : after.scheduler.totals.get cpu = machine.scheduler.totals.get cpu

section Slices

variable {setting : Setting H} {depth : Nat} {executor : Executor H ε} {machine after : Machine H ε}
  {cause : Panic}

/-- If the first turn panics, the slice breaks off there. -/
theorem brokenOff_of_first (placed : machine.misplaced? = none)
    (turned : machine.turn setting depth executor machine.scheduler.config.firstCpu =
      (.panicked cause, after)) :
    BrokenOff setting depth executor machine machine.scheduler.config.firstCpu cause after := by
  obtain ⟨runs, context, rig, world, ran, rfl⟩ := turn_panicked_iff.mp turned
  constructor
  case placed => exact (misplaced?_eq_none_iff machine).mp placed
  case second => exact fun same => absurd same.symm (Cpu.other_ne _)
  case first => exact fun _ => ⟨atTurn_first, rfl, Pair.get_set_other ..⟩
  case panicked =>
    intro ready
    have same : ready = machine := atTurn_first
    rw [same]
    exact ⟨runs, context, rig, world, ran, rfl⟩
  all_goals rfl

/-- If the second turn panics, the slice breaks off there.

Proof: what the machine was in front of the second turn is what the first turn has left, and this
turn has only credited its own processor. -/
theorem brokenOff_of_second (placed : machine.misplaced? = none) {turn : Turn}
    {middle : Machine H ε}
    (first : machine.turn setting depth executor machine.scheduler.config.firstCpu =
      (.done turn, middle))
    (turned : middle.turn setting depth executor machine.scheduler.config.firstCpu.other =
      (.panicked cause, after)) :
    BrokenOff setting depth executor machine machine.scheduler.config.firstCpu.other cause
      after := by
  have ready :
      machine.atTurn setting depth executor machine.scheduler.config.firstCpu.other = middle :=
    atTurn_second first
  have credited : machine.Credited machine.scheduler.config.firstCpu turn middle :=
    credited_of_turn first
  obtain ⟨runs, context, rig, world, ran, rfl⟩ := turn_panicked_iff.mp turned
  constructor
  case placed => exact (misplaced?_eq_none_iff machine).mp placed
  case second =>
    intro _
    rw [Cpu.other_other, ready]
    refine ⟨turn, first, ?_⟩
    simp only [credited.scheduler, Scheduler.credit, Pair.get_modify_self]
  case first => exact fun same => absurd same (Cpu.other_ne _)
  case panicked =>
    rw [ready]
    exact ⟨runs, context, rig, world, ran, rfl⟩
  case terms =>
    simp only [credited.scheduler]
    rfl
  case slices =>
    simp only [credited.scheduler]
    rfl
  case own =>
    simp only [credited.scheduler, Scheduler.credit, Pair.modify, Pair.get_set_other]

/-- A slice panics exactly if it is broken off in the turn of a processor. -/
theorem slice_brokenOff_iff :
    machine.slice setting depth executor = (.panicked cause, after) ↔
      ∃ cpu, BrokenOff setting depth executor machine cpu cause after := by
  rw [slice_panicked_iff]
  constructor
  · rintro ⟨placed, turned | ⟨turn, middle, first, turned⟩⟩
    · exact ⟨_, brokenOff_of_first placed turned⟩
    · exact ⟨_, brokenOff_of_second placed first turned⟩
  · rintro ⟨cpu, broken⟩
    refine ⟨(misplaced?_eq_none_iff machine).mpr broken.placed, ?_⟩
    have turned : (machine.atTurn setting depth executor cpu).turn setting depth executor cpu =
        (.panicked cause, after) := turn_panicked_iff.mpr broken.panicked
    rcases Cpu.eq_or_eq_other cpu machine.scheduler.config.firstCpu with first | second
    · left
      rwa [(broken.first first).1, first] at turned
    · right
      obtain ⟨turn, before, _⟩ := broken.second second
      rw [second, Cpu.other_other] at before
      rw [second] at turned
      exact ⟨turn, _, before, turned⟩

end Slices

/-- Everything that a slice, or a number of slices, of a machine can come to with an executor. -/
structure EndsExactly (setting : Setting H) (depth : Nat) (executor : Executor H ε)
    (machine : Machine H ε) : Prop where
  /-- A wrong context in the place of the master is reported, and nothing is touched. -/
  master : (machine.contexts.get .master).cpu ≠ .master → ∀ count,
    let misplaced := ⟨.master, (machine.contexts.get .master).cpu⟩
    machine.slice setting depth executor = (.done (.error misplaced), machine) ∧
      machine.slices setting depth executor (count + 1) = (.done (.error misplaced), machine)
  /-- So is one in the place of the slave, if the master is in its own. -/
  slave : (machine.contexts.get .master).cpu = .master →
    (machine.contexts.get .slave).cpu ≠ .slave → ∀ count,
    let misplaced := ⟨.slave, (machine.contexts.get .slave).cpu⟩
    machine.slice setting depth executor = (.done (.error misplaced), machine) ∧
      machine.slices setting depth executor (count + 1) = (.done (.error misplaced), machine)
  ok_iff : ∀ report after, machine.slice setting depth executor = (.done (.ok report), after) ↔
    machine.misplaced? = none ∧ ∃ middle last,
      machine.turn setting depth executor machine.scheduler.config.firstCpu =
        (.done (report.get machine.scheduler.config.firstCpu), middle) ∧
      middle.turn setting depth executor machine.scheduler.config.firstCpu.other =
        (.done (report.get machine.scheduler.config.firstCpu.other), last) ∧
      after = { last with
        scheduler := { last.scheduler with slices := last.scheduler.slices + 1 } }
  panicked_iff : ∀ cause after, machine.slice setting depth executor = (.panicked cause, after) ↔
    ∃ cpu, BrokenOff setting depth executor machine cpu cause after
  /-- A number of slices panics in one of them, and has counted exactly those before it. -/
  slices_panicked_iff : ∀ count cause after,
    machine.slices setting depth executor count = (.panicked cause, after) ↔
      ∃ earlier < count, ∃ reached cpu,
        machine.slices setting depth executor earlier = (.done (.ok ()), reached) ∧
        BrokenOff setting depth executor reached cpu cause after ∧
        after.scheduler.slices = machine.scheduler.slices + earlier

section Laws

variable (setting : Setting H) (depth : Nat) (executor : Executor H ε) (machine : Machine H ε)

/-- A misplaced context fails a slice, and a number of slices at the first. -/
theorem refused_of_misplaced {misplaced : Misplaced}
    (wrong : machine.misplaced? = some misplaced) (count : Nat) :
    machine.slice setting depth executor = (.done (.error misplaced), machine) ∧
      machine.slices setting depth executor (count + 1) = (.done (.error misplaced), machine) :=
  ⟨slice_of_misplaced wrong, (slices_error_iff _).mpr ⟨0, Nat.succ_pos count, rfl, wrong⟩⟩

/-- A slice ends in one of the three ways, and leaves the machine as this way says.

Proof: one field per way to end. The slice that panics is the one after those that completed, and
counting these says which one it is. -/
theorem endsExactly : EndsExactly setting depth executor machine := by
  constructor
  case master =>
    intro wrong count
    exact refused_of_misplaced setting depth executor machine
      ((misplaced?_eq_some_iff machine ⟨.master, _⟩).mpr ⟨nofun, rfl, wrong⟩) count
  case slave =>
    intro right wrong count
    exact refused_of_misplaced setting depth executor machine
      ((misplaced?_eq_some_iff machine ⟨.slave, _⟩).mpr ⟨fun _ => right, rfl, wrong⟩) count
  case ok_iff => exact fun _ _ => slice_ok_iff
  case panicked_iff => exact fun _ _ => slice_brokenOff_iff
  case slices_panicked_iff =>
    intro count cause after
    rw [slices_panicked_iff]
    simp only [slice_brokenOff_iff]
    constructor
    · rintro ⟨earlier, less, reached, before, cpu, broken⟩
      refine ⟨earlier, less, reached, cpu, before, broken, ?_⟩
      have serves : machine.Serves executor earlier (.ok ()) reached
          (machine.completed setting depth executor earlier) := serves_of_slices before
      rw [broken.slices, serves.chain.counted.slices, serves.ok rfl]
    · rintro ⟨earlier, less, reached, cpu, before, broken, _⟩
      exact ⟨earlier, less, reached, before, cpu, broken⟩

end Laws

/-- Every slice of every machine ends exactly, and so does the next one after a slice that panicked,
with any executor.

Proof: a slice ends exactly whatever machine it starts from, so also from one that a panic has left.
-/
theorem slices_end_exactly (setting : Setting H) (depth : Nat) (executor : Executor H ε)
    (machine : Machine H ε) :
    EndsExactly setting depth executor machine ∧
      ∀ count cause after,
        machine.slices setting depth executor count = (.panicked cause, after) →
          ∀ next, EndsExactly setting depth next after :=
  ⟨endsExactly setting depth executor machine,
    fun _ _ after _ next => endsExactly setting depth next after⟩

/-- An executor that consumes seven cycles and panics when the slave runs for the second time. -/
def tripping : Executor ⟨Unit, Unit⟩ Bool :=
  .look fun (context, tired) =>
    if context.cpu = .slave ∧ tired then .panic (.raised "tripped")
    else .change (fun (context, tired) =>
      ({ context with ran := 7 }, tired || decide (context.cpu = .slave))) (.ret ())

/-- The second of three slices panics in the turn of the slave, after that of the master. The next
slice would find the contexts in their places. -/
theorem slices_end_exactly_of_tripping :
    let machine : Machine ⟨Unit, Unit⟩ Bool :=
      ⟨.fresh .standard 0 none, SliceConfig.standard.contexts, false, .initial ()⟩
    ∃ after, machine.slices .still 1 tripping 3 = (.panicked (.raised "tripped"), after) ∧
      after.scheduler.slices = 1 ∧ after.scheduler.totals = ⟨14, 7⟩ ∧
      (∃ earlier < 3, ∃ reached cpu,
        machine.slices .still 1 tripping earlier = (.done (.ok ()), reached) ∧
        BrokenOff .still 1 tripping reached cpu (.raised "tripped") after ∧
        after.scheduler.slices = machine.scheduler.slices + earlier) ∧
      EndsExactly .still 1 (.ret ()) after := by
  intro machine
  obtain ⟨ends, next⟩ := slices_end_exactly .still 1 tripping machine
  refine ⟨_, rfl, rfl, rfl, ?_, ?_⟩
  · exact (ends.slices_panicked_iff 3 (.raised "tripped") _).mp rfl
  · exact next 3 (.raised "tripped") _ rfl (.ret ())

end Machine

end Sh2Pair
