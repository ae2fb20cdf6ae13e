import Sh2Pair.Proofs.Course

/-!
# What a slice comes to

A turn is passed over, or it ends as the executor does. A slice completes if both turns come back,
and it panics if one of them does; a misplaced context keeps it from beginning. A number of slices
goes on from one slice to the next, and stops at the first that does not complete.
-/

namespace Sh2Pair

namespace Outcome

variable {α β σ : Type} {result : Outcome α × σ} {next : α → σ → Outcome β × σ}

/-- Two steps in a row are done if the first is, and the second one from there. -/
theorem andThen_eq_done_iff {value : β} {after : σ} :
    andThen result next = (.done value, after) ↔
      ∃ first middle, result = (.done first, middle) ∧
        next first middle = (.done value, after) := by
  obtain ⟨outcome, state⟩ := result
  cases outcome <;> simp [andThen]

/-- Two steps in a row panic if the first does, or if the second does from where the first one is
done. -/
theorem andThen_eq_panicked_iff {cause : Panic} {after : σ} :
    andThen result next = (.panicked cause, after) ↔
      result = (.panicked cause, after) ∨
        ∃ first middle, result = (.done first, middle) ∧
          next first middle = (.panicked cause, after) := by
  obtain ⟨outcome, state⟩ := result
  cases outcome <;> simp [andThen]

end Outcome

namespace Machine

variable {H : Host} {ε : Type}

/-- No context is misplaced exactly if each one is in its place. -/
theorem misplaced?_eq_none_iff (machine : Machine H ε) :
    machine.misplaced? = none ↔ ∀ cpu, (machine.contexts.get cpu).cpu = cpu := by
  constructor
  · intro none cpu
    by_cases master : (machine.contexts.get .master).cpu = .master
    · by_cases slave : (machine.contexts.get .slave).cpu = .slave
      · cases cpu with
        | master => exact master
        | slave => exact slave
      · simp [misplaced?, master, slave] at none
    · simp [misplaced?, master] at none
  · intro placed
    simp [misplaced?, placed]

/-- What a turn that came back leaves. Whether it is passed over is decided when it starts. Its own
processor is credited with the cycles that its context shows then, a turn that was passed over with
the whole budget, and nothing else is counted. The context of the other processor is not touched. -/
structure Credited (machine : Machine H ε) (cpu : Cpu) (turn : Turn) (after : Machine H ε) :
    Prop where
  skipped : turn.skipped = machine.skips cpu
  scheduler : after.scheduler = machine.scheduler.credit cpu turn.ran
  ran : (after.contexts.get cpu).ran = turn.ran
  waits : after.contexts.get cpu.other = machine.contexts.get cpu.other
  whole : turn.skipped = true → turn.ran = machine.scheduler.config.cycles

section Turns

variable {setting : Setting H} {depth : Nat} {executor : Executor H ε} {machine : Machine H ε}
  {cpu : Cpu}

/-- A turn that is passed over counts as used up, and does nothing else. -/
theorem turn_of_skips (passes : machine.skips cpu = true) :
    machine.turn setting depth executor cpu =
      (.done ⟨machine.scheduler.config.cycles, true⟩, { machine with
        scheduler := machine.scheduler.credit cpu machine.scheduler.config.cycles
        contexts := machine.contexts.set cpu
          { (machine.contexts.get cpu).grant machine.scheduler.config.cycles with
            ran := machine.scheduler.config.cycles }
        world := machine.world.record (.skipped cpu machine.scheduler.config.cycles) }) := by
  have same : (machine.grant cpu).skips cpu = true := passes
  simp only [turn, same, if_true]
  simp only [pass, settle, grant, Pair.get_modify_self, Pair.set_modify, Pair.get_set_self]
  rfl

/-- A turn that is executed ends as the executor does. What is entered into the journal behind a
turn that came back does not touch the hub. -/
theorem turn_of_runs (runs : machine.skips cpu = false) {outcome : Outcome Unit}
    {context : Context} {rig : ε} {world : World H}
    (ran : setting.run depth executor
      ((machine.contexts.get cpu).grant machine.scheduler.config.cycles, machine.rig)
      (machine.world.record (.turnBegan cpu)) = (outcome, (context, rig), world)) :
    match outcome with
    | .done () => ∃ closed, closed.hub = world.hub ∧ machine.turn setting depth executor cpu =
        (.done ⟨context.ran, false⟩, ⟨machine.scheduler.credit cpu context.ran,
          machine.contexts.set cpu context, rig, closed⟩)
    | .panicked cause => machine.turn setting depth executor cpu =
        (.panicked cause, { machine with
          contexts := machine.contexts.set cpu context, rig, world })
    | .exhausted => machine.turn setting depth executor cpu =
        (.exhausted, { machine with
          contexts := machine.contexts.set cpu context, rig, world }) := by
  have same : (machine.grant cpu).skips cpu = false := runs
  have executed : (machine.grant cpu).execute setting depth executor cpu =
      (outcome, { machine with contexts := machine.contexts.set cpu context, rig, world }) := by
    simp only [execute, grant, Pair.get_modify_self, ran, Pair.set_modify]
  simp only [turn, same, Bool.false_eq_true, if_false, executed]
  cases outcome with
  | done value =>
    simp only [Outcome.andThen, close, settle, Pair.get_set_self]
    refine ⟨_, ?_, rfl⟩
    split
    · rfl
    · rfl
  | panicked cause => rfl
  | exhausted => rfl

/-- A turn that came back has credited its processor, and nothing else.

Proof: a turn that is passed over credits its budget. One that is executed comes back only if its
executor does, and credits what that consumed. -/
theorem credited_of_turn {turn : Turn} {after : Machine H ε}
    (ended : machine.turn setting depth executor cpu = (.done turn, after)) :
    Credited machine cpu turn after := by
  cases skips : machine.skips cpu with
  | true =>
    rw [turn_of_skips skips] at ended
    cases ended
    exact ⟨skips.symm, rfl, by rw [Pair.get_set_self], by rw [Pair.get_set_other], fun _ => rfl⟩
  | false =>
    cases ran : setting.run depth executor
      ((machine.contexts.get cpu).grant machine.scheduler.config.cycles, machine.rig)
      (machine.world.record (.turnBegan cpu)) with
    | mk outcome left =>
    obtain ⟨⟨context, rig⟩, world⟩ := left
    have turned := turn_of_runs skips ran
    cases outcome with
    | done value =>
      obtain ⟨closed, _, came⟩ := turned
      rw [came] at ended
      cases ended
      exact ⟨skips.symm, rfl, by rw [Pair.get_set_self], by rw [Pair.get_set_other], nofun⟩
    | panicked cause => cases turned.symm.trans ended
    | exhausted => cases turned.symm.trans ended

/-- The report of a turn tells whether it was passed over, which is decided when it starts. -/
theorem skipped_of_turn {turn : Turn} {after : Machine H ε}
    (ran : machine.turn setting depth executor cpu = (.done turn, after)) :
    turn.skipped = machine.skips cpu :=
  (credited_of_turn ran).skipped

/-- A turn panics exactly if the executor does, which then has run on the granted context. It leaves
what the executor left, and credits nothing.

Proof: a turn that is passed over does not panic, and one that is executed ends as its executor
does. -/
theorem turn_panicked_iff {cause : Panic} {after : Machine H ε} :
    machine.turn setting depth executor cpu = (.panicked cause, after) ↔
      machine.skips cpu = false ∧ ∃ context rig world,
        setting.run depth executor
          ((machine.contexts.get cpu).grant machine.scheduler.config.cycles, machine.rig)
          (machine.world.record (.turnBegan cpu)) = (.panicked cause, (context, rig), world) ∧
        after = { machine with contexts := machine.contexts.set cpu context, rig, world } := by
  cases skips : machine.skips cpu with
  | true =>
    rw [turn_of_skips skips]
    simp
  | false =>
    cases ran : setting.run depth executor
      ((machine.contexts.get cpu).grant machine.scheduler.config.cycles, machine.rig)
      (machine.world.record (.turnBegan cpu)) with
    | mk outcome left =>
    obtain ⟨⟨context, rig⟩, world⟩ := left
    have turned := turn_of_runs skips ran
    cases outcome with
    | done value =>
      obtain ⟨closed, _, came⟩ := turned
      simp [came]
    | panicked other =>
      rw [turned]
      simp only [Prod.mk.injEq, Outcome.panicked.injEq, true_and]
      constructor
      · rintro ⟨rfl, rfl⟩
        exact ⟨context, rig, world, ⟨rfl, ⟨rfl, rfl⟩, rfl⟩, rfl⟩
      · rintro ⟨_, _, _, ⟨rfl, ⟨rfl, rfl⟩, rfl⟩, rfl⟩
        exact ⟨rfl, rfl⟩
    | exhausted =>
      rw [turned]
      simp

end Turns

/-- The master's place is looked at first, and then the slave's. -/
theorem misplaced?_eq_some_iff (machine : Machine H ε) (misplaced : Misplaced) :
    machine.misplaced? = some misplaced ↔
      (misplaced.expected = .slave → (machine.contexts.get .master).cpu = .master) ∧
        misplaced.got = (machine.contexts.get misplaced.expected).cpu ∧
        misplaced.got ≠ misplaced.expected := by
  obtain ⟨expected, got⟩ := misplaced
  rw [misplaced?]
  by_cases master : (machine.contexts.get .master).cpu = .master
  · by_cases slave : (machine.contexts.get .slave).cpu = .slave
    · cases expected <;> simp +contextual [master, slave]
    · cases expected <;> simp +contextual [master, slave, eq_comm]
  · cases expected <;> simp +contextual [master, eq_comm]

section Slices

variable {setting : Setting H} {depth : Nat} {executor : Executor H ε} {machine : Machine H ε}

/-- The first turn of a slice starts at once. -/
theorem atTurn_first : machine.atTurn setting depth executor machine.scheduler.config.firstCpu =
    machine := if_pos rfl

/-- The second turn of a slice starts where the first one ended. -/
theorem atTurn_second {outcome : Outcome Turn} {middle : Machine H ε}
    (ended : machine.turn setting depth executor machine.scheduler.config.firstCpu =
      (outcome, middle)) :
    machine.atTurn setting depth executor machine.scheduler.config.firstCpu.other = middle := by
  rw [atTurn, if_neg (Cpu.other_ne _), ended]

/-- A misplaced context ends a slice before anything is touched. -/
theorem slice_of_misplaced {misplaced : Misplaced}
    (wrong : machine.misplaced? = some misplaced) :
    machine.slice setting depth executor = (.done (.error misplaced), machine) := by
  simp only [slice, wrong]

/-- A slice fails exactly if a context is misplaced, and then nothing happens. -/
theorem slice_error_iff {misplaced : Misplaced} {after : Machine H ε} :
    machine.slice setting depth executor = (.done (.error misplaced), after) ↔
      machine.misplaced? = some misplaced ∧ after = machine := by
  cases placed : machine.misplaced? with
  | some other =>
    rw [slice_of_misplaced placed]
    simp only [Prod.mk.injEq, Outcome.done.injEq, Except.error.injEq, Option.some.injEq, eq_comm]
  | none =>
    simp [slice, placed, Outcome.andThen_eq_done_iff]

/-- A slice completes exactly if both turns come back. It reports both, and counts itself.

Proof: a slice whose contexts are in place is two turns, and it completes exactly if both come back.
-/
theorem slice_ok_iff {report : Report} {after : Machine H ε} :
    machine.slice setting depth executor = (.done (.ok report), after) ↔
      machine.misplaced? = none ∧ ∃ middle last,
        machine.turn setting depth executor machine.scheduler.config.firstCpu =
          (.done (report.get machine.scheduler.config.firstCpu), middle) ∧
        middle.turn setting depth executor machine.scheduler.config.firstCpu.other =
          (.done (report.get machine.scheduler.config.firstCpu.other), last) ∧
        after = { last with
          scheduler := { last.scheduler with slices := last.scheduler.slices + 1 } } := by
  cases placed : machine.misplaced? with
  | some other => simp [slice_of_misplaced placed]
  | none =>
    simp only [slice, placed, Outcome.andThen_eq_done_iff, true_and]
    generalize machine.scheduler.config.firstCpu = first
    constructor
    · rintro ⟨turn, middle, firstRan, other, last, secondRan, ended⟩
      cases ended
      rw [Pair.get_other_set, Pair.get_both, Pair.get_set_self]
      exact ⟨middle, last, firstRan, secondRan, rfl⟩
    · rintro ⟨middle, last, firstRan, secondRan, rfl⟩
      refine ⟨_, middle, firstRan, _, last, secondRan, ?_⟩
      have both : (Pair.both (report.get first)).set first.other (report.get first.other) =
          report := by
        refine Pair.ext_get fun cpu => ?_
        rcases Cpu.eq_or_eq_other cpu first with rfl | rfl
        · rw [Pair.get_other_set, Pair.get_both]
        · rw [Pair.get_set_self]
      rw [both]

/-- A slice that completes reports how the turn of each processor went, from the moment at which
that turn started, and leaves the context of the processor as that turn did. -/
theorem turn_of_slice {report : Report} {after : Machine H ε}
    (ran : machine.slice setting depth executor = (.done (.ok report), after)) (cpu : Cpu) :
    ∃ finish, (machine.atTurn setting depth executor cpu).turn setting depth executor cpu =
        (.done (report.get cpu), finish) ∧
      finish.contexts.get cpu = after.contexts.get cpu ∧
      (machine.atTurn setting depth executor cpu).scheduler.config = machine.scheduler.config := by
  obtain ⟨_, middle, last, firstRan, secondRan, rfl⟩ := slice_ok_iff.mp ran
  rcases Cpu.eq_or_eq_other cpu machine.scheduler.config.firstCpu with here | here
  · have waits : last.contexts.get machine.scheduler.config.firstCpu.other.other =
        middle.contexts.get machine.scheduler.config.firstCpu.other.other :=
      (credited_of_turn secondRan).waits
    rw [Cpu.other_other, ← here] at waits
    have ready : machine.atTurn setting depth executor cpu = machine := here ▸ atTurn_first
    rw [ready]
    exact ⟨middle, here ▸ firstRan, waits.symm, rfl⟩
  · have settings : middle.scheduler.config = machine.scheduler.config := by
      rw [(credited_of_turn firstRan).scheduler]
      rfl
    rw [here, atTurn_second firstRan]
    exact ⟨last, secondRan, rfl, settings⟩

/-- A slice panics exactly if one of its turns does: the first one, or the second one after the
first has come back. -/
theorem slice_panicked_iff {cause : Panic} {after : Machine H ε} :
    machine.slice setting depth executor = (.panicked cause, after) ↔
      machine.misplaced? = none ∧
        (machine.turn setting depth executor machine.scheduler.config.firstCpu =
            (.panicked cause, after) ∨
          ∃ turn middle,
            machine.turn setting depth executor machine.scheduler.config.firstCpu =
              (.done turn, middle) ∧
            middle.turn setting depth executor machine.scheduler.config.firstCpu.other =
              (.panicked cause, after)) := by
  cases placed : machine.misplaced? with
  | some other => simp [slice_of_misplaced placed]
  | none =>
    simp only [slice, placed, Outcome.andThen_eq_panicked_iff, true_and]
    simp

/-- One slice, without its report. -/
theorem slices_one : machine.slices setting depth executor 1 =
    Prod.map (Outcome.map (Except.map fun _ => ())) id (machine.slice setting depth executor) := by
  rw [slices]
  cases machine.slice setting depth executor with
  | mk outcome after =>
  cases outcome with
  | done result => cases result <;> rfl
  | panicked cause => rfl
  | exhausted => rfl

/-- One slice of a row fails as the slice alone. -/
theorem slices_one_error_iff {misplaced : Misplaced} {after : Machine H ε} :
    machine.slices setting depth executor 1 = (.done (.error misplaced), after) ↔
      machine.slice setting depth executor = (.done (.error misplaced), after) := by
  rw [slices_one]
  obtain ⟨outcome, middle⟩ := machine.slice setting depth executor
  cases outcome with
  | done result => cases result <;> simp [Outcome.map, Except.map]
  | _ => simp [Outcome.map]

/-- One slice of a row panics as the slice alone. -/
theorem slices_one_panicked_iff {cause : Panic} {after : Machine H ε} :
    machine.slices setting depth executor 1 = (.panicked cause, after) ↔
      machine.slice setting depth executor = (.panicked cause, after) := by
  rw [slices_one]
  obtain ⟨outcome, middle⟩ := machine.slice setting depth executor
  cases outcome <;> simp [Outcome.map]

/-- A number of slices goes on from the first one, if this one completes, and ends with it
otherwise. -/
theorem slices_succ (count : Nat) :
    machine.slices setting depth executor (count + 1) =
      Outcome.andThen (machine.slices setting depth executor 1) fun result middle =>
        match result with
        | .ok _ => middle.slices setting depth executor count
        | .error misplaced => (.done (.error misplaced), middle) := by
  rw [slices_one, slices]
  cases machine.slice setting depth executor with
  | mk outcome after =>
  cases outcome with
  | done result => cases result <;> rfl
  | panicked cause => rfl
  | exhausted => rfl

/-- A number of slices that does not come to its end stops at a slice that does not complete, after
all slices before it have completed.

Proof: by induction on the number of slices. Either the first slice stops, or it completes and the
others stop as the induction says. -/
theorem slices_stopped_iff {outcome : Outcome (Except Misplaced Unit)} {after : Machine H ε}
    (stops : outcome ≠ .done (.ok ())) (count : Nat) :
    machine.slices setting depth executor count = (outcome, after) ↔
      ∃ earlier < count, ∃ reached,
        machine.slices setting depth executor earlier = (.done (.ok ()), reached) ∧
        reached.slices setting depth executor 1 = (outcome, after) := by
  induction count generalizing machine with
  | zero =>
    constructor
    · intro ended
      exact absurd (congrArg Prod.fst ended).symm stops
    · rintro ⟨_, less, _⟩
      exact absurd less (Nat.not_lt_zero _)
  | succ count inductionHypothesis =>
    constructor
    · intro ended
      rw [slices_succ] at ended
      cases one : machine.slices setting depth executor 1 with
      | mk first middle =>
      by_cases completed : first = .done (.ok ())
      · rw [one, completed] at ended
        obtain ⟨earlier, less, reached, before, stopped⟩ := inductionHypothesis.mp ended
        refine ⟨earlier + 1, Nat.succ_lt_succ less, reached, ?_, stopped⟩
        rw [slices_succ, one, completed]
        exact before
      · refine ⟨0, Nat.succ_pos _, machine, rfl, ?_⟩
        rw [one] at ended ⊢
        cases first with
        | done result =>
          cases result with
          | ok value => exact absurd rfl completed
          | error misplaced => exact ended
        | panicked cause => exact ended
        | exhausted => exact ended
    · rintro ⟨earlier, less, reached, before, stopped⟩
      cases earlier with
      | zero =>
        cases before
        rw [slices_succ, stopped]
        cases outcome with
        | done result =>
          cases result with
          | ok value => exact absurd rfl stops
          | error misplaced => rfl
        | panicked cause => rfl
        | exhausted => rfl
      | succ earlier =>
        rw [slices_succ] at before ⊢
        obtain ⟨result, middle, one, rest⟩ := Outcome.andThen_eq_done_iff.mp before
        rw [one]
        cases result with
        | ok value =>
          exact inductionHypothesis.mpr
            ⟨earlier, Nat.lt_of_succ_lt_succ less, reached, rest, stopped⟩
        | error misplaced => cases rest

/-- Some slices panic exactly if one of them does, after those before it completed. -/
theorem slices_panicked_iff {cause : Panic} {after : Machine H ε} (count : Nat) :
    machine.slices setting depth executor count = (.panicked cause, after) ↔
      ∃ earlier < count, ∃ reached,
        machine.slices setting depth executor earlier = (.done (.ok ()), reached) ∧
        reached.slice setting depth executor = (.panicked cause, after) := by
  rw [slices_stopped_iff (by simp)]
  simp only [slices_one_panicked_iff]

/-- A misplaced context, too, may be found after some slices only: an executor may put the context
of the other processor in the place of the one that it was given. -/
theorem slices_error_iff {misplaced : Misplaced} {after : Machine H ε} (count : Nat) :
    machine.slices setting depth executor count = (.done (.error misplaced), after) ↔
      ∃ earlier < count,
        machine.slices setting depth executor earlier = (.done (.ok ()), after) ∧
        after.misplaced? = some misplaced := by
  rw [slices_stopped_iff (by simp)]
  simp only [slices_one_error_iff, slice_error_iff]
  constructor
  · rintro ⟨earlier, less, reached, before, wrong, rfl⟩
    exact ⟨earlier, less, before, wrong⟩
  · rintro ⟨earlier, less, before, wrong⟩
    exact ⟨earlier, less, after, before, wrong, rfl⟩

end Slices

end Machine

end Sh2Pair
