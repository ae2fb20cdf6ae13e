import Mathlib.Algebra.Order.Ring.Int
import Sh2Pair.Proofs.Skipping
import Sh2Pair.Proofs.Slices

/-!
# What a scheduler counts

A scheduler counts the slices that it completed and the cycles that each processor consumed in them.
The completed slices of a run are listed here beside the run, each with the machine that it started
from, its report, and the proof that it did complete. The counts of the scheduler follow the list,
whatever else the surroundings do in between, and whatever calls fail.
-/

namespace Sh2Pair

/-- A negative count credits nothing, and any other one itself. -/
theorem Cycles.credit_eq_max (count : Int32) : (credit count : Int) = max 0 count.toInt := by
  rw [credit]
  omega

variable {H : Host} {ε : Type}

/-- A scheduler is made for settings that are accepted only, and has counted nothing then. -/
theorem Scheduler.fresh_of_made {config : SliceConfig} {registry : Nat} {built : World H}
    {scheduler : Scheduler}
    (made : plain config registry = .ok scheduler ∨
      ∃ before, watching config registry before = (.ok scheduler, built)) :
    config.check = .ok () ∧ ∃ poller, scheduler = fresh config registry poller := by
  rcases made with made | ⟨before, made⟩
  · refine ⟨?_, none, eq_fresh_of_plain made⟩
    cases accepted : config.check with
    | ok valid => rfl
    | error cause =>
      rw [plain, accepted] at made
      cases made
  · obtain ⟨number, _, same⟩ := attach_of_watching made
    refine ⟨?_, some number, same⟩
    cases accepted : config.check with
    | ok valid => rfl
    | error cause =>
      rw [watching, accepted] at made
      cases made

/-- A slice that completed. -/
structure Completed (setting : Setting H) (depth : Nat) (ε : Type) where
  executor : Executor H ε
  start : Machine H ε
  report : Report
  finish : Machine H ε
  completed : start.slice setting depth executor = (.done (.ok report), finish)

namespace Completed

variable {setting : Setting H} {depth : Nat}

/-- The cycles that a completed slice adds to the total of a processor. -/
def cycles (cpu : Cpu) (slice : Completed setting depth ε) : Int :=
  max 0 (slice.report.get cpu).ran.toInt

/-- Completed slices each of which starts where the one before finished. -/
def Chain (start : Machine H ε) : List (Completed setting depth ε) → Machine H ε → Prop
  | [], finish => finish = start
  | slice :: later, finish => slice.start = start ∧ Chain slice.finish later finish

/-- What a completed slice reports about a processor. Its turn started when the turns before it had
ended, and the report says what the context showed when it ended. The rest of the slice leaves the
context like this. -/
structure Reports (slice : Completed setting depth ε) (cpu : Cpu) : Prop where
  turn : ∃ ended,
    (slice.start.atTurn setting depth slice.executor cpu).turn setting depth slice.executor cpu =
      (.done (slice.report.get cpu), ended) ∧
    (ended.contexts.get cpu).ran = (slice.report.get cpu).ran
  kept : (slice.finish.contexts.get cpu).ran = (slice.report.get cpu).ran
  whole : (slice.report.get cpu).skipped = true →
    (slice.report.get cpu).ran = slice.start.scheduler.config.cycles

end Completed

namespace Machine

/-- What can be asked of a scheduler, and what its surroundings do besides. -/
inductive Call (H : Host) (ε : Type) where
  /-- A slice, or something that leaves the scheduler alone. -/
  | move (next : Move H ε)
  /-- A number of slices. -/
  | slices (executor : Executor H ε) (count : Nat)

variable (setting : Setting H) (depth : Nat)

/-- A call, and how it ended. What a program of the surroundings comes to is no matter of the
scheduler. -/
def call (machine : Machine H ε) : Call H ε → Outcome (Except Misplaced Unit) × Machine H ε
  | .move (.slice executor) =>
    Prod.map (Outcome.map (Except.map fun _ => ())) id (machine.slice setting depth executor)
  | .move next => (.done (.ok ()), machine.move setting depth next)
  | .slices executor count => machine.slices setting depth executor count

/-- The machine after a run of calls. -/
def serve : List (Call H ε) → Machine H ε → Machine H ε
  | [], machine => machine
  | next :: later, machine => serve later (machine.call setting depth next).2

/-- No call of a run panics. A call may fail because a context is misplaced. -/
def Returns : List (Call H ε) → Machine H ε → Prop
  | [], _ => True
  | next :: later, machine =>
    (∃ result, (machine.call setting depth next).1 = .done result) ∧
      Returns later (machine.call setting depth next).2

/-- The completed slices of a number of slices. -/
def completed (executor : Executor H ε) : Nat → Machine H ε → List (Completed setting depth ε)
  | 0, _ => []
  | count + 1, machine =>
    match ended : machine.slice setting depth executor with
    | (.done (.ok report), finish) =>
      ⟨executor, machine, report, finish, ended⟩ :: completed executor count finish
    | _ => []

/-- The completed slices of a call. -/
def callCompleted (machine : Machine H ε) : Call H ε → List (Completed setting depth ε)
  | .move (.slice executor) => machine.completed setting depth executor 1
  | .move _ => []
  | .slices executor count => machine.completed setting depth executor count

/-- The completed slices of a run of calls. -/
def runCompleted : List (Call H ε) → Machine H ε → List (Completed setting depth ε)
  | [], _ => []
  | next :: later, machine =>
    machine.callCompleted setting depth next ++
      runCompleted later (machine.call setting depth next).2

end Machine

namespace Completed

variable {setting : Setting H} {depth : Nat} (slice : Completed setting depth ε)

/-- What a completed slice counts: itself, and the cycles of both turns.

Proof: a completed slice is two turns, each of which credits its own processor. The two credits meet
in one scheduler, where they do not touch each other. -/
theorem counts :
    slice.finish.scheduler.terms = slice.start.scheduler.terms ∧
      slice.finish.scheduler.slices = slice.start.scheduler.slices + 1 ∧
      ∀ cpu, (slice.finish.scheduler.totals.get cpu : Int) =
        slice.start.scheduler.totals.get cpu + slice.cycles cpu := by
  obtain ⟨_, middle, last, firstRan, secondRan, finish⟩ := Machine.slice_ok_iff.mp slice.completed
  have first : slice.start.Credited slice.start.scheduler.config.firstCpu
      (slice.report.get slice.start.scheduler.config.firstCpu) middle :=
    Machine.credited_of_turn firstRan
  have second : middle.Credited slice.start.scheduler.config.firstCpu.other
      (slice.report.get slice.start.scheduler.config.firstCpu.other) last :=
    Machine.credited_of_turn secondRan
  generalize slice.start.scheduler.config.firstCpu = place at first second
  rw [finish, second.scheduler, first.scheduler]
  refine ⟨rfl, rfl, ?_⟩
  intro cpu
  simp only [Scheduler.credit, cycles, Pair.modify, ← Cycles.credit_eq_max]
  rcases Cpu.eq_or_eq_other cpu place with rfl | rfl
  · rw [Pair.get_other_set, Pair.get_set_self, Int.natCast_add]
  · rw [Pair.get_set_self, Pair.get_set_other, Int.natCast_add]

/-- Of either processor, a completed slice reports what its turn left. -/
theorem reports (cpu : Cpu) : slice.Reports cpu := by
  obtain ⟨ended, turned, context, settings⟩ := Machine.turn_of_slice slice.completed cpu
  have credited : (slice.start.atTurn setting depth slice.executor cpu).Credited cpu
      (slice.report.get cpu) ended := Machine.credited_of_turn turned
  constructor
  case turn => exact ⟨ended, turned, credited.ran⟩
  case kept => rw [← context, credited.ran]
  case whole =>
    intro skipped
    rw [credited.whole skipped, settings]

/-- A slice that completed had both contexts in their places. -/
theorem placed (cpu : Cpu) : (slice.start.contexts.get cpu).cpu = cpu :=
  (Machine.misplaced?_eq_none_iff _).mp (Machine.slice_ok_iff.mp slice.completed).1 cpu

end Completed

namespace Machine

variable {setting : Setting H} {depth : Nat}

/-- A later machine of the same scheduler, which has counted some completed slices since. -/
structure Counted (before after : Machine H ε) (done : List (Completed setting depth ε)) :
    Prop where
  terms : after.scheduler.terms = before.scheduler.terms
  slices : after.scheduler.slices = before.scheduler.slices + done.length
  totals : ∀ cpu, (after.scheduler.totals.get cpu : Int) =
    before.scheduler.totals.get cpu + (done.map (Completed.cycles cpu)).sum

namespace Counted

/-- Where no slice has completed, nothing is counted. -/
theorem nothing {before after : Machine H ε} (same : after.scheduler = before.scheduler) :
    Counted before after ([] : List (Completed setting depth ε)) := by
  refine ⟨by rw [same], by rw [same]; rfl, ?_⟩
  intro cpu
  rw [same, List.map_nil, List.sum_nil, Int.add_zero]

/-- A completed slice is counted, with the cycles of its turns. -/
theorem slice (slice : Completed setting depth ε) : Counted slice.start slice.finish [slice] := by
  obtain ⟨terms, slices, totals⟩ := slice.counts
  refine ⟨terms, slices, ?_⟩
  intro cpu
  rw [totals, List.map_singleton, List.sum_singleton]

/-- What was counted in two stretches, one after the other, was counted in both together. -/
theorem trans {start middle finish : Machine H ε} {early late : List (Completed setting depth ε)}
    (first : Counted start middle early) (second : Counted middle finish late) :
    Counted start finish (early ++ late) := by
  constructor
  case terms => exact second.terms.trans first.terms
  case slices => rw [second.slices, first.slices, List.length_append, Nat.add_assoc]
  case totals =>
    intro cpu
    rw [second.totals, first.totals, List.map_append, List.sum_append, Int.add_assoc]

end Counted

end Machine

namespace Completed

variable {setting : Setting H} {depth : Nat} {start finish : Machine H ε}
  {done : List (Completed setting depth ε)}

/-- A chain of completed slices is counted from its start to its finish. -/
theorem Chain.counted (chain : Chain start done finish) : Machine.Counted start finish done := by
  induction done generalizing start with
  | nil => exact .nothing (congrArg Machine.scheduler chain)
  | cons slice later inductionHypothesis =>
    obtain ⟨rfl, rest⟩ := chain
    exact .trans (.slice slice) (inductionHypothesis rest)

/-- All slices of a chain are of the same scheduler. -/
theorem Chain.terms (chain : Chain start done finish) :
    ∀ slice ∈ done, slice.start.scheduler.terms = start.scheduler.terms := by
  induction done generalizing start with
  | nil => exact fun _ inside => absurd inside List.not_mem_nil
  | cons slice later inductionHypothesis =>
    obtain ⟨rfl, rest⟩ := chain
    intro other inside
    rcases List.mem_cons.mp inside with rfl | after
    · rfl
    · exact (inductionHypothesis rest other after).trans slice.counts.1

/-- Where a chain finishes, each context is in its place if no slice has exchanged it. -/
theorem Chain.misplaced? (chain : Chain start done finish)
    (kept : ∀ slice ∈ done, ∀ cpu, (slice.finish.contexts.get cpu).cpu = cpu) :
    finish = start ∨ finish.misplaced? = none := by
  induction done generalizing start with
  | nil => exact .inl chain
  | cons slice later inductionHypothesis =>
    obtain ⟨rfl, rest⟩ := chain
    rcases inductionHypothesis rest (fun other inside => kept other (List.mem_cons_of_mem _ inside))
      with same | placed
    · right
      rw [same, Machine.misplaced?_eq_none_iff]
      exact kept slice (List.mem_cons_self ..)
    · exact .inr placed

end Completed

namespace Machine

variable {setting : Setting H} {depth : Nat}

/-- What a number of slices comes to if it does not panic. It completes one slice after the other.
If it completes fewer than it was asked for, a context is misplaced then. In this case it has
changed nothing at all, or the executor of a slice that it completed has put the context of the
other processor in the place of the one that it was given. -/
structure Serves (machine : Machine H ε) (executor : Executor H ε) (count : Nat)
    (result : Except Misplaced Unit) (after : Machine H ε)
    (done : List (Completed setting depth ε)) : Prop where
  chain : Completed.Chain machine done after
  executor : ∀ slice ∈ done, slice.executor = executor
  ok : result = .ok () → done.length = count
  error : ∀ misplaced, result = .error misplaced → done.length < count ∧
    after.misplaced? = some misplaced ∧
    (after = machine ∨ ∃ slice ∈ done, ∃ cpu, (slice.start.contexts.get cpu).cpu = cpu ∧
      (slice.finish.contexts.get cpu).cpu ≠ cpu)

section Slices

variable {executor : Executor H ε} {machine after : Machine H ε}

/-- If the first slice completes, it is the first one in the list, before those that follow it. -/
theorem completed_succ {report : Report} (ended : machine.slice setting depth executor =
    (.done (.ok report), after)) (count : Nat) :
    machine.completed setting depth executor (count + 1) =
      ⟨executor, machine, report, after, ended⟩ ::
        after.completed setting depth executor count := by
  rw [completed]
  split
  · rename_i other finish ran
    cases ended.symm.trans ran
    rfl
  · rename_i never
    exact absurd ended (never report after)

/-- If the first slice does not complete, none does. -/
theorem completed_of_stopped
    (stopped : ∀ report after, machine.slice setting depth executor ≠ (.done (.ok report), after))
    (count : Nat) : machine.completed setting depth executor count = [] := by
  cases count with
  | zero => rfl
  | succ count =>
    rw [completed]
    split
    · rename_i report finish ran
      exact absurd ran (stopped report finish)
    · rfl

/-- A number of slices that does not panic completes a chain of slices, all of them unless a context
is misplaced at the end of the chain.

Proof: by induction on the number of slices. A first slice that completes stands in front of the
chain that the others complete; one that fails leaves the machine as it was, so that the chain is
empty and the misplaced context is still there. -/
theorem chain_of_slices {result : Except Misplaced Unit} (count : Nat)
    (served : machine.slices setting depth executor count = (.done result, after)) :
    let done := machine.completed setting depth executor count
    Completed.Chain machine done after ∧ (∀ slice ∈ done, slice.executor = executor) ∧
      (result = .ok () → done.length = count) ∧
      ∀ misplaced, result = .error misplaced →
        done.length < count ∧ after.misplaced? = some misplaced := by
  intro done
  induction count generalizing machine with
  | zero =>
    cases served
    exact ⟨rfl, fun _ inside => absurd inside List.not_mem_nil, fun _ => rfl, nofun⟩
  | succ count inductionHypothesis =>
    cases ran : machine.slice setting depth executor with
    | mk outcome middle =>
    rw [slices, ran] at served
    cases outcome with
    | panicked cause => cases served
    | exhausted => cases served
    | done sliced =>
      cases sliced with
      | ok report =>
        obtain ⟨chain, executors, all, few⟩ := inductionHypothesis served
        have first : done = _ := completed_succ ran count
        rw [first]
        refine ⟨⟨rfl, chain⟩, ?_, ?_, ?_⟩
        · rintro slice inside
          rcases List.mem_cons.mp inside with rfl | later
          · rfl
          · exact executors slice later
        · intro ok
          rw [List.length_cons, all ok]
        · intro misplaced error
          exact ⟨Nat.succ_lt_succ (few misplaced error).1, (few misplaced error).2⟩
      | error misplaced =>
        obtain ⟨wrong, rfl⟩ := slice_error_iff.mp ran
        cases served
        have none : done = [] := completed_of_stopped (fun report after ended => by
          cases ran.symm.trans ended) (count + 1)
        rw [none]
        refine ⟨rfl, fun _ inside => absurd inside List.not_mem_nil, ?_, ?_⟩
        · rintro ⟨⟩
        · rintro _ ⟨⟩
          exact ⟨Nat.succ_pos count, wrong⟩

/-- Some slices that do not panic serve those that completed, and no others. -/
theorem serves_of_slices {result : Except Misplaced Unit} {count : Nat}
    (served : machine.slices setting depth executor count = (.done result, after)) :
    Serves machine executor count result after
      (machine.completed setting depth executor count) := by
  obtain ⟨chain, executors, all, few⟩ := chain_of_slices count served
  refine ⟨chain, executors, all, ?_⟩
  intro misplaced error
  obtain ⟨fewer, wrong⟩ := few misplaced error
  refine ⟨fewer, wrong, ?_⟩
  by_cases kept : ∀ slice ∈ machine.completed setting depth executor count, ∀ cpu,
      (slice.finish.contexts.get cpu).cpu = cpu
  · rcases chain.misplaced? kept with same | placed
    · exact .inl same
    · rw [placed] at wrong
      cases wrong
  · push Not at kept
    obtain ⟨slice, inside, cpu, exchanged⟩ := kept
    exact .inr ⟨slice, inside, cpu, slice.placed cpu, exchanged⟩

end Slices

section Runs

variable {machine : Machine H ε}

/-- A call that does not panic counts the slices that it completed.

Proof: a call is a number of slices, a single slice, which is such a number, or something that
leaves the scheduler alone. -/
theorem counted_of_call {next : Call H ε} {result : Except Misplaced Unit} {after : Machine H ε}
    (called : machine.call setting depth next = (.done result, after)) :
    Counted machine after (machine.callCompleted setting depth next) ∧
      ∀ slice ∈ machine.callCompleted setting depth next,
        slice.start.scheduler.terms = machine.scheduler.terms := by
  cases next with
  | slices executor count =>
    have serves : machine.Serves executor count result after
        (machine.completed setting depth executor count) := serves_of_slices called
    exact ⟨serves.chain.counted, serves.chain.terms⟩
  | move next =>
    cases next with
    | slice executor =>
      rw [call, ← slices_one] at called
      have serves :
          machine.Serves executor 1 result after (machine.completed setting depth executor 1) :=
        serves_of_slices called
      exact ⟨serves.chain.counted, serves.chain.terms⟩
    | act program =>
      cases called
      exact ⟨.nothing rfl, fun _ inside => absurd inside List.not_mem_nil⟩
    | place contexts rig =>
      cases called
      exact ⟨.nothing rfl, fun _ inside => absurd inside List.not_mem_nil⟩

/-- A run of calls none of which panics counts the slices that it completed. -/
theorem counted_of_run (calls : List (Call H ε)) (returns : machine.Returns setting depth calls) :
    Counted machine (machine.serve setting depth calls) (machine.runCompleted setting depth calls) ∧
      ∀ slice ∈ machine.runCompleted setting depth calls,
        slice.start.scheduler.terms = machine.scheduler.terms := by
  induction calls generalizing machine with
  | nil => exact ⟨.nothing rfl, fun _ inside => absurd inside List.not_mem_nil⟩
  | cons next later inductionHypothesis =>
    obtain ⟨⟨result, came⟩, rest⟩ := returns
    obtain ⟨counted, terms⟩ := counted_of_call (Prod.ext came rfl :
      machine.call setting depth next = (.done result, (machine.call setting depth next).2))
    obtain ⟨recounted, same⟩ := inductionHypothesis rest
    refine ⟨counted.trans recounted, ?_⟩
    intro slice inside
    rcases List.mem_append.mp inside with now | afterwards
    · exact terms slice now
    · exact (same slice afterwards).trans counted.terms

end Runs

/-- Take a scheduler that has just been made, with or without a detector, and let anything be asked
of it, by anybody, with any executors. As long as no call panics, it counts the slices that
complete, and for each processor the cycles that the context shows when its turn ends, of which a
negative count adds nothing. A turn that was passed over adds the whole budget. What fails adds
nothing: a slice that fails leaves the machine as it was, and so does a number of slices that fails,
unless it completed slices before in which an executor exchanged a context.

Proof: by induction over the calls, the counts have grown by what the completed slices add. A
scheduler that has just been made has counted nothing, so they are equal to it. That the settings
stay the same gives the whole budget to the turns that were passed over. The last two parts are the
cases of a slice that fails and of the chain that some slices complete. -/
theorem counts_completed (setting : Setting H) (depth : Nat) {config : SliceConfig}
    {registry : Nat} {built : World H} {scheduler : Scheduler}
    (made : Scheduler.plain config registry = .ok scheduler ∨
      ∃ before, Scheduler.watching config registry before = (.ok scheduler, built))
    (contexts : Pair Context) (rig : ε) (calls : List (Call H ε))
    (returns : Returns setting depth calls ⟨scheduler, contexts, rig, built⟩) :
    let start : Machine H ε := ⟨scheduler, contexts, rig, built⟩
    let finish := start.serve setting depth calls
    let done := start.runCompleted setting depth calls
    finish.scheduler.slices = done.length ∧
      (∀ cpu, (finish.scheduler.totals.get cpu : Int) =
        (done.map fun slice => max 0 (slice.report.get cpu).ran.toInt).sum) ∧
      (∀ slice ∈ done, ∀ cpu, slice.Reports cpu ∧
        ((slice.report.get cpu).skipped = true →
          max 0 (slice.report.get cpu).ran.toInt = config.cycles.toInt)) ∧
      (∀ (machine : Machine H ε) executor misplaced after,
        machine.slice setting depth executor = (.done (.error misplaced), after) →
          after = machine) ∧
      ∀ (machine : Machine H ε) executor count result after,
        machine.slices setting depth executor count = (.done result, after) →
          Serves machine executor count result after
            (machine.completed setting depth executor count) := by
  intro start finish done
  obtain ⟨accepted, poller, rfl⟩ := Scheduler.fresh_of_made made
  obtain ⟨counted, terms⟩ := counted_of_run calls returns
  refine ⟨?_, ?_, ?_, ?_, ?_⟩
  · exact counted.slices.trans (Nat.zero_add _)
  · intro cpu
    have total := counted.totals cpu
    simp only [Scheduler.fresh, Pair.get_both] at total
    exact total.trans (Int.zero_add _)
  · intro slice inside cpu
    refine ⟨slice.reports cpu, ?_⟩
    intro skipped
    have settings : slice.start.scheduler.config = start.scheduler.config :=
      Scheduler.config_eq_of_terms (terms slice inside)
    rw [(slice.reports cpu).whole skipped, settings]
    exact Int.max_eq_right (Int.le_of_lt (SliceConfig.pos_of_check accepted))
  · intro machine executor misplaced after failed
    exact (slice_error_iff.mp failed).2
  · intro machine executor count result after served
    exact serves_of_slices served

/-- A scheduler whose detector has just been attached to the first registry. -/
def watched : Machine ⟨Unit, Unit⟩ Unit where
  scheduler := .fresh .standard 0 (some 0)
  contexts := SliceConfig.standard.contexts
  rig := ()
  world := (Scheduler.watching .standard 0 (.initial ())).2

/-- An executor that leaves a negative count of cycles. -/
def rewinding : Executor ⟨Unit, Unit⟩ Unit :=
  .change (fun (context, rig) => ({ context with ran := -5 }, rig)) (.ret ())

/-- A slice, then two slices in which the slave polls, and then two calls that find the contexts
exchanged. -/
def mixedCalls : List (Call ⟨Unit, Unit⟩ Unit) := [
  .move (.slice rewinding),
  .move (.act (.request (.fire 0 .slave .startPolling) fun _ => .ret ())),
  .slices rewinding 2,
  .move (.place SliceConfig.standard.contexts.swap ()),
  .move (.slice rewinding),
  .slices rewinding 2]

/-- Three slices are counted, and the two turns that were passed over. -/
theorem counts_completed_of_mixed_calls :
    Scheduler.watching .standard 0 (World.initial (H := ⟨Unit, Unit⟩) ()) =
        (.ok watched.scheduler, watched.world) ∧
      watched.Returns .still 1 mixedCalls ∧
      let finish := watched.serve .still 1 mixedCalls
      finish.scheduler.slices = 3 ∧ finish.scheduler.totals.get .master = 0 ∧
        finish.scheduler.totals.get .slave = 2048 := by
  have made : Scheduler.watching .standard 0 (World.initial (H := ⟨Unit, Unit⟩) ()) =
      (.ok watched.scheduler, watched.world) := rfl
  have returns : watched.Returns .still 1 mixedCalls :=
    ⟨⟨_, rfl⟩, ⟨_, rfl⟩, ⟨_, rfl⟩, ⟨_, rfl⟩, ⟨_, rfl⟩, ⟨_, rfl⟩, trivial⟩
  obtain ⟨slices, totals, _⟩ := counts_completed .still 1 (.inr ⟨_, made⟩) watched.contexts ()
    mixedCalls returns
  refine ⟨made, returns, slices.trans (by decide +kernel), ?_, ?_⟩
  · exact Int.ofNat_inj.mp ((totals .master).trans (by decide +kernel))
  · exact Int.ofNat_inj.mp ((totals .slave).trans (by decide +kernel))

end Machine

end Sh2Pair
