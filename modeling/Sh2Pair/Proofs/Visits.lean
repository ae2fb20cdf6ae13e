import Sh2Pair.Proofs.Accounting

/-!
# What an executor is called with

An executor sees the context that it is given, and nothing of the scheduler. Here it is made to keep
a log besides: of each call, the context that it was given and the one that it left. The log is part
of its rig, so it shows what did arrive at the executor. To keep it changes nothing else.

What arrives is decided by the slices that complete. In each of them, the processors whose turns are
not passed over come in the order of the settings. Each of them gets its own context back, as it
left it last, with a whole budget that has not been touched. To pass over a turn shows in the cycle
counts only, and these are granted anew before anybody looks at them.
-/

namespace Sh2Pair

variable {H : Host} {ε : Type}

/-- A call of an executor: the context that it was given, and the one that it left. -/
structure Visit where
  given : Context
  left : Context
  deriving DecidableEq

section Logs

/-- A program beside a log that it knows nothing of. -/
def Program.beside {α : Type} :
    Program H (Context × ε) α → Program H (Context × ε × List Visit) α
  | .ret value => .ret value
  | .panic cause => .panic cause
  | .look next => .look fun (context, rig, _) => (next (context, rig)).beside
  | .change f next =>
    .change (fun (context, rig, log) => ((f (context, rig)).1, (f (context, rig)).2, log))
      next.beside
  | .ask next => .ask fun state => (next state).beside
  | .alter f next => .alter f next.beside
  | .remark content next => .remark content next.beside
  | .request wanted next => .request wanted fun reply => (next reply).beside

/-- An executor that enters each of its calls into a log once it comes back. -/
def Executor.recording (executor : Executor H ε) : Executor H (ε × List Visit) :=
  .look fun (given, _) => executor.beside.bind fun _ =>
    .change (fun (left, rig, log) => (left, rig, log ++ [⟨given, left⟩])) (.ret ())

variable {deliver : Delivery H} {arrange : Nat → List Listener → List Listener}
  {context left : Context} {rig reached : ε} {world after : World H}

/-- A program beside a log runs as it does without one, and leaves the log alone.

Proof: by induction on the program. The log is carried along and never looked at. -/
theorem Program.beside_run {α : Type} (program : Program H (Context × ε) α) (log : List Visit) :
    program.beside.run deliver arrange (context, rig, log) world =
      Prod.map id (Prod.map (fun desk => (desk.1, desk.2, log)) id)
        (program.run deliver arrange (context, rig) world) := by
  induction program generalizing context rig world with
  | ret value => rfl
  | panic cause => rfl
  | look next inductionHypothesis => exact inductionHypothesis _
  | change f next inductionHypothesis => exact inductionHypothesis
  | ask next inductionHypothesis => exact inductionHypothesis _
  | alter f next inductionHypothesis => exact inductionHypothesis
  | remark content next inductionHypothesis => exact inductionHypothesis
  | request wanted next inductionHypothesis =>
    simp only [beside, run]
    cases world.answer deliver arrange wanted with
    | mk outcome world =>
    cases outcome with
    | done reply => exact inductionHypothesis reply
    | panicked cause => rfl
    | exhausted => rfl

/-- An executor that keeps a log does what it does without one, and enters the context that it was
given and the one that it left. -/
theorem Executor.recording_run {executor : Executor H ε} (log : List Visit)
    (ran : executor.run deliver arrange (context, rig) world = (.done (), (left, reached), after)) :
    executor.recording.run deliver arrange (context, rig, log) world =
      (.done (), (left, reached, log ++ [⟨context, left⟩]), after) := by
  refine (Program.run_bind ..).trans ?_
  rw [Program.beside_run, ran]
  rfl

end Logs

namespace Completed

variable {setting : Setting H} {depth : Nat}

/-- The call of the executor in the turn of a processor, if the turn is not passed over. -/
def visit (slice : Completed setting depth ε) (cpu : Cpu) : List Visit :=
  if (slice.report.get cpu).skipped then []
  else [⟨(slice.start.contexts.get cpu).grant slice.start.scheduler.config.cycles,
    slice.finish.contexts.get cpu⟩]

/-- The calls of the executor in a completed slice. -/
def visits (slice : Completed setting depth ε) : List Visit :=
  slice.start.scheduler.config.order.flatMap slice.visit

/-- The processors whose turns were not passed over in a completed slice, in the order of turns. -/
def visited (slice : Completed setting depth ε) : List Cpu :=
  slice.start.scheduler.config.order.filter fun cpu => !(slice.report.get cpu).skipped

end Completed

namespace Machine

variable {setting : Setting H} {depth : Nat}

/-- The same machine with a log in its rig. -/
def recorded (log : List Visit) (machine : Machine H ε) : Machine H (ε × List Visit) :=
  { machine with rig := (machine.rig, log) }

section Turns

variable {executor : Executor H ε} {machine after : Machine H ε} {cpu : Cpu}

/-- The execution of a turn enters one visit. -/
theorem execute_recorded (log : List Visit)
    (ran : machine.execute setting depth executor cpu = (.done (), after)) :
    (machine.recorded log).execute setting depth executor.recording cpu =
      (.done (), after.recorded
        (log ++ [⟨machine.contexts.get cpu, after.contexts.get cpu⟩])) := by
  simp only [execute] at ran
  cases executed : setting.run depth executor (machine.contexts.get cpu, machine.rig)
    (machine.world.record (.turnBegan cpu)) with
  | mk outcome reached =>
  rw [executed] at ran
  cases ran
  have recording : setting.run depth executor.recording (machine.contexts.get cpu, machine.rig, log)
      (machine.world.record (.turnBegan cpu)) = _ := Executor.recording_run log executed
  simp only [execute, recorded, recording, Pair.get_set_self]

/-- A turn that comes back is the same turn with a log, which grows by the call of the executor, if
there is one. -/
theorem turn_recorded {turn : Turn} (log : List Visit)
    (ended : machine.turn setting depth executor cpu = (.done turn, after)) :
    (machine.recorded log).turn setting depth executor.recording cpu =
      (.done turn, after.recorded (log ++
        if turn.skipped then []
        else [⟨(machine.contexts.get cpu).grant machine.scheduler.config.cycles,
          after.contexts.get cpu⟩])) := by
  cases skips : machine.skips cpu with
  | true =>
    have same : (machine.recorded log).skips cpu = true := skips
    rw [turn_of_skips skips] at ended
    cases ended
    rw [turn_of_skips same, if_pos rfl, List.append_nil]
    rfl
  | false =>
    have runs : (machine.grant cpu).skips cpu = false := skips
    have same : ((machine.recorded log).grant cpu).skips cpu = false := skips
    simp only [Machine.turn, runs, Bool.false_eq_true, if_false] at ended
    obtain ⟨_, middle, executed, closed⟩ := Outcome.andThen_eq_done_iff.mp ended
    have recording : ((machine.recorded log).grant cpu).execute setting depth executor.recording
        cpu = _ := execute_recorded log executed
    cases closed
    simp only [Machine.turn, same, Bool.false_eq_true, if_false, recording]
    simp only [grant, Pair.get_modify_self]
    rfl

end Turns

end Machine

namespace Completed

variable {setting : Setting H} {depth : Nat} (slice : Completed setting depth ε)

/-- What a completed slice does to the contexts. The turn of a processor finds the context of this
processor as the slice did, and leaves it as the slice does. It does not touch the other context. If
it is passed over, nothing shows but the cycle counts, which both become the budget. -/
structure Frames (cpu : Cpu) : Prop where
  found : (slice.start.atTurn setting depth slice.executor cpu).contexts.get cpu =
    slice.start.contexts.get cpu
  turn : ∃ ended,
    (slice.start.atTurn setting depth slice.executor cpu).turn setting depth slice.executor cpu =
      (.done (slice.report.get cpu), ended) ∧
    ended.contexts.get cpu = slice.finish.contexts.get cpu ∧
    ended.contexts.get cpu.other =
      (slice.start.atTurn setting depth slice.executor cpu).contexts.get cpu.other
  passed : (slice.report.get cpu).skipped = true →
    slice.finish.contexts.get cpu = { slice.start.contexts.get cpu with
      cycles := slice.start.scheduler.config.cycles
      ran := slice.start.scheduler.config.cycles }

/-- A completed slice frames the turns of both processors.

Proof: the turn finds its context as the slice does, whether it is the first or the second one,
since no turn touches the other context. -/
theorem frames (cpu : Cpu) : slice.Frames cpu := by
  obtain ⟨ended, turned, left, settings⟩ := Machine.turn_of_slice slice.completed cpu
  have credited : (slice.start.atTurn setting depth slice.executor cpu).Credited cpu
      (slice.report.get cpu) ended := Machine.credited_of_turn turned
  have found : (slice.start.atTurn setting depth slice.executor cpu).contexts.get cpu =
      slice.start.contexts.get cpu := by
    obtain ⟨_, middle, last, firstRan, secondRan, _⟩ := Machine.slice_ok_iff.mp slice.completed
    rcases Cpu.eq_or_eq_other cpu slice.start.scheduler.config.firstCpu with rfl | rfl
    · rw [Machine.atTurn_first]
    · rw [Machine.atTurn_second firstRan, (Machine.credited_of_turn firstRan).waits]
  constructor
  case found => exact found
  case turn => exact ⟨ended, turned, left, credited.waits⟩
  case passed =>
    intro skipped
    have skips : (slice.start.atTurn setting depth slice.executor cpu).skips cpu = true :=
      credited.skipped.symm.trans skipped
    rw [Machine.turn_of_skips skips] at turned
    obtain rfl := (Prod.mk.inj turned).2
    rw [← left, Pair.get_set_self, found, settings]
    rfl

/-- A completed slice is the same slice with a log, which grows by the calls of the executor.

Proof: each turn is the same turn with a log, and the log grows by the call of the first turn and
then by that of the second one. -/
theorem recorded (log : List Visit) :
    (slice.start.recorded log).slice setting depth slice.executor.recording =
      (.done (.ok slice.report), slice.finish.recorded (log ++ slice.visits)) := by
  obtain ⟨placed, middle, last, firstRan, secondRan, finish⟩ :=
    Machine.slice_ok_iff.mp slice.completed
  have first : slice.start.Credited slice.start.scheduler.config.firstCpu
      (slice.report.get slice.start.scheduler.config.firstCpu) middle :=
    Machine.credited_of_turn firstRan
  have second : middle.Credited slice.start.scheduler.config.firstCpu.other
      (slice.report.get slice.start.scheduler.config.firstCpu.other) last :=
    Machine.credited_of_turn secondRan
  have firstLogged := Machine.turn_recorded log firstRan
  have secondLogged :=
    Machine.turn_recorded (log ++ slice.visit slice.start.scheduler.config.firstCpu) secondRan
  -- Each turn leaves its context as the slice does, and the second one finds its own as the slice
  -- did.
  have left : middle.contexts.get slice.start.scheduler.config.firstCpu =
      slice.finish.contexts.get slice.start.scheduler.config.firstCpu := by
    have waits : last.contexts.get slice.start.scheduler.config.firstCpu.other.other =
        middle.contexts.get slice.start.scheduler.config.firstCpu.other.other := second.waits
    rw [Cpu.other_other] at waits
    rw [finish, waits]
  have leftToo : last.contexts.get slice.start.scheduler.config.firstCpu.other =
      slice.finish.contexts.get slice.start.scheduler.config.firstCpu.other := by
    rw [finish]
  have settings : middle.scheduler.config = slice.start.scheduler.config := by
    rw [first.scheduler]
    rfl
  rw [left] at firstLogged
  rw [leftToo, first.waits, settings] at secondLogged
  refine Machine.slice_ok_iff.mpr ⟨placed, _, _, firstLogged, secondLogged, ?_⟩
  rw [visits, SliceConfig.order, List.flatMap_cons, List.flatMap_singleton, ← List.append_assoc]
  exact congrArg (Machine.recorded _) finish

/-- Completed slices each of which finds the contexts as the one before left them. -/
def HandOn (start : Pair Context) : List (Completed setting depth ε) → Pair Context → Prop
  | [], finish => finish = start
  | slice :: later, finish =>
    slice.start.contexts = start ∧ HandOn slice.finish.contexts later finish

/-- Slices in a chain hand on the contexts. -/
theorem Chain.handOn {start finish : Machine H ε} {done : List (Completed setting depth ε)}
    (chain : Chain start done finish) : HandOn start.contexts done finish.contexts := by
  induction done generalizing start with
  | nil => exact congrArg Machine.contexts chain
  | cons slice later inductionHypothesis =>
    obtain ⟨rfl, rest⟩ := chain
    exact ⟨rfl, inductionHypothesis rest⟩

/-- Contexts that are handed on over two stretches are handed on over both together. -/
theorem HandOn.trans {start middle finish : Pair Context}
    {early late : List (Completed setting depth ε)} (first : HandOn start early middle)
    (second : HandOn middle late finish) : HandOn start (early ++ late) finish := by
  induction early generalizing start with
  | nil =>
    cases first
    exact second
  | cons slice later inductionHypothesis => exact ⟨first.1, inductionHypothesis first.2⟩

end Completed

namespace Visit

/-- What is held of the contexts after some calls: of each one what its last call left. -/
def keep (held : Pair Context) (visits : List Visit) : Pair Context :=
  visits.foldl (fun held visit => held.set visit.given.cpu visit.left) held

/-- Each call is given the context of its own processor with a whole budget of which nothing is
consumed, and otherwise as the last call for this processor left it, or as it was held at first. -/
def Continue (budget : Int32) : Pair Context → List Visit → Prop
  | _, [] => True
  | held, visit :: later =>
    visit.given = (held.get visit.given.cpu).grant budget ∧
      Continue budget (held.set visit.given.cpu visit.left) later

/-- Visits continue one another over two stretches, if the later ones go on from what the earlier
ones left. -/
theorem Continue.append {budget : Int32} {held : Pair Context} {early late : List Visit}
    (first : Continue budget held early) (second : Continue budget (keep held early) late) :
    Continue budget held (early ++ late) := by
  induction early generalizing held with
  | nil => exact second
  | cons visit later inductionHypothesis => exact ⟨first.1, inductionHypothesis first.2 second⟩

/-- Contexts are as held, but for the cycle counts. -/
def Agree (contexts held : Pair Context) : Prop :=
  ∀ cpu budget, (contexts.get cpu).grant budget = (held.get cpu).grant budget

end Visit

namespace Completed

variable {setting : Setting H} {depth : Nat} (slice : Completed setting depth ε)

/-- A turn calls for a context as it is held, or leaves everything as it is held.

Proof: a turn that is passed over changes cycle counts only, which agreement does not see. Any other
one is called for its context as it is held, and what it leaves is held from then on. -/
theorem continue_visit {held contexts : Pair Context} (cpu : Cpu)
    (agree : Visit.Agree contexts held)
    (found : contexts.get cpu = slice.start.contexts.get cpu) :
    Visit.Continue slice.start.scheduler.config.cycles held (slice.visit cpu) ∧
      Visit.Agree (contexts.set cpu (slice.finish.contexts.get cpu))
        (Visit.keep held (slice.visit cpu)) := by
  rw [visit]
  cases skipped : (slice.report.get cpu).skipped with
  | true =>
    rw [if_pos rfl]
    refine ⟨trivial, ?_⟩
    intro seen budget
    rw [Pair.get_set]
    split
    · rename_i here
      rw [(slice.frames cpu).passed skipped, ← found, here]
      exact agree cpu budget
    · exact agree seen budget
  | false =>
    rw [if_neg Bool.false_ne_true]
    have own : ((slice.start.contexts.get cpu).grant slice.start.scheduler.config.cycles).cpu =
        cpu := slice.placed cpu
    refine ⟨⟨?_, trivial⟩, ?_⟩
    · rw [own, ← found]
      exact agree cpu _
    · intro seen budget
      simp only [Visit.keep, List.foldl_cons, List.foldl_nil, own, Pair.get_set]
      split
      · rfl
      · exact agree seen budget

/-- So does a slice that completes. -/
theorem continue_visits {held : Pair Context} (agree : Visit.Agree slice.start.contexts held) :
    Visit.Continue slice.start.scheduler.config.cycles held slice.visits ∧
      Visit.Agree slice.finish.contexts (Visit.keep held slice.visits) := by
  rw [visits, SliceConfig.order, List.flatMap_cons, List.flatMap_singleton]
  generalize slice.start.scheduler.config.firstCpu = first
  obtain ⟨continues, agrees⟩ := slice.continue_visit first agree rfl
  obtain ⟨goesOn, agreed⟩ := slice.continue_visit first.other agrees (Pair.get_set_other ..)
  have both : ((slice.start.contexts.set first (slice.finish.contexts.get first)).set first.other
      (slice.finish.contexts.get first.other)) = slice.finish.contexts := by
    refine Pair.ext_get fun cpu => ?_
    rcases Cpu.eq_or_eq_other cpu first with rfl | rfl
    · rw [Pair.get_other_set, Pair.get_set_self]
    · rw [Pair.get_set_self]
  rw [both] at agreed
  refine ⟨continues.append goesOn, ?_⟩
  rw [Visit.keep, List.foldl_append]
  exact agreed

/-- The processors that are called for in a completed slice. -/
theorem map_visits : slice.visits.map (·.given.cpu) = slice.visited := by
  have each : ∀ cpu, (slice.visit cpu).map (·.given.cpu) =
      [cpu].filter fun cpu => !(slice.report.get cpu).skipped := by
    intro cpu
    rw [visit]
    cases skipped : (slice.report.get cpu).skipped with
    | true => simp [skipped]
    | false =>
      have own : ((slice.start.contexts.get cpu).grant slice.start.scheduler.config.cycles).cpu =
          cpu := slice.placed cpu
      simp [skipped, own]
  rw [visits, visited, SliceConfig.order, List.flatMap_cons, List.flatMap_singleton,
    List.map_append, each, each, ← List.filter_append]
  rfl

variable {slice}

/-- Slices that hand the contexts on call for each of them as it was left. -/
theorem HandOn.continue {start finish held : Pair Context} {budget : Int32}
    {done : List (Completed setting depth ε)} (handOn : HandOn start done finish)
    (budgets : ∀ slice ∈ done, slice.start.scheduler.config.cycles = budget)
    (agree : Visit.Agree start held) : Visit.Continue budget held (done.flatMap visits) := by
  induction done generalizing start held with
  | nil => trivial
  | cons slice later inductionHypothesis =>
    obtain ⟨rfl, rest⟩ := handOn
    obtain ⟨continues, agrees⟩ := slice.continue_visits agree
    rw [budgets slice List.mem_cons_self] at continues
    rw [List.flatMap_cons]
    exact continues.append (inductionHypothesis rest
      (fun slice inside => budgets slice (List.mem_cons_of_mem _ inside)) agrees)

end Completed

namespace Machine

variable {setting : Setting H} {depth : Nat}

section Calls

variable {executor : Executor H ε} {machine after : Machine H ε}

/-- Slices that complete are the same with a log, in which each of them enters its visits. -/
theorem slices_recorded (count : Nat) (log : List Visit)
    (served : machine.slices setting depth executor count = (.done (.ok ()), after)) :
    (machine.recorded log).slices setting depth executor.recording count =
      (.done (.ok ()), after.recorded
        (log ++ (machine.completed setting depth executor count).flatMap Completed.visits)) := by
  induction count generalizing machine log with
  | zero =>
    cases served
    rw [completed, List.flatMap_nil, List.append_nil]
    rfl
  | succ count inductionHypothesis =>
    rw [slices] at served
    obtain ⟨result, middle, sliced, rest⟩ := Outcome.andThen_eq_done_iff.mp served
    cases result with
    | error misplaced => cases rest
    | ok report =>
      have recorded : (machine.recorded log).slice setting depth executor.recording =
          (.done (.ok report), middle.recorded (log ++
            (⟨executor, machine, report, middle, sliced⟩ :
              Completed setting depth ε).visits)) :=
        Completed.recorded ⟨executor, machine, report, middle, sliced⟩ log
      rw [completed_succ sliced, List.flatMap_cons, ← List.append_assoc, slices, recorded]
      exact inductionHypothesis _ rest

/-- A call that does not put other contexts in place. -/
def Call.LeavesContexts : Call H ε → Prop
  | .move (.place ..) => False
  | _ => True

/-- The same call with executors that keep a log. Where a rig is put in place, the log starts
anew. -/
def Call.recording : Call H ε → Call H (ε × List Visit)
  | .move (.act program) => .move (.act program)
  | .move (.place contexts rig) => .move (.place contexts (rig, []))
  | .move (.slice executor) => .move (.slice executor.recording)
  | .slices executor count => .slices executor.recording count

/-- All calls of a run come back, and no slice of it fails. -/
def Completes (setting : Setting H) (depth : Nat) : List (Call H ε) → Machine H ε → Prop
  | [], _ => True
  | next :: later, machine =>
    (machine.call setting depth next).1 = .done (.ok ()) ∧
      Completes setting depth later (machine.call setting depth next).2

/-- A run in which no slice fails comes back. -/
theorem Completes.returns {calls : List (Call H ε)}
    (completes : machine.Completes setting depth calls) : machine.Returns setting depth calls := by
  induction calls generalizing machine with
  | nil => trivial
  | cons next later inductionHypothesis =>
    exact ⟨⟨.ok (), completes.1⟩, inductionHypothesis completes.2⟩

/-- A call that does not fail is the same with a log, in which its slices enter their visits. -/
theorem call_recorded {next : Call H ε} (leaves : next.LeavesContexts) (log : List Visit)
    (called : machine.call setting depth next = (.done (.ok ()), after)) :
    (machine.recorded log).call setting depth next.recording =
      (.done (.ok ()), after.recorded
        (log ++ (machine.callCompleted setting depth next).flatMap Completed.visits)) := by
  cases next with
  | slices executor count => exact slices_recorded count log called
  | move next =>
    cases next with
    | slice executor =>
      rw [call, ← slices_one] at called
      rw [Call.recording, call, ← slices_one]
      exact slices_recorded 1 log called
    | act program =>
      cases called
      simp only [callCompleted, List.flatMap_nil, List.append_nil]
      rfl
    | place contexts rig => exact leaves.elim

/-- A run of calls in which no slice fails is the same run with a log. What has been entered then is
what the executors of the completed slices were called with. -/
theorem serve_recorded {calls : List (Call H ε)} (leaves : ∀ next ∈ calls, next.LeavesContexts)
    (completes : machine.Completes setting depth calls) (log : List Visit) :
    (machine.recorded log).serve setting depth (calls.map Call.recording) =
      (machine.serve setting depth calls).recorded
        (log ++ (machine.runCompleted setting depth calls).flatMap Completed.visits) := by
  induction calls generalizing machine log with
  | nil => exact congrArg (recorded · machine) (List.append_nil log).symm
  | cons next later inductionHypothesis =>
    obtain ⟨came, rest⟩ := completes
    have came' : machine.call setting depth next = (_, (machine.call setting depth next).2) :=
      Prod.ext came rfl
    have called : (machine.recorded log).call setting depth next.recording =
        (.done (.ok ()), (machine.call setting depth next).2.recorded
          (log ++ (machine.callCompleted setting depth next).flatMap Completed.visits)) :=
      call_recorded (leaves next List.mem_cons_self) log came'
    rw [List.map_cons, serve, called, serve, runCompleted, List.flatMap_append, ← List.append_assoc]
    exact inductionHypothesis (fun next inside => leaves next (List.mem_cons_of_mem _ inside)) rest
      _

/-- Between the slices of such a run, the contexts stay as they are.

Proof: by induction on the calls. What one call leaves is where the next one starts. -/
theorem handOn_of_serve {calls : List (Call H ε)} (leaves : ∀ next ∈ calls, next.LeavesContexts)
    (completes : machine.Completes setting depth calls) :
    Completed.HandOn machine.contexts (machine.runCompleted setting depth calls)
      (machine.serve setting depth calls).contexts := by
  induction calls generalizing machine with
  | nil => rfl
  | cons next later inductionHypothesis =>
    obtain ⟨came, rest⟩ := completes
    refine .trans ?_ (inductionHypothesis
      (fun next inside => leaves next (List.mem_cons_of_mem _ inside)) rest)
    have called : machine.call setting depth next =
        (.done (.ok ()), (machine.call setting depth next).2) := Prod.ext came rfl
    cases next with
    | slices executor count => exact (serves_of_slices called).chain.handOn
    | move next =>
      cases next with
      | slice executor =>
        have one : machine.call setting depth (.move (.slice executor)) = _ := slices_one.symm
        rw [one] at called ⊢
        exact (serves_of_slices called).chain.handOn
      | act program => rfl
      | place contexts rig => exact (leaves _ List.mem_cons_self).elim

end Calls

/-- Take any scheduler, any contexts and any run of calls, with any executors, in which no slice
panics or fails and nobody else puts other contexts in place. Let the executors keep a log of their
calls, which changes nothing else. Then slice by slice they are called for the processors whose
turns are not passed over, in the order of the settings, in which no processor comes twice. Each
call gets the context of its own processor with a whole budget of which nothing is consumed, and
otherwise exactly as the last call for this processor left it, or as it was at first. No turn
touches the other context, and a turn that is passed over shows in the cycle counts only.

Proof: an executor that keeps a log does what it does without one, so the log can be put together
from the slices that completed. Each of them adds a call for each of its turns that was not passed
over. -/
theorem visits_follow_turns (setting : Setting H) (depth : Nat) (machine : Machine H ε)
    (calls : List (Call H ε)) (leaves : ∀ next ∈ calls, next.LeavesContexts)
    (completes : machine.Completes setting depth calls) :
    let config := machine.scheduler.config
    let done := machine.runCompleted setting depth calls
    let recorded := (machine.recorded []).serve setting depth (calls.map Call.recording)
    let visits := recorded.rig.2
    recorded = (machine.serve setting depth calls).recorded visits ∧
      config.order.Nodup ∧
      visits.map (·.given.cpu) = done.flatMap (fun slice =>
        config.order.filter fun cpu => !(slice.report.get cpu).skipped) ∧
      Visit.Continue config.cycles machine.contexts visits ∧
      ∀ slice ∈ done, slice.start.scheduler.config = config ∧ ∀ cpu, slice.Frames cpu := by
  intro config done recorded visits
  have logged : recorded = _ := serve_recorded leaves completes []
  have entered : visits = done.flatMap Completed.visits :=
    congrArg (fun machine => machine.rig.2) logged
  have settings : ∀ slice ∈ done, slice.start.scheduler.config = config :=
    fun slice inside => Scheduler.config_eq_of_terms
      ((counted_of_run calls completes.returns).2 slice inside)
  refine ⟨?_, ?_, ?_, ?_, ?_⟩
  · rw [entered]
    exact logged
  · simp [SliceConfig.order, (Cpu.other_ne _).symm]
  · rw [entered, List.map_flatMap]
    refine List.flatMap_congr fun slice inside => ?_
    rw [slice.map_visits, Completed.visited, settings slice inside]
  · rw [entered]
    exact (handOn_of_serve leaves completes).continue
      (fun slice inside => congrArg SliceConfig.cycles (settings slice inside)) fun _ _ => rfl
  · exact fun slice inside => ⟨settings slice inside, slice.frames⟩

/-- An executor that goes on by one instruction word. -/
def striding : Executor ⟨Unit, Unit⟩ Unit :=
  .change (fun (context, rig) => ({ context with pc := context.pc + 2, ran := 1 }, rig)) (.ret ())

/-- A slice, then two slices in which the slave polls, and then one after it has woken. -/
def wakingCalls : List (Call ⟨Unit, Unit⟩ Unit) := [
  .slices striding 1,
  .move (.act (.request (.fire 0 .slave .startPolling) fun _ => .ret ())),
  .slices striding 2,
  .move (.act (.request (.fire 0 .slave .comm) fun _ => .ret ())),
  .move (.slice striding)]

/-- The slave goes on where it was before its turns were passed over. -/
theorem visits_follow_turns_of_waking :
    (∀ next ∈ wakingCalls, next.LeavesContexts) ∧ watched.Completes .still 1 wakingCalls ∧
      let visits := ((watched.recorded []).serve .still 1 (wakingCalls.map Call.recording)).rig.2
      Visit.Continue 1024 SliceConfig.standard.contexts visits ∧
      visits.map (·.given.cpu) = [.master, .slave, .master, .master, .master, .slave] ∧
      visits.map (·.given.pc) = [0, 0, 2, 4, 6, 2] := by
  have leaves : ∀ next ∈ wakingCalls, next.LeavesContexts := by
    simp [wakingCalls, Call.LeavesContexts]
  have completes : watched.Completes .still 1 wakingCalls := ⟨rfl, rfl, rfl, rfl, rfl, trivial⟩
  obtain ⟨_, _, called, continues, _⟩ :=
    visits_follow_turns .still 1 watched wakingCalls leaves completes
  exact ⟨leaves, completes, continues, called.trans (by decide +kernel), by decide +kernel⟩

end Machine

end Sh2Pair
