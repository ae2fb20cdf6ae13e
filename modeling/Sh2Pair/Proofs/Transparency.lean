import Sh2Pair.Proofs.Core
import Sh2Pair.Proofs.Skipping

/-!
# Passing over turns changes nothing

A processor of the small core that polls stands on a branch to itself. Its next turn would fetch
the same two words, report what is known already and use up the budget. A scheduler that passes
over that turn sets the same count of cycles and does nothing else.

So two machines that differ in nothing but whether turns are passed over go on differing in
nothing else, as long as nobody changes the two words under a processor that polls. What carries
the proof is that whoever polls is at rest: the waiting processor through every instruction of
the running one, and the running one from the moment at which its budget is used up.
-/

namespace Sh2Pair

variable {H : Host}

namespace Micro

/-- Every instruction of a run, up to a number of them, leaves the words of a waiting context
alone, the one that it stands on and the one behind, if the processor of that context polls once
the instruction is executed. -/
def Spares (setting : Setting H) (depth registry number : Nat) (waiting : Context) :
    Nat → Desk → World H → Prop
  | 0, _, _ => True
  | bound + 1, desk, world =>
    0 < desk.1.left.toInt → ∀ after reached,
      setting.run depth (step registry) desk world = (.done (), after, reached) →
        ((reached.hub.detector number).polling waiting.cpu = true →
          word after.2 waiting.pc = word desk.2 waiting.pc ∧
            word after.2 (waiting.pc + 2) = word desk.2 (waiting.pc + 2)) ∧
        Spares setting depth registry number waiting bound after reached

/-- Whoever polls is at rest, a waiting processor as it stands and the running one with its
budget used up. -/
structure AtRest (registry number : Nat) (waiting : Context) (desk : Desk) (world : World H) :
    Prop where
  lone : world.hub.Lone registry number
  partner : waiting.cpu = desk.1.cpu.other
  waiting : (world.hub.detector number).polling waiting.cpu = true → Resting desk.2 waiting
  running : (world.hub.detector number).polling desk.1.cpu = true →
    Resting desk.2 desk.1 ∧ desk.1.ran = desk.1.cycles

variable {setting : Setting H} {depth registry number : Nat} {waiting : Context}
  {desk after : Desk} {world reached : World H}

/-- A run that may not begin spares everything. -/
theorem Spares.of_spent {bound : Nat} (spent : desk.1.left.toInt ≤ 0) :
    Spares setting depth registry number waiting bound desk world := by
  cases bound with
  | zero => trivial
  | succ bound => exact fun more => absurd more (Int.not_lt.mpr spent)

/-- To look at what one instruction does, and then at the rest of the run. -/
theorem Spares.of_step {bound : Nat}
    (ran : setting.run depth (step registry) desk world = (.done (), after, reached))
    (spared : (reached.hub.detector number).polling waiting.cpu = true →
      word after.2 waiting.pc = word desk.2 waiting.pc ∧
        word after.2 (waiting.pc + 2) = word desk.2 (waiting.pc + 2))
    (later : Spares setting depth registry number waiting bound after reached) :
    Spares setting depth registry number waiting (bound + 1) desk world := by
  intro _ last finish same
  rw [ran] at same
  cases same
  exact ⟨spared, later⟩

/-- A processor with cycles left does not poll. -/
theorem AtRest.not_polling (rest : AtRest registry number waiting desk world)
    (more : 0 < desk.1.left.toInt) :
    (world.hub.detector number).polling desk.1.cpu = false := by
  refine Bool.eq_false_iff.mpr fun polls => ?_
  have used : desk.1.ran = desk.1.cycles := (rest.running polls).2
  have some : desk.1.ran.toInt < desk.1.cycles.toInt := (Cycles.satSub_pos_iff _ _).mp more
  rw [used] at some
  exact Int.lt_irrefl _ some

/-- An instruction that spares the words of the waiting context keeps whoever polls at rest.

Proof: by what the instruction can do to the hub. If it says nothing or announces `comm`, nobody
begins to poll. If it reports, its own processor polls and stands on a branch to itself, with its
budget used up. The waiting processor rests on as long as its words are spared. -/
theorem AtRest.step (rest : AtRest registry number waiting desk world)
    (more : 0 < desk.1.left.toInt)
    (ran : setting.run depth (Micro.step registry) desk world = (.done (), after, reached))
    (spared : (reached.hub.detector number).polling waiting.cpu = true →
      word after.2 waiting.pc = word desk.2 waiting.pc ∧
        word after.2 (waiting.pc + 2) = word desk.2 (waiting.pc + 2)) :
    AtRest registry number waiting after reached ∧ after.1.cpu = desk.1.cpu := by
  have busy : (world.hub.detector number).polling desk.1.cpu = false := rest.not_polling more
  have keeps : (reached.hub.detector number).polling waiting.cpu = true →
      (world.hub.detector number).polling waiting.cpu = true → Resting after.2 waiting :=
    fun polls polled => (rest.waiting polled).of_words (spared polls).1 (spared polls).2
  obtain ⟨cpu, quiet | announced | ⟨reported, kept, resting, used⟩⟩ :=
    step_cases setting depth rest.lone ran
  · refine ⟨⟨quiet ▸ rest.lone, cpu ▸ rest.partner, ?_, ?_⟩, cpu⟩
    · intro polls
      exact keeps polls (quiet ▸ polls)
    · intro polls
      rw [quiet, cpu, busy] at polls
      cases polls
  · refine ⟨⟨announced ▸ rest.lone.heard _ _, cpu ▸ rest.partner, ?_, ?_⟩, cpu⟩
    · intro polls
      exact keeps polls (Hub.polling_of_heard (by decide) (announced ▸ polls))
    · intro polls
      rw [announced, cpu, Hub.polling_heard_other _ _ _ (Cpu.other_ne _).symm, busy] at polls
      cases polls
  · refine ⟨⟨reported ▸ rest.lone.heard _ _, cpu ▸ rest.partner, ?_, ?_⟩, cpu⟩
    · intro polls
      refine keeps polls ?_
      rwa [reported, rest.partner, Hub.polling_heard_other _ _ _ (Cpu.other_ne _),
        ← rest.partner] at polls
    · intro _
      exact ⟨kept ▸ resting, used⟩

/-- So does a run of instructions.

Proof: by induction on the bound. Each instruction keeps whoever polls at rest, since none of them
touches the words of the waiting context. -/
theorem AtRest.steps {bound : Nat} (rest : AtRest registry number waiting desk world)
    (spares : Spares setting depth registry number waiting bound desk world)
    (ran : setting.run depth (Micro.steps registry bound) desk world = (.done (), after, reached)) :
    AtRest registry number waiting after reached ∧ after.1.cpu = desk.1.cpu := by
  induction bound generalizing desk world with
  | zero =>
    cases ran
    exact ⟨rest, rfl⟩
  | succ bound inductionHypothesis =>
    change Program.run _ _ (ite (desk.1.left.toInt ≤ 0) _ _) _ _ = _ at ran
    by_cases more : 0 < desk.1.left.toInt
    · rw [if_neg (Int.not_le.mpr more)] at ran
      obtain ⟨_, ⟨middle, between⟩, stepped, ran⟩ := Program.run_bind_done ran
      obtain ⟨spared, later⟩ := spares more middle between stepped
      obtain ⟨resting, same⟩ := rest.step more stepped spared
      obtain ⟨last, cpu⟩ := inductionHypothesis resting later ran
      exact ⟨last, cpu.trans same⟩
    · rw [if_pos (Int.not_lt.mp more)] at ran
      cases ran
      exact ⟨rest, rfl⟩

end Micro

/-- A detector that is attached to an empty registry is the only listener there, and takes nobody
to be polling.

Proof: the roster was empty, so the name is free, and the detector is the one entry in it. A
detector that has just been made polls for nobody. -/
theorem World.attach_alone {world : World H} {registry : Nat}
    (alone : ∀ cpu, (world.hub.roster registry cpu).entries = []) (config : PollConfig) :
    ∃ number built, world.attach registry config = (.ok number, built) ∧
      built.hub.Lone registry number ∧
      ∀ cpu, (built.hub.detector number).polling cpu = false := by
  have free : ∀ cpu, (world.hub.roster registry cpu).has Detector.name = false := by
    intro cpu
    simp only [Roster.has, alone cpu, List.any_nil]
  have attached : world.attach registry config = (.ok world.hub.detectors.size, _) :=
    world.attach_free config free
  obtain ⟨_, present, fresh⟩ := World.detector_of_attach attached
  refine ⟨_, _, attached, ⟨present, ?_⟩, ?_⟩
  · intro cpu
    refine .inr ?_
    change ((world.enlistedBoth registry Detector.name (.detector world.hub.detectors.size)
      free).hub.roster registry cpu).listeners = _
    cases cpu with
    | master => simp [enlistedBoth, Hub.roster_setRoster, Roster.insert, Roster.listeners, alone]
    | slave => simp [enlistedBoth, Hub.roster_setRoster, Roster.insert, Roster.listeners, alone]
  · intro cpu
    rw [fresh, Detector.polling, Detector.fresh, Pair.get_both]
    rfl

namespace Machine

/-- The turn of a processor would spare the words that the other one waits on. -/
def TurnSpares (setting : Setting H) (depth registry number : Nat)
    (machine : Machine H (Bus Ram)) (cpu : Cpu) : Prop :=
  let granted := (machine.contexts.get cpu).grant machine.scheduler.config.cycles
  Micro.Spares setting depth registry number (machine.contexts.get cpu.other)
    granted.remaining (granted, machine.rig) (machine.world.record (.turnBegan cpu))

/-- Both turns of a slice spare the words that the other processor waits on. -/
def SliceSpares (setting : Setting H) (depth registry number : Nat)
    (machine : Machine H (Bus Ram)) : Prop :=
  let first := machine.scheduler.config.firstCpu
  machine.misplaced? = none →
    machine.TurnSpares setting depth registry number first ∧
    ∀ turn middle, machine.turn setting depth (Micro.run registry) first = (.done turn, middle) →
      middle.TurnSpares setting depth registry number first.other

/-- So does every slice of a number of slices, up to the first that fails. -/
def SlicesSpare (setting : Setting H) (depth registry number : Nat) :
    Nat → Machine H (Bus Ram) → Prop
  | 0, _ => True
  | count + 1, machine =>
    machine.SliceSpares setting depth registry number ∧
    ∀ report after, machine.slice setting depth (Micro.run registry) = (.done (.ok report), after) →
      after.SlicesSpare setting depth registry number count

/-- The reports of a number of slices, up to the first that fails. -/
def reports {ε : Type} (setting : Setting H) (depth : Nat) (executor : Executor H ε) :
    Nat → Machine H ε → List Report
  | 0, _ => []
  | count + 1, machine =>
    match machine.slice setting depth executor with
    | (.done (.ok report), after) => report :: after.reports setting depth executor count
    | _ => []

/-- Nothing runs where a context is misplaced. -/
theorem slices_of_misplaced {ε : Type} (setting : Setting H) (depth : Nat)
    (executor : Executor H ε) {machine : Machine H ε} {misplaced : Misplaced}
    (wrong : machine.misplaced? = some misplaced) (count : Nat) :
    machine.slices setting depth executor (count + 1) = (.done (.error misplaced), machine) ∧
      machine.reports setting depth executor (count + 1) = [] := by
  simp only [slices, reports, slice, wrong, Outcome.andThen, and_self]

/-- The same machine, but with a scheduler that passes over the turn of a processor that polls,
and in a world of its own. -/
def hasty {ε : Type} (machine : Machine H ε) (world : World H) : Machine H ε :=
  { machine with
    scheduler := { machine.scheduler with
      config := { machine.scheduler.config with skipPolling := true } }
    world }

/-- Two machines that differ in nothing but whether turns are passed over, and in what the worlds
say about the past. -/
structure Twin (plain skipping : Machine H (Bus Ram)) : Prop where
  never : plain.scheduler.config.skipPolling = false
  differs : ∃ world, world.hub = plain.world.hub ∧ skipping = plain.hasty world

/-- A machine of the small core, with a detector and no other listener, between two turns: each
context is in its place, and whoever polls is at rest. -/
structure Calm (registry number : Nat) (machine : Machine H (Bus Ram)) : Prop where
  lone : machine.world.hub.Lone registry number
  poller : machine.scheduler.poller = some number
  granted : 0 < machine.scheduler.config.cycles.toInt
  placed : ∀ cpu, (machine.contexts.get cpu).cpu = cpu
  resting : ∀ cpu, (machine.world.hub.detector number).polling cpu = true →
    Micro.Resting machine.rig (machine.contexts.get cpu)

/-- Two runs that ended alike, in twins. If they came back, the values are alike and the machine
is calm. -/
inductive Alongside (registry number : Nat) {α : Type} (alike : α → α → Prop) :
    Outcome α × Machine H (Bus Ram) → Outcome α × Machine H (Bus Ram) → Prop
  | done {value other : α} {plain skipping : Machine H (Bus Ram)} (same : alike value other)
    (twin : Twin plain skipping) (calm : Calm registry number plain) :
    Alongside registry number alike (.done value, plain) (.done other, skipping)
  | panicked {cause : Panic} {plain skipping : Machine H (Bus Ram)} (twin : Twin plain skipping) :
    Alongside registry number alike (.panicked cause, plain) (.panicked cause, skipping)

section Alongside

variable {registry number : Nat} {plain skipping : Machine H (Bus Ram)}

/-- What goes on alike after runs that ended alike ends alike. -/
theorem Alongside.andThen {α β : Type} {alike : α → α → Prop} {like : β → β → Prop}
    {left right : Outcome α × Machine H (Bus Ram)}
    {next later : α → Machine H (Bus Ram) → Outcome β × Machine H (Bus Ram)}
    (first : Alongside registry number alike left right)
    (second : ∀ value other plain skipping, left = (.done value, plain) → alike value other →
      Twin plain skipping → Calm registry number plain →
      Alongside registry number like (next value plain) (later other skipping)) :
    Alongside registry number like (Outcome.andThen left next) (Outcome.andThen right later) := by
  cases first with
  | done same twin calm => exact second _ _ _ _ rfl same twin calm
  | panicked twin => exact .panicked twin

/-- In a calm machine, the contexts belong to different processors. -/
theorem Calm.partner (calm : Calm registry number plain) (cpu : Cpu) :
    (plain.contexts.get cpu.other).cpu = (plain.contexts.get cpu).cpu.other :=
  (calm.placed cpu.other).trans (congrArg Cpu.other (calm.placed cpu).symm)

/-- The hasty machine passes over exactly the turns of the processors that poll. -/
theorem Calm.skips_hasty (calm : Calm registry number plain) {world : World H}
    (hub : world.hub = plain.world.hub) (cpu : Cpu) :
    (plain.hasty world).skips cpu = (plain.world.hub.detector number).polling cpu := by
  simp only [skips, Scheduler.skips, hasty, calm.poller, hub, Bool.true_and]

/-- The plain one of two twins passes over no turn. -/
theorem Twin.skips (twin : Twin plain skipping) (cpu : Cpu) : plain.skips cpu = false := by
  simp only [Machine.skips, Scheduler.skips, twin.never, Bool.false_and]

/-- A turn after which whoever polls is at rest leaves the machine calm.

Proof: the processor of the turn is at rest as `AtRest` says, and so is the other one, whose context
nobody has touched. -/
theorem Calm.after (calm : Calm registry number plain) {cpu : Cpu} {context : Context}
    {bus : Bus Ram} {world closed : World H} {ran : Int32}
    (rest : Micro.AtRest registry number (plain.contexts.get cpu.other) (context, bus) world)
    (here : context.cpu = cpu) (hub : closed.hub = world.hub) :
    Calm registry number
      ⟨plain.scheduler.credit cpu ran, plain.contexts.set cpu context, bus, closed⟩ := by
  constructor
  case lone => exact hub ▸ rest.lone
  case poller => exact calm.poller
  case granted => exact calm.granted
  case placed =>
    intro place
    rcases place.eq_or_eq_other cpu with rfl | rfl
    · rw [Pair.get_set_self, here]
    · rw [Pair.get_set_other]
      exact calm.placed _
  case resting =>
    intro place polls
    rw [hub] at polls
    rcases place.eq_or_eq_other cpu with rfl | rfl
    · rw [Pair.get_set_self]
      exact (rest.running (here.symm ▸ polls)).1
    · rw [Pair.get_set_other]
      refine rest.waiting ?_
      rw [calm.placed]
      exact polls

variable (setting : Setting H) (depth : Nat) (twin : Twin plain skipping)
  (calm : Calm registry number plain) {cpu : Cpu}

include twin calm

/-- The turn of a processor that polls: one machine passes over it, the other one runs the core,
and both end with the budget used up and everything else as it was.

Proof: the one machine credits the budget. The other one runs a context that rests, which uses up
the budget and leaves everything else as it was. -/
theorem turn_alongside_of_polling
    (polls : (plain.world.hub.detector number).polling cpu = true) :
    Alongside registry number (fun turn other => turn.ran = other.ran)
      (plain.turn setting depth (Micro.run registry) cpu)
      (skipping.turn setting depth (Micro.run registry) cpu) := by
  have works : plain.skips cpu = false := twin.skips cpu
  obtain ⟨never, world, hub, rfl⟩ := twin
  have here : (plain.contexts.get cpu).cpu = cpu := calm.placed cpu
  have resting : Micro.Resting plain.rig (plain.contexts.get cpu) := calm.resting cpu polls
  have still : (plain.world.record (.turnBegan cpu)).hub.Lone registry number := calm.lone
  have told : ((plain.world.record (.turnBegan cpu)).hub.detector number).polling
      (plain.contexts.get cpu).cpu = true := by
    rw [here]
    exact polls
  obtain ⟨after, ran, kept⟩ := Micro.run_of_resting setting depth still told resting
    plain.scheduler.config.cycles calm.granted
  obtain ⟨closed, same, worked⟩ := turn_of_runs works ran
  have rest : Micro.AtRest registry number (plain.contexts.get cpu.other)
      ({ (plain.contexts.get cpu).grant plain.scheduler.config.cycles with
        ran := plain.scheduler.config.cycles }, plain.rig) after := by
    constructor
    case lone => exact kept ▸ calm.lone
    case partner => exact calm.partner cpu
    case waiting =>
      rw [kept, calm.placed]
      exact calm.resting cpu.other
    case running => exact fun _ => ⟨resting.budget _ _, rfl⟩
  rw [worked, turn_of_skips ((calm.skips_hasty hub cpu).trans polls)]
  have alike : (world.record (.skipped cpu plain.scheduler.config.cycles)).hub = closed.hub :=
    hub.trans (same.trans kept).symm
  exact .done rfl ⟨never, _, alike, rfl⟩ (calm.after rest here same)

/-- The turn of a processor that does not poll is executed on both machines, from the same state
as far as the core can tell.

Proof: neither machine passes over the turn. The core only fires, and the hubs are equal, so it does
the same on both machines, and leaves whoever polls at rest. -/
theorem turn_alongside_of_busy
    (busy : (plain.world.hub.detector number).polling cpu = false)
    (spares : plain.TurnSpares setting depth registry number cpu) :
    Alongside registry number (fun turn other => turn.ran = other.ran)
      (plain.turn setting depth (Micro.run registry) cpu)
      (skipping.turn setting depth (Micro.run registry) cpu) := by
  have works : plain.skips cpu = false := twin.skips cpu
  obtain ⟨never, world, hub, rfl⟩ := twin
  have here : (plain.contexts.get cpu).cpu = cpu := calm.placed cpu
  have follows : (plain.hasty world).skips cpu = false := (calm.skips_hasty hub cpu).trans busy
  have still : (plain.world.record (.turnBegan cpu)).hub.Lone registry number := calm.lone
  have begun : (plain.world.record (.turnBegan cpu)).hub = (world.record (.turnBegan cpu)).hub :=
    hub.symm
  have started : Micro.AtRest registry number (plain.contexts.get cpu.other)
      ((plain.contexts.get cpu).grant plain.scheduler.config.cycles, plain.rig)
      (plain.world.record (.turnBegan cpu)) := by
    constructor
    case lone => exact still
    case partner => exact calm.partner cpu
    case waiting =>
      rw [calm.placed]
      exact calm.resting cpu.other
    case running =>
      intro polls
      have polls : (plain.world.hub.detector number).polling (plain.contexts.get cpu).cpu = true :=
        polls
      rw [here, busy] at polls
      cases polls
  obtain ⟨ended, kept, reached, settled, _⟩ := Micro.onlyFires_run.agree setting depth
    ((plain.contexts.get cpu).grant plain.scheduler.config.cycles, plain.rig) begun still
  cases ran : setting.run depth (Micro.run registry)
    ((plain.contexts.get cpu).grant plain.scheduler.config.cycles, plain.rig)
    (plain.world.record (.turnBegan cpu)) with
  | mk outcome rest =>
  obtain ⟨⟨context, bus⟩, after⟩ := rest
  cases followed : setting.run depth (Micro.run registry)
    ((plain.contexts.get cpu).grant plain.scheduler.config.cycles, plain.rig)
    (world.record (.turnBegan cpu)) with
  | mk other rest =>
  obtain ⟨desk, shadow⟩ := rest
  rw [ran, followed] at ended kept reached
  rw [ran] at settled
  dsimp only at ended kept reached settled
  subst ended kept
  have turned := turn_of_runs works ran
  have shadowed := turn_of_runs follows followed
  cases outcome with
  | done value =>
    obtain ⟨closed, same, worked⟩ := turned
    obtain ⟨shut, alike, copied⟩ := shadowed
    obtain ⟨rest, cpu_eq⟩ := started.steps spares ran
    rw [worked, copied]
    exact .done rfl ⟨never, shut, alike.trans (reached.symm.trans same.symm), rfl⟩
      (calm.after rest (cpu_eq.trans here) same)
  | panicked cause =>
    rw [turned, shadowed]
    exact .panicked ⟨never, shadow, reached.symm, rfl⟩
  | exhausted => exact absurd rfl settled

/-- What one machine does in a turn, the other one does, or passes over to the same effect. -/
theorem turn_alongside (spares : plain.TurnSpares setting depth registry number cpu) :
    Alongside registry number (fun turn other => turn.ran = other.ran)
      (plain.turn setting depth (Micro.run registry) cpu)
      (skipping.turn setting depth (Micro.run registry) cpu) := by
  cases polls : (plain.world.hub.detector number).polling cpu with
  | true => exact turn_alongside_of_polling setting depth twin calm polls
  | false => exact turn_alongside_of_busy setting depth twin calm polls spares

/-- The slices of both machines consume the same cycles.

Proof: each turn keeps the machines alongside each other, and the second one starts from what the
first one has left. -/
theorem slice_alongside (spares : plain.SliceSpares setting depth registry number) :
    Alongside registry number
      (fun result other => ∃ report copy, result = .ok report ∧ other = .ok copy ∧
        report.map Turn.ran = copy.map Turn.ran)
      (plain.slice setting depth (Micro.run registry))
      (skipping.slice setting depth (Micro.run registry)) := by
  have placed : plain.misplaced? = none := (misplaced?_eq_none_iff plain).mpr calm.placed
  obtain ⟨first, second⟩ := spares placed
  have begins : Alongside registry number (fun turn other => turn.ran = other.ran)
      (plain.turn setting depth (Micro.run registry) plain.scheduler.config.firstCpu)
      (skipping.turn setting depth (Micro.run registry) plain.scheduler.config.firstCpu) :=
    turn_alongside setting depth twin calm first
  obtain ⟨never, world, hub, rfl⟩ := twin
  have placed' : (plain.hasty world).misplaced? = none := placed
  simp only [slice, placed, placed']
  refine begins.andThen ?_
  intro turn other middle shadow turned same twin calm
  refine (turn_alongside setting depth twin calm (second turn middle turned)).andThen ?_
  intro last copied finish shut _ later twin calm
  obtain ⟨never, world, hub, rfl⟩ := twin
  have both : (Pair.both turn).map Turn.ran = (Pair.both other).map Turn.ran :=
    congrArg Pair.both same
  have reports : ∀ place, ((Pair.both turn).set place last).map Turn.ran =
      ((Pair.both other).set place copied).map Turn.ran := by
    intro place
    rw [Pair.map_set, Pair.map_set, both, later]
  exact .done ⟨_, _, rfl, rfl, reports _⟩ ⟨never, world, hub, rfl⟩
    ⟨calm.lone, calm.poller, calm.granted, calm.placed, calm.resting⟩

/-- A number of slices ends alike on both machines. -/
theorem slices_alongside (count : Nat)
    (spare : plain.SlicesSpare setting depth registry number count) :
    Alongside registry number (fun result other => result = other)
      (plain.slices setting depth (Micro.run registry) count)
      (skipping.slices setting depth (Micro.run registry) count) := by
  induction count generalizing plain skipping with
  | zero => exact .done rfl twin calm
  | succ count inductionHypothesis =>
    refine (slice_alongside setting depth twin calm spare.1).andThen ?_
    rintro result other middle shadow ran ⟨report, copy, rfl, rfl, _⟩ twin calm
    exact inductionHypothesis twin calm (spare.2 report middle ran)

/-- Up to the slice that fails, the reports of both machines tell of the same cycles.

Proof: by induction on the number of slices. Each slice consumes the same on both machines and
leaves them alongside each other. -/
theorem reports_alongside (count : Nat)
    (spare : plain.SlicesSpare setting depth registry number count) :
    (plain.reports setting depth (Micro.run registry) count).map (·.map Turn.ran) =
      (skipping.reports setting depth (Micro.run registry) count).map (·.map Turn.ran) := by
  induction count generalizing plain skipping with
  | zero => rfl
  | succ count inductionHypothesis =>
    have alike : Alongside registry number
        (fun result other => ∃ report copy, result = .ok report ∧ other = .ok copy ∧
          Pair.map Turn.ran report = Pair.map Turn.ran copy)
        (plain.slice setting depth (Micro.run registry))
        (skipping.slice setting depth (Micro.run registry)) :=
      slice_alongside setting depth twin calm spare.1
    simp only [reports]
    cases ran : plain.slice setting depth (Micro.run registry) with
    | mk outcome middle =>
    cases followed : skipping.slice setting depth (Micro.run registry) with
    | mk other shadow =>
    rw [ran, followed] at alike
    cases alike with
    | done same twin calm =>
      obtain ⟨report, copy, rfl, rfl, cycles⟩ := same
      simp only [List.map_cons, cycles]
      exact congrArg _ (inductionHypothesis twin calm (spare.2 report middle ran))
    | panicked twin => rfl

end Alongside

/-- Runs that ended alike left the same behind, and did not run out of depth. -/
theorem Alongside.ends {registry number : Nat} {α : Type}
    {left right : Outcome α × Machine H (Bus Ram)}
    (alike : Alongside registry number (fun value other => value = other) left right) :
    left.1 = right.1 ∧ left.1 ≠ .exhausted ∧
      left.2.contexts = right.2.contexts ∧ left.2.rig = right.2.rig ∧
      left.2.world.hub = right.2.world.hub ∧
      left.2.scheduler.slices = right.2.scheduler.slices ∧
      left.2.scheduler.totals = right.2.scheduler.totals := by
  cases alike with
  | done same twin _ =>
    obtain ⟨_, world, hub, rfl⟩ := twin
    exact ⟨congrArg Outcome.done same, Outcome.done_ne_exhausted _, rfl, rfl, hub.symm, rfl, rfl⟩
  | panicked twin =>
    obtain ⟨_, world, hub, rfl⟩ := twin
    exact ⟨rfl, Outcome.panicked_ne_exhausted _, rfl, rfl, hub.symm, rfl, rfl⟩

/-- Passing over turns changes nothing for the small core. Take settings that are accepted and a
registry with no listeners, and make one scheduler that passes over the turns of processors that
poll and one that does not. From the same contexts and the same memory, let both run the same
number of slices. If in the run that passes over nothing no instruction changes the words under a
processor that polls then, both runs end alike, after the same number of slices, and leave the
same contexts, memory, registries, detectors and totals. Their reports differ in nothing but
which turns were passed over.

Proof: the two schedulers differ in whether they pass over turns, and in nothing else. In the
beginning nobody polls, so the machines are calm, and slice by slice they stay alongside each other.
If a context is in the wrong place, both refuse the first slice. -/
theorem slices_eq_of_passing (setting : Setting H) (depth : Nat) (config : SliceConfig)
    (valid : config.check = .ok ()) (registry : Nat) (world : World H)
    (alone : ∀ cpu, (world.hub.roster registry cpu).entries = []) :
    ∃ number plain skipping built,
      Scheduler.watching { config with skipPolling := false } registry world = (.ok plain, built) ∧
      Scheduler.watching { config with skipPolling := true } registry world =
        (.ok skipping, built) ∧
      plain.poller = some number ∧ skipping.poller = some number ∧
      ∀ (contexts : Pair Context) (bus : Bus Ram) (count : Nat),
        SlicesSpare setting depth registry number count ⟨plain, contexts, bus, built⟩ →
        let left := slices setting depth (Micro.run registry) count ⟨plain, contexts, bus, built⟩
        let right :=
          slices setting depth (Micro.run registry) count ⟨skipping, contexts, bus, built⟩
        left.1 = right.1 ∧ left.1 ≠ .exhausted ∧
        left.2.contexts = right.2.contexts ∧ left.2.rig = right.2.rig ∧
        left.2.world.hub = right.2.world.hub ∧
        left.2.scheduler.slices = right.2.scheduler.slices ∧
        left.2.scheduler.totals = right.2.scheduler.totals ∧
        (reports setting depth (Micro.run registry) count ⟨plain, contexts, bus, built⟩).map
            (·.map Turn.ran) =
          (reports setting depth (Micro.run registry) count ⟨skipping, contexts, bus, built⟩).map
            (·.map Turn.ran) := by
  obtain ⟨number, built, attached, lone, quiet⟩ := World.attach_alone alone config.poll
  have made : ∀ passing, Scheduler.watching { config with skipPolling := passing } registry world =
      (.ok (.fresh { config with skipPolling := passing } registry (some number)), built) := by
    intro passing
    have accepted : ({ config with skipPolling := passing } : SliceConfig).check = .ok () := valid
    simp only [Scheduler.watching, accepted, attached]
  refine ⟨number, _, _, built, made false, made true, rfl, rfl, ?_⟩
  intro contexts bus count spare
  have twin : Twin (H := H) ⟨.fresh { config with skipPolling := false } registry (some number),
      contexts, bus, built⟩ ⟨.fresh { config with skipPolling := true } registry (some number),
      contexts, bus, built⟩ := ⟨rfl, built, rfl, rfl⟩
  by_cases placed : ∀ cpu, (contexts.get cpu).cpu = cpu
  · have calm : Calm (H := H) registry number ⟨.fresh { config with skipPolling := false } registry
        (some number), contexts, bus, built⟩ := by
      refine ⟨lone, rfl, SliceConfig.pos_of_check valid, placed, ?_⟩
      intro cpu polls
      rw [quiet cpu] at polls
      cases polls
    obtain ⟨outcome, settled, same, rig, hub, slices, totals⟩ :=
      (slices_alongside setting depth twin calm count spare).ends
    exact ⟨outcome, settled, same, rig, hub, slices, totals,
      reports_alongside setting depth twin calm count spare⟩
  · cases count with
    | zero => exact ⟨rfl, Outcome.done_ne_exhausted _, rfl, rfl, rfl, rfl, rfl, rfl⟩
    | succ count =>
      obtain ⟨misplaced, wrong⟩ := Option.ne_none_iff_exists'.mp
        fun none => placed ((misplaced?_eq_none_iff (H := H) ⟨.fresh { config with
          skipPolling := false } registry (some number), contexts, bus, built⟩).mp none)
      -- The contexts are the same on both sides, so both refuse the first slice alike.
      obtain ⟨refused, silent⟩ := slices_of_misplaced setting depth (Micro.run registry) wrong count
      have likewise : (⟨.fresh { config with skipPolling := true } registry (some number),
          contexts, bus, built⟩ : Machine H (Bus Ram)).misplaced? = some misplaced := wrong
      obtain ⟨refused', silent'⟩ :=
        slices_of_misplaced setting depth (Micro.run registry) likewise count
      simp only
      rw [refused, silent, refused', silent']
      exact ⟨rfl, Outcome.done_ne_exhausted _, rfl, rfl, rfl, rfl, rfl, rfl⟩

/-- A memory in which the slave, from the address 8 on, spins, and the master, from the address 0
on, stores at the communication register and then spins. -/
def announcement : Bus Ram :=
  .plain ⟨0, #[0xe1, 0x20, 0x21, 0x12, 0xaf, 0xfe, 0x00, 0x09, 0xaf, 0xfe, 0x00, 0x09] ++
    Array.replicate 24 0, []⟩

/-- The slave runs first and is reported to poll. The master wakes it, and is passed over in the
second slice. The contexts after that do not tell the two schedulers apart. -/
theorem slices_eq_of_passing_announcement :
    ∃ plain skipping built,
      Scheduler.watching { SliceConfig.standard with
        cycles := 8, masterFirst := false, skipPolling := false } 0
        (World.initial (H := ⟨Unit, Unit⟩) ()) = (.ok plain, built) ∧
      Scheduler.watching { SliceConfig.standard with
        cycles := 8, masterFirst := false, skipPolling := true } 0
        (World.initial (H := ⟨Unit, Unit⟩) ()) = (.ok skipping, built) ∧
      ∃ contexts : Pair Context,
        reports .still 0 (Micro.run 0) 2 ⟨plain, contexts, announcement, built⟩ =
          [⟨⟨8, false⟩, ⟨8, false⟩⟩, ⟨⟨8, false⟩, ⟨8, false⟩⟩] ∧
        reports .still 0 (Micro.run 0) 2 ⟨skipping, contexts, announcement, built⟩ =
          [⟨⟨8, false⟩, ⟨8, false⟩⟩, ⟨⟨8, true⟩, ⟨8, false⟩⟩] ∧
        (slices .still 0 (Micro.run 0) 2 ⟨plain, contexts, announcement, built⟩).2.contexts =
          (slices .still 0 (Micro.run 0) 2
            ⟨skipping, contexts, announcement, built⟩).2.contexts := by
  obtain ⟨number, plain, skipping, built, made, likewise, poller, _, alike⟩ :=
    slices_eq_of_passing .still 0 { SliceConfig.standard with cycles := 8, masterFirst := false }
      rfl 0 (World.initial (H := ⟨Unit, Unit⟩) ()) (fun cpu => by cases cpu <;> rfl)
  refine ⟨plain, skipping, built, made, likewise, ⟨(Context.fresh .master false).reset 0 0,
    (Context.fresh .slave false).reset 8 0⟩, ?_, ?_, (alike _ announcement 2 ?_).2.2.1⟩
  all_goals
    cases made
    cases likewise
    cases poller
  · decide +kernel
  · decide +kernel
  · constructor
    · intro _
      constructor
      · exact .of_step rfl (fun _ => by decide +kernel) (.of_spent (by decide))
      · intro turn middle ran
        cases ran
        refine .of_step rfl (fun _ => by decide +kernel) ?_
        refine .of_step rfl (fun _ => by decide +kernel) ?_
        exact .of_step rfl (fun _ => by decide +kernel) (.of_spent (by decide))
    · intro report after ran
      cases ran
      refine ⟨?_, fun _ _ _ => trivial⟩
      intro _
      constructor
      · exact .of_step rfl (fun _ => by decide +kernel) (.of_spent (by decide))
      · intro turn middle ran
        cases ran
        exact .of_step rfl (fun _ => by decide +kernel) (.of_spent (by decide))

end Machine

end Sh2Pair
