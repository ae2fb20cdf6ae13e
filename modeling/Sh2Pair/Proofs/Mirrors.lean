import Sh2Pair.Proofs.Lockstep
import Sh2Pair.Proofs.Watched

/-!
# The two processors are alike

Nothing in the library tells the processors apart but their names. Exchange the contexts of a
machine, each with its identity, and let the other processor run first: the machine then does what
it did before, with the processors exchanged throughout. This goes for contexts, reports, totals,
registrations and what the detector keeps; the memory and the number of slices are the same.

The two machines go in lockstep, the turn of a processor in one beside the turn of its partner in
the other.
-/

namespace Sh2Pair

/-- A context of the other processor, tagged as such, with all other fields the same. -/
def Context.crossed (context : Context) : Context :=
  { context with cpu := context.cpu.other, letter := context.cpu.other.letter }

/-- Contexts in each other's places, each with its identity exchanged. -/
def Context.exchanged (contexts : Pair Context) : Pair Context := (contexts.map crossed).swap

/-- Replacing a context before the exchange is replacing the other one, crossed, behind it. -/
theorem Context.exchanged_set (contexts : Pair Context) (cpu : Cpu) (context : Context) :
    exchanged (contexts.set cpu context) = (exchanged contexts).set cpu.other context.crossed := by
  cases cpu with
  | master => rfl
  | slave => rfl

/-- After the exchange, a processor has the crossed context of the other one. -/
theorem Context.get_exchanged (contexts : Pair Context) (cpu : Cpu) :
    (exchanged contexts).get cpu.other = (contexts.get cpu).crossed := by
  cases cpu with
  | master => rfl
  | slave => rfl

/-- A detector that keeps about each processor what it kept about the other. -/
def Detector.crossed (detector : Detector) : Detector :=
  { detector with watches := detector.watches.swap }

/-- A crossed detector reacts to the other processor as the detector does to this one. -/
theorem Detector.reaction_crossed (detector : Detector) (cpu : Cpu) (event : Event) :
    detector.crossed.reaction cpu.other event = detector.reaction cpu event := by
  cases cpu with
  | master => rfl
  | slave => rfl

/-- A crossed detector takes an event of the other processor as the detector takes one of this one.
-/
theorem Detector.receive_crossed (detector : Detector) (cpu : Cpu) (event : Event) :
    detector.crossed.receive cpu.other event = (detector.receive cpu event).crossed := by
  cases cpu with
  | master => rfl
  | slave => rfl

/-- Rosters with the same registrations, in the same order, are equal. -/
theorem Roster.ext_entries {left right : Roster} (same : left.entries = right.entries) :
    left = right := by
  cases left
  cases right
  cases same
  rfl

/-- Removing a name that is not in use changes nothing. -/
theorem Roster.erase_of_free {roster : Roster} {name : String} (free : roster.has name = false) :
    roster.erase name = roster := by
  refine ext_entries (List.filter_eq_self.mpr fun entry inside => decide_eq_true fun same => ?_)
  exact not_mem_of_has_eq_false free (List.mem_map.mpr ⟨entry, inside, same⟩)

namespace Hub

/-- Freeing the name of detectors takes it out of one roster and leaves the others alone. -/
theorem roster_vacate (hub : Hub) (home seen : Nat) (cpu place : Cpu) :
    (hub.vacate home cpu).roster seen place =
      if seen = home ∧ place = cpu then (hub.roster home cpu).erase Detector.name
      else hub.roster seen place := by
  rw [vacate]
  by_cases used : (hub.roster home cpu).has Detector.name = true
  · rw [if_pos used, roster_setRoster]
  · rw [if_neg used, Roster.erase_of_free (Bool.of_not_eq_true used)]
    split
    · rename_i here
      rw [here.1, here.2]
    · rfl

/-- In two hubs, a registry and the detector that watches it are the same with the processors
exchanged. -/
structure Mirrored (registry : Nat) (watcher : Option Nat) (left right : Hub) : Prop where
  roster : ∀ cpu, right.roster registry cpu.other = left.roster registry cpu
  detector : ∀ number, watcher = some number →
    right.detector number = (left.detector number).crossed
  home : ∀ number, watcher = some number → (left.detector number).home = registry

variable {registry : Nat} {watcher : Option Nat} {left right : Hub}

/-- A processor polls in one hub if the other one does in the mirrored hub. -/
theorem Mirrored.polls (mirrored : Mirrored registry watcher left right) (cpu : Cpu) :
    right.polls watcher cpu.other = left.polls watcher cpu := by
  cases watcher with
  | none => rfl
  | some number =>
    rw [Hub.polls, Hub.polls, mirrored.detector number rfl, Detector.crossed, Detector.polling,
      Detector.polling, Pair.get_swap, Cpu.other_other]

/-- The mirrored hub is watched as the hub is. -/
theorem Mirrored.watched (mirrored : Mirrored registry watcher left right)
    (watched : left.Watched registry watcher) : right.Watched registry watcher := by
  intro cpu
  have same : right.roster registry cpu.other.other = left.roster registry cpu.other :=
    mirrored.roster cpu.other
  rw [Cpu.other_other] at same
  rw [same]
  exact watched cpu.other

/-- Telling the detector about an event for one processor mirrors telling it for the other.

Proof: the detector leaves on one side exactly if it does on the other one, as the reaction does not
see which processor is meant. What it leaves is its registration for that processor. -/
theorem Mirrored.signal {number : Nat} (mirrored : Mirrored registry (some number) left right)
    (cpu : Cpu) (event : Event) :
    Mirrored registry (some number) (left.signal number cpu event)
      (right.signal number cpu.other event) := by
  have detector : right.detector number = (left.detector number).crossed :=
    mirrored.detector number rfl
  have home : (left.detector number).home = registry := mirrored.home number rfl
  have homeToo : (right.detector number).home = registry := by
    rw [detector]
    exact home
  have leaves : right.Leaves number cpu.other event ↔ left.Leaves number cpu event := by
    rw [Leaves, Leaves, detector, Detector.reaction_crossed]
    rfl
  constructor
  case roster =>
    intro place
    rw [signal_eq, signal_eq, roster_modifyDetector, roster_modifyDetector, home, homeToo]
    by_cases gone : left.Leaves number cpu event
    · rw [if_pos gone, if_pos (leaves.mpr gone), roster_vacate, roster_vacate, mirrored.roster,
        mirrored.roster]
      have places : place.other = cpu.other ↔ place = cpu := by
        cases place <;> cases cpu <;> decide
      simp only [places]
    · rw [if_neg gone, if_neg (mt leaves.mp gone)]
      exact mirrored.roster place
  case detector =>
    rintro _ ⟨⟩
    rw [detector_signal, detector_signal, detector]
    exact Detector.receive_crossed _ cpu event
  case home =>
    rintro _ ⟨⟩
    rw [detector_signal]
    exact home

/-- A fire for the other processor leaves the mirrored hub as a fire for this one leaves the hub. -/
theorem Mirrored.fired (mirrored : Mirrored registry watcher left right)
    (watched : left.Watched registry watcher) (cpu : Cpu) (event : Event) :
    Mirrored registry watcher (left.fired registry cpu event)
      (right.fired registry cpu.other event) := by
  have same : (right.roster registry cpu.other).listeners = (left.roster registry cpu).listeners :=
    congrArg Roster.listeners (mirrored.roster cpu)
  rcases watched cpu with nobody | ⟨number, rfl, one⟩
  · rw [fired_of_nobody nobody, fired_of_nobody (same.trans nobody)]
    exact mirrored
  · rw [fired_of_one one, fired_of_one (same.trans one)]
    exact mirrored.signal cpu event

end Hub

namespace Micro

/-- What an instruction of the other processor comes to. -/
def Stride.crossed (stride : Stride) : Stride :=
  { stride with
    announced := stride.announced.map fun (cpu, event) => (cpu.other, event)
    held := stride.held.crossed
    context := stride.context.crossed }

/-- A crossed context advances as the context does. -/
theorem advance_crossed (context : Context) :
    advance context.crossed = ((advance context).1.crossed, (advance context).2) := by
  simp only [advance, Context.crossed]
  cases following? context.pc with
  | none => rfl
  | some pc =>
    dsimp only
    cases Cycles.checkedAdd? context.ran 1 with
    | none => rfl
    | some ran => rfl

/-- A crossed context passes to the next instruction as the context does, and announces for the
other processor. -/
theorem Stride.pass_crossed (address : UInt32) (stored : Option (UInt32 × UInt32))
    (announced : Option (Cpu × Event)) (context : Context) :
    pass address stored (announced.map fun (cpu, event) => (cpu.other, event)) context.crossed =
      (pass address stored announced context).crossed := by
  simp only [pass, advance_crossed]
  rfl

/-- A crossed context jumps as the context does. -/
theorem Stride.jump_crossed (fetched : List UInt32) (target : UInt32) (context : Context) :
    jump fetched target context.crossed = (jump fetched target context).crossed := by
  have same : context.crossed.ran = context.ran := rfl
  cases spent : Cycles.checkedAdd? context.ran 2 with
  | none =>
    simp only [jump, same, spent]
    rfl
  | some ran =>
    simp only [jump, same, spent]
    by_cases loops : target = context.pc
    · have loopsToo : target = context.crossed.pc := loops
      rw [if_pos loops, if_pos loopsToo]
      rfl
    · have goesOn : target ≠ context.crossed.pc := loops
      rw [if_neg loops, if_neg goesOn]
      rfl

/-- What an instruction comes to does not depend on the processor, except for its name.

Proof: one case per instruction. None of them looks at the processor, except to say whom an
announcement is for. -/
theorem stride_crossed (read : UInt32 → UInt16) (context : Context) :
    stride read context.crossed = (stride read context).crossed := by
  simp only [stride]
  have pc : context.crossed.pc = context.pc := rfl
  rw [pc]
  cases decode (read context.pc) with
  | idle => exact Stride.pass_crossed context.pc none none (fetching context _)
  | load register value =>
    exact Stride.pass_crossed context.pc none none ((fetching context _).setReg register value)
  | store target source =>
    dsimp only
    have announced : (if context.crossed.reg target = commAddress then
        some (context.crossed.cpu.other, Event.comm) else none) =
        (if context.reg target = commAddress then some (context.cpu.other, Event.comm)
          else none).map fun (cpu, event) => (cpu.other, event) := by
      by_cases port : context.reg target = commAddress
      · have portToo : context.crossed.reg target = commAddress := port
        rw [if_pos port, if_pos portToo]
        rfl
      · have elsewhere : context.crossed.reg target ≠ commAddress := port
        rw [if_neg port, if_neg elsewhere]
        rfl
    rw [announced]
    exact Stride.pass_crossed context.pc _ _ (fetching context _)
  | branch distance =>
    dsimp only
    cases following? context.pc with
    | none => rfl
    | some slot =>
      dsimp only
      by_cases idle : read slot = idleOpcode
      · rw [if_pos idle, if_pos idle]
        exact Stride.jump_crossed [context.pc, slot] (context.pc + 4 + distance)
          { slotting (fetching context (read context.pc)) (context.pc + 4 + distance)
              (read slot) with delaySlot := false }
      · rw [if_neg idle, if_neg idle]
        rfl
  | unknown => rfl

variable {H : Host} {registry : Nat} {watcher : Option Nat} {cpu : Cpu}

/-- Two moments of a run that are the same with the processors exchanged. -/
structure Reflected (registry : Nat) (watcher : Option Nat) (cpu : Cpu)
    (left right : Desk × World H) : Prop where
  context : right.1.1 = left.1.1.crossed
  placed : left.1.1.cpu = cpu
  bus : right.1.2 = left.1.2
  watched : left.2.hub.Watched registry watcher
  hub : left.2.hub.Mirrored registry watcher right.2.hub

/-- What two strides announce keeps mirrored hubs mirrored. -/
theorem Reflected.tell {left right : Hub} (mirrored : left.Mirrored registry watcher right)
    (watched : left.Watched registry watcher) (stride : Stride) :
    (stride.tell registry left).Mirrored registry watcher
      (stride.crossed.tell registry right) := by
  simp only [Stride.tell, Stride.crossed]
  cases stride.announced with
  | none => exact mirrored
  | some announcement => exact mirrored.fired watched announcement.1 announcement.2

section Runs

variable (setting : Setting H) (depth : Nat) {left right : Desk × World H}

/-- An instruction comes to the same in reflected worlds, and keeps them so.

Proof: by `step_of_watched`, the step comes to its stride on either side, and the strides are mirror
images. -/
theorem Reflected.step (reflected : Reflected registry watcher cpu left right) :
    Outcome.Lockstep Eq (Reflected registry watcher cpu)
      (setting.run depth (Micro.step registry) left.1 left.2)
      (setting.run depth (Micro.step registry) right.1 right.2) := by
  obtain ⟨⟨context, bus⟩, world⟩ := left
  obtain ⟨⟨partner, sameBus⟩, shadow⟩ := right
  obtain ⟨exchanged, placed, shared, watched, mirrored⟩ := reflected
  dsimp only at exchanged placed shared watched mirrored ⊢
  obtain rfl := exchanged.symm
  obtain rfl := shared.symm
  obtain ⟨after, stepped, hub, _⟩ := step_of_watched setting depth context bus world watched
  obtain ⟨other, followed, hubToo, _⟩ := step_of_watched setting depth context.crossed bus shadow
    (mirrored.watched watched)
  rw [stride_crossed] at followed hubToo
  rw [stepped, followed]
  have kept : Reflected registry watcher cpu
      (((stride (word bus) context).context, (stride (word bus) context).put bus), after)
      (((stride (word bus) context).crossed.context,
        (stride (word bus) context).crossed.put bus), other) := by
    constructor
    case context => rfl
    case placed => exact (cpu_stride (word bus) context).2.trans placed
    case bus => rfl
    case watched =>
      rw [hub]
      exact (stride (word bus) context).watched_tell watched
    case hub =>
      rw [hub, hubToo]
      exact Reflected.tell mirrored watched _
  cases faulty : (stride (word bus) context).fault with
  | none =>
    simp only [Stride.outcome, Stride.crossed, faulty]
    exact .done rfl kept
  | some cause =>
    simp only [Stride.outcome, Stride.crossed, faulty]
    exact .panicked kept

/-- A row of instructions comes to the same in reflected worlds, and keeps them so. -/
theorem Reflected.steps (reflected : Reflected registry watcher cpu left right) (bound : Nat) :
    Outcome.Lockstep Eq (Reflected registry watcher cpu)
      (setting.run depth (Micro.steps registry bound) left.1 left.2)
      (setting.run depth (Micro.steps registry bound) right.1 right.2) := by
  induction bound generalizing left right with
  | zero => exact .done rfl reflected
  | succ bound inductionHypothesis =>
    have left_eq : right.1.1.left = left.1.1.left := by
      rw [reflected.context]
      rfl
    rw [steps_succ_run, steps_succ_run, left_eq]
    by_cases spent : left.1.1.left.toInt ≤ 0
    · rw [if_pos spent, if_pos spent]
      exact .done rfl reflected
    · rw [if_neg spent, if_neg spent]
      refine (reflected.step setting depth).andThen ?_
      intro _ _ _ _ _ _ kept
      exact inductionHypothesis kept

/-- The core runs on both sides alike. -/
theorem Reflected.run (reflected : Reflected registry watcher cpu left right) :
    Outcome.Lockstep Eq (Reflected registry watcher cpu)
      (setting.run depth (Micro.run registry) left.1 left.2)
      (setting.run depth (Micro.run registry) right.1 right.2) := by
  have same : right.1.1.remaining = left.1.1.remaining := by
    rw [reflected.context]
    rfl
  rw [run_eq_steps, run_eq_steps, same]
  exact reflected.steps setting depth _

end Runs

end Micro

/-- A scheduler with the order of turns reversed that has credited each processor with what the
other was credited with. -/
def Scheduler.crossed (scheduler : Scheduler) : Scheduler :=
  { scheduler with config := scheduler.config.turned, totals := scheduler.totals.swap }

/-- Crediting the other processor in a crossed scheduler is crediting this one before it is crossed.
-/
theorem Scheduler.credit_crossed (scheduler : Scheduler) (cpu : Cpu) (ran : Int32) :
    scheduler.crossed.credit cpu.other ran = (scheduler.credit cpu ran).crossed := by
  cases cpu with
  | master => rfl
  | slave => rfl

namespace Machine

variable {H : Host} {registry : Nat} {watcher : Option Nat}

/-- Two machines that are the same with the processors exchanged. -/
structure Mirrored (registry : Nat) (watcher : Option Nat) (left right : Machine H (Bus Ram)) :
    Prop where
  scheduler : right.scheduler = left.scheduler.crossed
  poller : left.scheduler.poller = none ∨ left.scheduler.poller = watcher
  contexts : right.contexts = Context.exchanged left.contexts
  placed : ∀ cpu, (left.contexts.get cpu).cpu = cpu
  rig : right.rig = left.rig
  watched : left.world.hub.Watched registry watcher
  hub : left.world.hub.Mirrored registry watcher right.world.hub

namespace Mirrored

variable {left right : Machine H (Bus Ram)} (mirrored : Mirrored registry watcher left right)
  (cpu : Cpu)

include mirrored

/-- In a mirrored machine, the other processor has the crossed context of this one. -/
theorem get_contexts : right.contexts.get cpu.other = (left.contexts.get cpu).crossed := by
  rw [mirrored.contexts, Context.get_exchanged]

/-- The contexts of a processor and of its partner may change alike, and so may the memory and the
world. -/
theorem set (context : Context) (placed : context.cpu = cpu) (rig : Bus Ram)
    (world shadow : World H) (watched : world.hub.Watched registry watcher)
    (hub : world.hub.Mirrored registry watcher shadow.hub) :
    Mirrored registry watcher
      { left with contexts := left.contexts.set cpu context, rig, world }
      { right with
        contexts := right.contexts.set cpu.other context.crossed, rig, world := shadow } := by
  constructor
  case scheduler => exact mirrored.scheduler
  case poller => exact mirrored.poller
  case contexts => rw [mirrored.contexts, Context.exchanged_set]
  case placed =>
    intro place
    rw [Pair.get_set]
    split
    · rename_i here
      exact placed.trans here.symm
    · exact mirrored.placed place
  case rig => rfl
  case watched => exact watched
  case hub => exact hub

/-- Granting cycles to either processor keeps machines mirrored. -/
theorem grant : Mirrored registry watcher (left.grant cpu) (right.grant cpu.other) := by
  have same : right.grant cpu.other = { right with
      contexts := right.contexts.set cpu.other
        ((left.contexts.get cpu).grant left.scheduler.config.cycles).crossed
      rig := left.rig } := by
    simp only [Machine.grant, Pair.modify, mirrored.get_contexts, mirrored.scheduler,
      mirrored.rig]
    rfl
  rw [same]
  exact mirrored.set cpu ((left.contexts.get cpu).grant left.scheduler.config.cycles)
    (mirrored.placed cpu) left.rig left.world right.world mirrored.watched mirrored.hub

/-- A turn of the other processor is passed over in the mirrored machine if the turn of this one is.
-/
theorem skips : right.skips cpu.other = left.skips cpu := by
  have polls : right.world.hub.polls left.scheduler.poller cpu.other =
      left.world.hub.polls left.scheduler.poller cpu := by
    rcases mirrored.poller with none | own
    · rw [none]
      rfl
    · rw [own]
      exact mirrored.hub.polls cpu
  simp only [Machine.skips, mirrored.scheduler]
  exact congrArg (left.scheduler.config.skipPolling && ·) polls

/-- The settling of a turn reports the same, and keeps machines mirrored. -/
theorem settle (skipped : Bool) :
    (left.settle cpu skipped).1 = (right.settle cpu.other skipped).1 ∧
      Mirrored registry watcher (left.settle cpu skipped).2 (right.settle cpu.other skipped).2 := by
  simp only [Machine.settle, mirrored.get_contexts, mirrored.scheduler]
  refine ⟨rfl, ?_⟩
  constructor
  case scheduler => exact Scheduler.credit_crossed ..
  case poller => exact mirrored.poller
  case contexts => exact mirrored.contexts
  case placed => exact mirrored.placed
  case rig => exact mirrored.rig
  case watched => exact mirrored.watched
  case hub => exact mirrored.hub

/-- Passing over a turn reports the same, and keeps machines mirrored. -/
theorem pass : (left.pass cpu).1 = (right.pass cpu.other).1 ∧
    Mirrored registry watcher (left.pass cpu).2 (right.pass cpu.other).2 := by
  simp only [Machine.pass, mirrored.get_contexts, mirrored.rig]
  have used := mirrored.set cpu
    { left.contexts.get cpu with ran := (left.contexts.get cpu).cycles } (mirrored.placed cpu)
    left.rig (left.world.record (.skipped cpu (left.contexts.get cpu).cycles))
    (right.world.record (.skipped cpu.other (left.contexts.get cpu).cycles))
    mirrored.watched mirrored.hub
  exact used.settle cpu true

/-- The end of a turn keeps machines mirrored. -/
theorem close : Mirrored registry watcher (left.close cpu) (right.close cpu.other) := by
  have still : ∀ (machine : Machine H (Bus Ram)) (place : Cpu),
      (machine.close place).world.hub = machine.world.hub := by
    intro machine place
    simp only [Machine.close]
    split
    · rfl
    · rfl
  constructor
  case scheduler => exact mirrored.scheduler
  case poller => exact mirrored.poller
  case contexts => exact mirrored.contexts
  case placed => exact mirrored.placed
  case rig => exact mirrored.rig
  case watched =>
    rw [still]
    exact mirrored.watched
  case hub =>
    rw [still, still]
    exact mirrored.hub

variable (setting : Setting H) (depth : Nat)

/-- The core runs to the same end in mirrored machines, and keeps them so.

Proof: the turn begins at reflected desks, the run keeps them so, and putting the contexts back in
their places mirrors the machines again. -/
theorem execute :
    Outcome.Lockstep Eq (Mirrored registry watcher)
      (left.execute setting depth (Micro.run registry) cpu)
      (right.execute setting depth (Micro.run registry) cpu.other) := by
  have begins : Micro.Reflected registry watcher cpu
      ((left.contexts.get cpu, left.rig), left.world.record (.turnBegan cpu))
      ((right.contexts.get cpu.other, right.rig), right.world.record (.turnBegan cpu.other)) :=
    ⟨mirrored.get_contexts cpu, mirrored.placed cpu, mirrored.rig, mirrored.watched,
      mirrored.hub⟩
  have ran : Outcome.Lockstep Eq (Micro.Reflected registry watcher cpu)
      (setting.run depth (Micro.run registry) (left.contexts.get cpu, left.rig)
        (left.world.record (.turnBegan cpu)))
      (setting.run depth (Micro.run registry) (right.contexts.get cpu.other, right.rig)
        (right.world.record (.turnBegan cpu.other))) := begins.run setting depth
  simp only [Machine.execute]
  generalize setting.run depth (Micro.run registry) (left.contexts.get cpu, left.rig)
    (left.world.record (.turnBegan cpu)) = one at ran ⊢
  generalize setting.run depth (Micro.run registry) (right.contexts.get cpu.other, right.rig)
    (right.world.record (.turnBegan cpu.other)) = other at ran ⊢
  have ends : ∀ {before after : Micro.Desk × World H},
      Micro.Reflected registry watcher cpu before after →
      Mirrored registry watcher
        { left with
          contexts := left.contexts.set cpu before.1.1, rig := before.1.2, world := before.2 }
        { right with
          contexts := right.contexts.set cpu.other after.1.1, rig := after.1.2
          world := after.2 } := by
    intro before after reflected
    rw [reflected.context, reflected.bus]
    exact mirrored.set cpu before.1.1 reflected.placed before.1.2 before.2 after.2
      reflected.watched reflected.hub
  cases ran with
  | done related kept => exact .done related (ends kept)
  | panicked kept => exact .panicked (ends kept)

/-- The turn of a processor goes beside the turn of its partner on the other machine. -/
theorem turn :
    Outcome.Lockstep Eq (Mirrored registry watcher)
      (left.turn setting depth (Micro.run registry) cpu)
      (right.turn setting depth (Micro.run registry) cpu.other) := by
  have granted : Mirrored registry watcher (left.grant cpu) (right.grant cpu.other) :=
    mirrored.grant cpu
  have skips : (right.grant cpu.other).skips cpu.other = (left.grant cpu).skips cpu :=
    granted.skips cpu
  simp only [Machine.turn]
  by_cases passes : (left.grant cpu).skips cpu = true
  · rw [if_pos passes, if_pos (skips.trans passes)]
    exact .done (granted.pass cpu).1 (granted.pass cpu).2
  · rw [if_neg passes, if_neg (skips ▸ passes)]
    refine (granted.execute cpu setting depth).andThen ?_
    intro _ _ _ _ _ _ kept
    exact .done ((kept.close cpu).settle cpu false).1 ((kept.close cpu).settle cpu false).2

omit cpu

/-- A slice comes to the swapped report in mirrored machines, and keeps them so.

Proof: each turn keeps the machines mirrored, and the first turns belong to different processors,
since the orders of turns are reversed. The reports are swapped accordingly. -/
theorem slice :
    Outcome.Lockstep
      (fun result other => ∃ report, result = .ok report ∧ other = .ok (Pair.swap report))
      (Mirrored registry watcher) (left.slice setting depth (Micro.run registry))
      (right.slice setting depth (Micro.run registry)) := by
  have placed : left.misplaced? = none := (misplaced?_eq_none_iff left).mpr mirrored.placed
  have placedToo : right.misplaced? = none := by
    refine (misplaced?_eq_none_iff right).mpr fun cpu => ?_
    have same : right.contexts.get cpu.other.other = (left.contexts.get cpu.other).crossed :=
      mirrored.get_contexts cpu.other
    rw [Cpu.other_other] at same
    rw [same, Context.crossed, mirrored.placed, Cpu.other_other]
  have order : right.scheduler.config.firstCpu = left.scheduler.config.firstCpu.other := by
    rw [mirrored.scheduler]
    exact SliceConfig.firstCpu_turned _
  simp only [Machine.slice, placed, placedToo, order]
  generalize left.scheduler.config.firstCpu = first
  refine (mirrored.turn first setting depth).andThen ?_
  intro turn _ middle shadow _ same kept
  subst same
  refine (kept.turn first.other setting depth).andThen ?_
  intro last _ finish shade _ same kept
  subst same
  refine .done ⟨_, rfl, ?_⟩ ?_
  · cases first with
    | master => rfl
    | slave => rfl
  · constructor
    case scheduler =>
      dsimp only
      rw [kept.scheduler]
      rfl
    case poller => exact kept.poller
    case contexts => exact kept.contexts
    case placed => exact kept.placed
    case rig => exact kept.rig
    case watched => exact kept.watched
    case hub => exact kept.hub

/-- Any number of slices come to the same in mirrored machines, and keep them so. -/
theorem slices (count : Nat) :
    Outcome.Lockstep Eq (Mirrored registry watcher)
      (left.slices setting depth (Micro.run registry) count)
      (right.slices setting depth (Micro.run registry) count) := by
  induction count generalizing left right with
  | zero => exact .done rfl mirrored
  | succ count inductionHypothesis =>
    refine (mirrored.slice setting depth).andThen ?_
    rintro _ _ middle shadow _ ⟨report, rfl, rfl⟩ kept
    exact inductionHypothesis kept

/-- The reports tell of the same turns, each of the other processor. -/
theorem reports (count : Nat) :
    right.reports setting depth (Micro.run registry) count =
      (left.reports setting depth (Micro.run registry) count).map Pair.swap := by
  induction count generalizing left right with
  | zero => rfl
  | succ count inductionHypothesis =>
    have alike : Outcome.Lockstep
        (fun result other => ∃ report, result = .ok report ∧ other = .ok (Pair.swap report))
        (Mirrored registry watcher) (left.slice setting depth (Micro.run registry))
        (right.slice setting depth (Micro.run registry)) := mirrored.slice setting depth
    simp only [Machine.reports]
    generalize left.slice setting depth (Micro.run registry) = one at alike ⊢
    generalize right.slice setting depth (Micro.run registry) = other at alike ⊢
    cases alike with
    | done related kept =>
      obtain ⟨report, rfl, rfl⟩ := related
      exact congrArg (Pair.swap report :: ·) (inductionHypothesis kept)
    | panicked kept => rfl

end Mirrored

/-- The two processors are alike. Take any contexts, the master's and the slave's, any memory, and a
scheduler that begins on a registry without listeners or with a detector just attached. Then there
is one with the order of turns reversed that begins beside it, and which has its detector if it has
one. Let both run the same number of slices of the small core, the other one from the contexts in
each other's places, each with its identity exchanged. Both end alike, be it with the same panic,
after the same number of slices, and leave the same memory. Everything else is the same with the
processors exchanged: the contexts, the reports, the totals, what the detector keeps, and what is
registered.

Proof: two machines that have just begun mirror each other: with a detector that has heard nothing,
or without one. Slices of the core keep them so, and everything that is claimed can be read off
mirrored machines. -/
theorem slices_exchanged (setting : Setting H) (depth : Nat) {config : SliceConfig}
    {registry : Nat} {world built : World H} {watcher : Option Nat} {scheduler : Scheduler}
    (alone : ∀ cpu, (world.hub.roster registry cpu).entries = [])
    (begins : Scheduler.Begins config registry world watcher scheduler built)
    (contexts : Pair Context) (placed : ∀ cpu, (contexts.get cpu).cpu = cpu) (bus : Bus Ram)
    (count : Nat) :
    ∃ other, Scheduler.Begins config.turned registry world watcher other built ∧
      other.poller = scheduler.poller ∧
      let start : Machine H (Bus Ram) := ⟨scheduler, contexts, bus, built⟩
      let mirror : Machine H (Bus Ram) := ⟨other, Context.exchanged contexts, bus, built⟩
      let left := start.slices setting depth (Micro.run registry) count
      let right := mirror.slices setting depth (Micro.run registry) count
      right.1 = left.1 ∧ right.1 ≠ .exhausted ∧
        right.2.rig = left.2.rig ∧ right.2.scheduler.slices = left.2.scheduler.slices ∧
        right.2.contexts = Context.exchanged left.2.contexts ∧
        right.2.scheduler.totals = left.2.scheduler.totals.swap ∧
        mirror.reports setting depth (Micro.run registry) count =
          (start.reports setting depth (Micro.run registry) count).map Pair.swap ∧
        (∀ number, watcher = some number →
          right.2.world.hub.detector number = (left.2.world.hub.detector number).crossed) ∧
        ∀ cpu, right.2.world.hub.roster registry cpu.other =
          left.2.world.hub.roster registry cpu := by
  have begun : Scheduler.Begun config registry watcher scheduler built := begins.begun alone
  refine ⟨_, begins.turned, rfl, ?_⟩
  intro start mirror left right
  obtain ⟨poller, fresh, own⟩ := begun.scheduler
  have mirrored : Mirrored registry watcher start mirror := by
    constructor
    case scheduler =>
      change Scheduler.fresh config.turned registry scheduler.poller = scheduler.crossed
      rw [fresh]
      rfl
    case poller =>
      change scheduler.poller = none ∨ scheduler.poller = watcher
      rw [fresh]
      exact own
    case contexts => rfl
    case placed => exact placed
    case rig => rfl
    case watched => exact begun.watched
    case hub =>
      constructor
      case roster =>
        intro cpu
        exact Roster.ext_entries ((begun.entries cpu.other).trans (begun.entries cpu).symm)
      case detector =>
        intro number watches
        obtain ⟨poll, asMade⟩ := begun.detector number watches
        change built.hub.detector number = (built.hub.detector number).crossed
        rw [asMade]
        rfl
      case home =>
        intro number watches
        obtain ⟨poll, asMade⟩ := begun.detector number watches
        change (built.hub.detector number).home = registry
        rw [asMade]
        rfl
  have ran : Outcome.Lockstep Eq (Mirrored registry watcher) left right :=
    mirrored.slices setting depth count
  have last : Mirrored registry watcher left.2 right.2 := ran.kept
  exact ⟨ran.outcome.symm, ran.outcome ▸ ran.settled, last.rig,
    (congrArg Scheduler.slices last.scheduler).trans rfl, last.contexts,
    congrArg Scheduler.totals last.scheduler, mirrored.reports setting depth count,
    last.hub.detector, last.hub.roster⟩

/-- Short slices in which the slave runs first. -/
def brief : SliceConfig := { SliceConfig.standard with cycles := 8, masterFirst := false }

/-- Contexts for the two programs of `announcement`. -/
def announcers : Pair Context :=
  ⟨(Context.fresh .master false).reset 0 0, (Context.fresh .slave false).reset 8 0⟩

/-- The world in which a scheduler for short slices begins, with a detector of its own. -/
def briefWorld : World ⟨Unit, Unit⟩ := (Scheduler.watching brief 0 (.initial ())).2

/-- The master wakes the slave and is passed over in the second slice. With the processors exchanged
it is the slave that is passed over. -/
theorem slices_exchanged_announcement :
    ∃ other, Scheduler.Begins brief.turned 0 (.initial ()) (some 0) other briefWorld ∧
      reports .still 0 (Micro.run 0) 2
          ⟨.fresh brief 0 (some 0), announcers, announcement, briefWorld⟩ =
        [⟨⟨8, false⟩, ⟨8, false⟩⟩, ⟨⟨8, true⟩, ⟨8, false⟩⟩] ∧
      reports .still 0 (Micro.run 0) 2
          ⟨other, Context.exchanged announcers, announcement, briefWorld⟩ =
        [⟨⟨8, false⟩, ⟨8, false⟩⟩, ⟨⟨8, false⟩, ⟨8, true⟩⟩] := by
  have begins : Scheduler.Begins brief 0 (.initial ()) (some 0) (.fresh brief 0 (some 0))
      briefWorld := .watching rfl rfl
  have told : reports .still 0 (Micro.run 0) 2
      ⟨.fresh brief 0 (some 0), announcers, announcement, briefWorld⟩ =
      [⟨⟨8, false⟩, ⟨8, false⟩⟩, ⟨⟨8, true⟩, ⟨8, false⟩⟩] := by decide +kernel
  obtain ⟨other, turned, _, _, _, _, _, _, _, mirrored, _⟩ := slices_exchanged .still 0
    (fun cpu => by cases cpu <;> rfl) begins announcers (fun cpu => by cases cpu <;> rfl)
    announcement 2
  refine ⟨other, turned, told, ?_⟩
  rw [mirrored, told]
  rfl

end Machine

end Sh2Pair
