import Sh2Pair.Proofs.Slices
import Sh2Pair.Proofs.Trails

/-!
# The order of turns

If no store of a run writes a byte of an instruction word that the run fetches, it does not matter
which processor runs first. Each processor goes along the trail that its own context and the words
of the code prescribe. Wake events and turns that are passed over come at different moments in the
two orders, but a turn is passed over only where the trail is a branch to itself.

That a run completes is enough to know that both trails of each slice keep to the grounds, and that
they do is enough for the slice to complete in either order.
-/

namespace Sh2Pair.Machine

open Micro (finish putAll)

variable {H : Host} {registry : Nat} {watcher : Option Nat} {grounds : Grounds}

/-- What a processor goes through in its next turn, if the words of the code are kept. -/
def trail (grounds : Grounds) (machine : Machine H (Bus Ram)) (cpu : Cpu) : List Micro.Stride :=
  let granted := (machine.contexts.get cpu).grant machine.scheduler.config.cycles
  Micro.trail grounds.read granted.remaining granted

/-- The context of a processor when it has gone through that. -/
def goal (grounds : Grounds) (machine : Machine H (Bus Ram)) (cpu : Cpu) : Context :=
  finish ((machine.contexts.get cpu).grant machine.scheduler.config.cycles)
    (machine.trail grounds cpu)

/-- Two machines in which a processor has the same budget and the same context have the same
trail for it. -/
theorem trail_congr {left right : Machine H (Bus Ram)} {cpu : Cpu}
    (config : right.scheduler.config.cycles = left.scheduler.config.cycles)
    (context : right.contexts.get cpu = left.contexts.get cpu) :
    right.trail grounds cpu = left.trail grounds cpu ∧
      right.goal grounds cpu = left.goal grounds cpu := by
  simp only [goal, trail, config, context, and_self]

/-- What a processor goes through in its next turn keeps to the grounds. -/
def Tame (grounds : Grounds) (machine : Machine H (Bus Ram)) (cpu : Cpu) : Prop :=
  ∀ stride ∈ machine.trail grounds cpu, stride.Tame grounds

/-- A machine between two turns: each context is in its place, the words of the code are kept, and
whoever polls stands on a branch to itself. -/
structure Poised (grounds : Grounds) (registry : Nat) (watcher : Option Nat)
    (machine : Machine H (Bus Ram)) : Prop where
  poller : machine.scheduler.poller = none ∨ machine.scheduler.poller = watcher
  granted : 0 < machine.scheduler.config.cycles.toInt
  placed : ∀ cpu, (machine.contexts.get cpu).cpu = cpu
  watched : machine.world.hub.Watched registry watcher
  keeps : grounds.Keeps machine.rig
  rests : ∀ cpu, machine.world.hub.polls watcher cpu = true →
    grounds.Rests (machine.contexts.get cpu)

/-- What a turn leaves that went along its trail. -/
structure Along (grounds : Grounds) (machine : Machine H (Bus Ram)) (cpu : Cpu)
    (after : Machine H (Bus Ram)) : Prop where
  scheduler : after.scheduler = machine.scheduler.credit cpu (machine.goal grounds cpu).ran
  contexts : after.contexts = machine.contexts.set cpu (machine.goal grounds cpu)
  rig : after.rig = putAll (machine.trail grounds cpu) machine.rig

/-- What a slice leaves that went along the trails of both processors, one after the other. -/
structure Through (grounds : Grounds) (machine after : Machine H (Bus Ram)) : Prop where
  config : after.scheduler.config = machine.scheduler.config
  slices : after.scheduler.slices = machine.scheduler.slices + 1
  totals : ∀ cpu, after.scheduler.totals.get cpu =
    machine.scheduler.totals.get cpu + Cycles.credit (machine.goal grounds cpu).ran
  contexts : ∀ cpu, after.contexts.get cpu = machine.goal grounds cpu
  rig : after.rig = putAll (machine.trail grounds machine.scheduler.config.firstCpu.other)
    (putAll (machine.trail grounds machine.scheduler.config.firstCpu) machine.rig)

section Journals

/-- Passing over a turn leaves an entry. -/
theorem passes_later (terms : SliceConfig × Nat × Option Nat) :
    PassesWithin (World.Later (H := H)) terms := by
  intro scheduler world cpu cycles _ _
  exact World.Later.entry _ (Nat.le_refl _) rfl (fun _ => rfl) (fun _ _ _ => rfl)

variable {setting : Setting H} {depth : Nat} {executor : Executor H (Bus Ram)}
  {machine after : Machine H (Bus Ram)}

/-- What happened before a turn stays in the journal. -/
theorem suffix_of_turn {cpu : Cpu} {outcome : Outcome Turn}
    (ended : machine.turn setting depth executor cpu = (outcome, after)) :
    machine.world.journal <:+ after.world.journal := by
  have grown :
      machine.world.journal <:+ (machine.turn setting depth executor cpu).2.world.journal :=
    World.Later.steady.grows (Follows.turn World.Later.steady setting depth executor
      machine (passes_later _) cpu).kept
  rw [ended] at grown
  exact grown

/-- Some slices add to the journal and take nothing away, however they end. -/
theorem suffix_of_slices {count : Nat} {outcome : Outcome (Except Misplaced Unit)}
    (ended : machine.slices setting depth executor count = (outcome, after)) :
    machine.world.journal <:+ after.world.journal := by
  have grown : machine.world.journal <:+
      (machine.slices setting depth executor count).2.world.journal :=
    World.Later.steady.grows (Follows.slices World.Later.steady setting depth executor machine count
      (passes_later _)).kept
  rw [ended] at grown
  exact grown

/-- A slice adds to the journal and takes nothing away, however it ends. -/
theorem suffix_of_slice {outcome : Outcome (Except Misplaced Report)}
    (ended : machine.slice setting depth executor = (outcome, after)) :
    machine.world.journal <:+ after.world.journal := by
  have grown : machine.world.journal <:+ (machine.slice setting depth executor).2.world.journal :=
    World.Later.steady.grows (Follows.slice World.Later.steady setting depth executor
      machine (passes_later _)).kept
  rw [ended] at grown
  exact grown

end Journals

section Turns

variable (setting : Setting H) (depth : Nat) {machine : Machine H (Bus Ram)}

/-- Only the turn of a processor that polls is passed over. -/
theorem Poised.polls_of_skips (poised : Poised grounds registry watcher machine) {cpu : Cpu}
    (skips : machine.skips cpu = true) : machine.world.hub.polls watcher cpu = true := by
  simp only [Machine.skips, Scheduler.skips, Bool.and_eq_true] at skips
  rcases poised.poller with none | own
  · rw [none] at skips
    cases skips.2
  · rw [own] at skips
    exact skips.2

/-- The trail of a processor that polls keeps to the grounds, and ends where a turn that is passed
over does. -/
theorem Poised.of_polls (poised : Poised grounds registry watcher machine) {cpu : Cpu}
    (polls : machine.world.hub.polls watcher cpu = true) :
    machine.Tame grounds cpu ∧
      machine.goal grounds cpu =
        { (machine.contexts.get cpu).grant machine.scheduler.config.cycles with
          ran := machine.scheduler.config.cycles } ∧
      putAll (machine.trail grounds cpu) machine.rig = machine.rig := by
  have rests : grounds.Rests (machine.contexts.get cpu) := poised.rests cpu polls
  have only := Micro.trail_of_rests rests poised.granted
  simp only [Tame, goal, trail, only]
  refine ⟨?_, rfl, rfl⟩
  intro stride inside
  obtain rfl := List.mem_singleton.mp inside
  refine ⟨?_, nofun, rfl⟩
  intro address fetched
  rcases List.mem_cons.mp fetched with rfl | behind
  · exact rests.branch
  · exact List.mem_singleton.mp behind ▸ rests.slot

/-- The moments of a turn are sound from its beginning on, whatever was granted. -/
theorem Poised.sound (poised : Poised grounds registry watcher machine) (cpu : Cpu)
    (cycles ran : Int32) (world : World H) (hub : world.hub = machine.world.hub) :
    Micro.Sound grounds registry watcher (machine.contexts.get cpu.other)
      ({ machine.contexts.get cpu with cycles := cycles, ran := ran }, machine.rig) world := by
  constructor
  case watched => exact hub ▸ poised.watched
  case keeps => exact poised.keeps
  case partner => exact (poised.placed _).trans (congrArg Cpu.other (poised.placed cpu).symm)
  case rests =>
    intro polls
    rw [hub] at polls
    exact (poised.rests cpu (poised.placed cpu ▸ polls)).budget cycles ran
  case waits =>
    intro polls
    rw [hub, poised.placed] at polls
    exact poised.rests cpu.other polls

/-- Where a turn ends at a sound moment, the next one may begin.

Proof: the processor of the turn rests if it polls, since the last moment is sound, and so does the
other one, which has waited. -/
theorem Poised.after (poised : Poised grounds registry watcher machine) {cpu : Cpu}
    {context : Context} {rig : Bus Ram} {world closed : World H} {ran : Int32}
    (sound : Micro.Sound grounds registry watcher (machine.contexts.get cpu.other) (context, rig)
      world) (hub : closed.hub = world.hub) :
    Poised grounds registry watcher
      ⟨machine.scheduler.credit cpu ran, machine.contexts.set cpu context, rig, closed⟩ := by
  have here : context.cpu = cpu := by
    have partner : cpu.other = context.cpu.other := (poised.placed _).symm.trans sound.partner
    rw [← Cpu.other_other context.cpu, ← partner, Cpu.other_other]
  constructor
  case poller => exact poised.poller
  case granted => exact poised.granted
  case placed =>
    intro place
    rcases place.eq_or_eq_other cpu with rfl | rfl
    · rw [Pair.get_set_self, here]
    · rw [Pair.get_set_other]
      exact poised.placed _
  case watched => exact hub ▸ sound.watched
  case keeps => exact sound.keeps
  case rests =>
    intro place polls
    rw [hub] at polls
    rcases place.eq_or_eq_other cpu with rfl | rfl
    · rw [Pair.get_set_self]
      exact sound.rests (here.symm ▸ polls)
    · rw [Pair.get_set_other]
      refine sound.waits ?_
      rw [poised.placed]
      exact polls

/-- A turn whose trail keeps to the grounds comes back, and leaves what the trail says. -/
theorem Poised.turn (poised : Poised grounds registry watcher machine) {cpu : Cpu}
    (tame : machine.Tame grounds cpu) :
    ∃ turn after, machine.turn setting depth (Micro.run registry) cpu = (.done turn, after) ∧
      Poised grounds registry watcher after ∧ Along grounds machine cpu after := by
  cases skips : machine.skips cpu with
  | true =>
    obtain ⟨_, same, still⟩ := poised.of_polls (poised.polls_of_skips skips)
    refine ⟨_, _, turn_of_skips skips, poised.after (poised.sound cpu _ _ _ rfl) rfl, ?_⟩
    constructor
    case scheduler => rw [same]
    case contexts => rw [same]
    case rig => exact still.symm
  | false =>
    obtain ⟨reached, ran, sound⟩ := Micro.Sound.steps setting depth
      (poised.sound cpu machine.scheduler.config.cycles 0
        (machine.world.record (.turnBegan cpu)) rfl) tame
    obtain ⟨closed, hub, turned⟩ := turn_of_runs skips
      ((Micro.run_eq_steps setting depth registry _ _).trans ran)
    exact ⟨_, _, turned, poised.after sound hub, ⟨rfl, rfl, rfl⟩⟩

/-- If a turn comes back that was not passed over, the executor did, and what it entered into the
journal is still there. -/
theorem ran_of_turn {executor : Executor H (Bus Ram)} {cpu : Cpu} {turn : Turn}
    {after : Machine H (Bus Ram)} (runs : machine.skips cpu = false)
    (ended : machine.turn setting depth executor cpu = (.done turn, after)) :
    ∃ desk world, setting.run depth executor
        ((machine.contexts.get cpu).grant machine.scheduler.config.cycles, machine.rig)
        (machine.world.record (.turnBegan cpu)) = (.done (), desk, world) ∧
      world.journal <:+ after.world.journal := by
  have same : ¬ (machine.grant cpu).skips cpu = true := Bool.eq_false_iff.mp runs
  simp only [Machine.turn, if_neg same] at ended
  obtain ⟨_, middle, executed, rest⟩ := Outcome.andThen_eq_done_iff.mp ended
  have closed : middle.world.journal <:+ (middle.close cpu).world.journal :=
    World.Later.steady.grows (Follows.close World.Later.steady middle cpu).kept
  cases rest
  simp only [execute, grant, Pair.get_modify_self] at executed
  cases ran : setting.run depth executor
    ((machine.contexts.get cpu).grant machine.scheduler.config.cycles, machine.rig)
    (machine.world.record (.turnBegan cpu)) with
  | mk outcome left =>
  obtain ⟨desk, world⟩ := left
  rw [ran] at executed
  cases executed
  exact ⟨desk, world, rfl, closed⟩

/-- If a turn comes back, and its entries keep to the grounds, so does its trail. -/
theorem Poised.tame_of_turn (poised : Poised grounds registry watcher machine) {cpu : Cpu}
    {turn : Turn} {after : Machine H (Bus Ram)}
    (ended : machine.turn setting depth (Micro.run registry) cpu = (.done turn, after))
    (records : grounds.Records machine.world.journal after.world.journal) :
    machine.Tame grounds cpu := by
  cases skips : machine.skips cpu with
  | true => exact (poised.of_polls (poised.polls_of_skips skips)).1
  | false =>
    obtain ⟨desk, world, ran, closed⟩ := ran_of_turn setting depth skips ended
    have begun : machine.world.journal <:+ (machine.world.record (.turnBegan cpu)).journal :=
      List.suffix_cons ..
    have grown : (machine.world.record (.turnBegan cpu)).journal <:+ world.journal :=
      setting.suffix_of_run ran
    have during : grounds.Records (machine.world.record (.turnBegan cpu)).journal world.journal :=
      ((records.split (begun.trans grown) closed).1.split begun grown).2
    have begins : Micro.Sound grounds registry watcher (machine.contexts.get cpu.other)
        ((machine.contexts.get cpu).grant machine.scheduler.config.cycles, machine.rig)
        (machine.world.record (.turnBegan cpu)) := poised.sound cpu _ 0 _ rfl
    rw [Micro.run_eq_steps] at ran
    exact begins.tame_of_steps setting depth ran during

/-- The trail of a processor does not depend on the turn of the other one. -/
theorem Along.waiting {cpu : Cpu} {after : Machine H (Bus Ram)}
    (along : Along grounds machine cpu after) :
    after.trail grounds cpu.other = machine.trail grounds cpu.other ∧
      after.goal grounds cpu.other = machine.goal grounds cpu.other := by
  refine trail_congr ?_ ?_
  · rw [along.scheduler]
    rfl
  · rw [along.contexts, Pair.get_set_other]

/-- A slice whose trails keep to the grounds completes, whichever processor is first.

Proof: the first turn leaves the other processor's trail as it was, since that reads only words that
nobody stores into. So the second turn goes along its trail, too, and the slice leaves what both
trails lead to. -/
theorem Poised.slice (poised : Poised grounds registry watcher machine)
    (tame : ∀ cpu, machine.Tame grounds cpu) :
    ∃ report after, machine.slice setting depth (Micro.run registry) =
        (.done (.ok report), after) ∧
      Poised grounds registry watcher after ∧ Through grounds machine after := by
  obtain ⟨firstTurn, middle, firstRan, next, along⟩ :=
    poised.turn setting depth (tame machine.scheduler.config.firstCpu)
  obtain ⟨trail, goal⟩ := along.waiting
  have tameThen : middle.Tame grounds machine.scheduler.config.firstCpu.other := by
    rw [Tame, trail]
    exact tame _
  obtain ⟨secondTurn, last, secondRan, finish, alongToo⟩ := next.turn setting depth tameThen
  have placed : machine.misplaced? = none := (misplaced?_eq_none_iff machine).mpr poised.placed
  simp only [Machine.slice, placed, firstRan, secondRan, Outcome.andThen]
  refine ⟨_, _, rfl, ?_, ?_⟩
  · exact ⟨finish.poller, finish.granted, finish.placed, finish.watched, finish.keeps,
      finish.rests⟩
  · have scheduler :
        last.scheduler = middle.scheduler.credit machine.scheduler.config.firstCpu.other
          (Machine.goal grounds middle machine.scheduler.config.firstCpu.other).ran :=
      alongToo.scheduler
    have contexts : last.contexts = middle.contexts.set machine.scheduler.config.firstCpu.other
        (Machine.goal grounds middle machine.scheduler.config.firstCpu.other) := alongToo.contexts
    have rig : last.rig = putAll (Machine.trail grounds middle
        machine.scheduler.config.firstCpu.other) middle.rig := alongToo.rig
    rw [goal, along.scheduler] at scheduler
    rw [goal, along.contexts] at contexts
    rw [trail, along.rig] at rig
    constructor
    case config => exact (congrArg Scheduler.config scheduler).trans rfl
    case slices =>
      exact (congrArg (fun scheduler => scheduler.slices + 1) scheduler).trans rfl
    case totals =>
      intro cpu
      refine (congrArg (fun scheduler => scheduler.totals.get cpu) scheduler).trans ?_
      simp only [Scheduler.credit, Pair.modify]
      rcases cpu.eq_or_eq_other machine.scheduler.config.firstCpu with here | here
      · rw [← here, Pair.get_other_set, Pair.get_set_self]
      · rw [← here, Pair.get_set_self, here, Pair.get_set_other]
    case contexts =>
      intro cpu
      refine (congrArg (Pair.get · cpu) contexts).trans ?_
      rcases cpu.eq_or_eq_other machine.scheduler.config.firstCpu with here | here
      · rw [← here, Pair.get_other_set, Pair.get_set_self]
      · rw [← here, Pair.get_set_self]
    case rig => exact rig

/-- If a slice completes, and its entries keep to the grounds, so do its trails. -/
theorem Poised.tame_of_slice (poised : Poised grounds registry watcher machine) {report : Report}
    {after : Machine H (Bus Ram)}
    (ended : machine.slice setting depth (Micro.run registry) = (.done (.ok report), after))
    (records : grounds.Records machine.world.journal after.world.journal) (cpu : Cpu) :
    machine.Tame grounds cpu := by
  obtain ⟨_, middle, last, firstRan, secondRan, rfl⟩ := slice_ok_iff.mp ended
  change grounds.Records machine.world.journal last.world.journal at records
  obtain ⟨before, afterwards⟩ := records.split (suffix_of_turn firstRan) (suffix_of_turn secondRan)
  have first : Tame grounds machine machine.scheduler.config.firstCpu :=
    poised.tame_of_turn setting depth firstRan before
  obtain ⟨_, reached, again, next, along⟩ := poised.turn setting depth first
  rw [firstRan] at again
  cases again
  have second : Tame grounds middle machine.scheduler.config.firstCpu.other :=
    next.tame_of_turn setting depth secondRan afterwards
  rw [Tame, along.waiting.1] at second
  rcases cpu.eq_or_eq_other machine.scheduler.config.firstCpu with rfl | rfl
  · exact first
  · exact second

end Turns

/-- Two machines with reversed orders of turns that have come equally far. -/
structure Abreast (grounds : Grounds) (registry : Nat) (watcher : Option Nat)
    (left right : Machine H (Bus Ram)) : Prop where
  ready : Poised grounds registry watcher left
  readyToo : Poised grounds registry watcher right
  config : right.scheduler.config = left.scheduler.config.turned
  slices : right.scheduler.slices = left.scheduler.slices
  totals : right.scheduler.totals = left.scheduler.totals
  contexts : right.contexts = left.contexts
  rig : grounds.Separate → right.rig = left.rig

section Orders

variable (setting : Setting H) (depth : Nat) {left right : Machine H (Bus Ram)}

/-- Where no byte is written by both processors, the trails may change places. -/
theorem Poised.putAll_comm (poised : Poised grounds registry watcher left)
    (tame : ∀ cpu, left.Tame grounds cpu) (separate : grounds.Separate) (cpu : Cpu) :
    putAll (left.trail grounds cpu) (putAll (left.trail grounds cpu.other) left.rig) =
      putAll (left.trail grounds cpu.other) (putAll (left.trail grounds cpu) left.rig) := by
  have stores : ∀ place, ∀ stride ∈ left.trail grounds place, ∀ address value,
      stride.stored = some (address, value) → grounds.stores place address := by
    intro place stride inside address value stored
    have own : stride.held.cpu = place := (Micro.cpu_of_trail inside).trans (poised.placed place)
    exact own ▸ (tame place stride inside).stored address value stored
  refine Micro.putAll_putAll ?_ poised.keeps.alike
  intro stride inside other insideToo address value place written stored storedToo
  refine separate cpu.other address place (stores _ stride inside address value stored) ?_
  rw [Cpu.other_other]
  exact stores _ other insideToo place written storedToo

/-- If a slice completes on one machine, it does so on the other, and both go on abreast.

Proof: both slices go along the same trails, in different orders. What they leave is put together
from the trails, and stores that are apart can be put in either order. -/
theorem Abreast.slice (abreast : Abreast grounds registry watcher left right) {report : Report}
    {after : Machine H (Bus Ram)}
    (ended : left.slice setting depth (Micro.run registry) = (.done (.ok report), after))
    (records : grounds.Records left.world.journal after.world.journal) :
    ∃ other last, right.slice setting depth (Micro.run registry) = (.done (.ok other), last) ∧
      Abreast grounds registry watcher after last := by
  have tame : ∀ (cpu : Cpu), Tame grounds left cpu :=
    abreast.ready.tame_of_slice setting depth ended records
  have budget : right.scheduler.config.cycles = left.scheduler.config.cycles := by
    rw [abreast.config]
    rfl
  have same : ∀ cpu, right.trail grounds cpu = left.trail grounds cpu ∧
      right.goal grounds cpu = left.goal grounds cpu :=
    fun cpu => trail_congr budget (congrArg (Pair.get · cpu) abreast.contexts)
  have tameToo : ∀ cpu, right.Tame grounds cpu := by
    intro cpu
    rw [Tame, (same cpu).1]
    exact tame cpu
  obtain ⟨_, reached, again, ready, through⟩ := abreast.ready.slice setting depth tame
  rw [ended] at again
  cases again
  obtain ⟨other, last, followed, readyToo, throughToo⟩ :=
    abreast.readyToo.slice setting depth tameToo
  refine ⟨other, last, followed, ready, readyToo, ?_, ?_, ?_, ?_, ?_⟩
  · rw [throughToo.config, through.config, abreast.config]
  · rw [throughToo.slices, through.slices, abreast.slices]
  · refine Pair.ext_get fun cpu => ?_
    rw [throughToo.totals, through.totals, abreast.totals, (same cpu).2]
  · refine Pair.ext_get fun cpu => ?_
    rw [throughToo.contexts, through.contexts, (same cpu).2]
  · intro separate
    have first : right.scheduler.config.firstCpu = left.scheduler.config.firstCpu.other := by
      rw [abreast.config, SliceConfig.firstCpu_turned]
    rw [throughToo.rig, through.rig, first, Cpu.other_other, (same _).1, (same _).1,
      abreast.rig separate, abreast.ready.putAll_comm tame separate]

/-- So does a number of slices.

Proof: by induction on the number of slices. The entries are split between the first slice and the
later ones. -/
theorem Abreast.slices_done (abreast : Abreast grounds registry watcher left right) {count : Nat}
    {after : Machine H (Bus Ram)}
    (ended : left.slices setting depth (Micro.run registry) count = (.done (.ok ()), after))
    (records : grounds.Records left.world.journal after.world.journal) :
    ∃ last, right.slices setting depth (Micro.run registry) count = (.done (.ok ()), last) ∧
      Abreast grounds registry watcher after last := by
  induction count generalizing left right with
  | zero =>
    cases ended
    exact ⟨right, rfl, abreast⟩
  | succ count inductionHypothesis =>
    obtain ⟨result, middle, one, rest⟩ := Outcome.andThen_eq_done_iff.mp ended
    cases result with
    | error misplaced => cases rest
    | ok report =>
      obtain ⟨before, afterwards⟩ := records.split (suffix_of_slice one) (suffix_of_slices rest)
      obtain ⟨other, last, followed, next⟩ := abreast.slice setting depth one before
      obtain ⟨finish, ran, reached⟩ := inductionHypothesis next rest afterwards
      refine ⟨finish, ?_, reached⟩
      rw [Machine.slices, followed]
      exact ran

end Orders

/-- A scheduler at its beginning is abreast of the one with the order of turns reversed. -/
theorem Abreast.of_begun {config : SliceConfig} {scheduler : Scheduler} {built : World H}
    (begun : Scheduler.Begun config registry watcher scheduler built) {contexts : Pair Context}
    (placed : ∀ cpu, (contexts.get cpu).cpu = cpu) :
    Abreast grounds registry watcher
      (⟨scheduler, contexts, grounds.origin, built⟩ : Machine H (Bus Ram))
      ⟨.fresh config.turned registry scheduler.poller, contexts, grounds.origin, built⟩ := by
  obtain ⟨poller, rfl, own⟩ := begun.scheduler
  have ready : ∀ order : SliceConfig, order.check = .ok () →
      Poised grounds registry watcher
        (⟨.fresh order registry poller, contexts, grounds.origin, built⟩ :
          Machine H (Bus Ram)) := by
    intro order accepted
    refine ⟨own, SliceConfig.pos_of_check accepted, placed, begun.watched,
      ⟨.refl _, fun _ _ => rfl⟩, ?_⟩
    intro cpu polls
    rw [begun.polls] at polls
    cases polls
  exact ⟨ready config begun.accepted, ready config.turned begun.accepted, rfl, rfl, rfl, rfl,
    fun _ => rfl⟩

/-- The order of turns does not matter to programs that leave each other's code alone. Take any
contexts, any memory, and a scheduler that begins on a registry without listeners or with a detector
just attached. Let a number of slices of the small core complete, and let no store of this run write
a byte of an instruction word that the run fetches, be it by the same processor or by the other one.
Then the scheduler with the order of turns reversed completes as many slices from the same state,
and leaves the same contexts and the same totals. If no byte is written by both processors, it
leaves the same memory, too.

Proof: the entries of the run that completed give the grounds: the words it fetches, and the
addresses to which each processor stores. Both machines begin poised on them, and slice by slice
they stay abreast. If a context is in the wrong place, no slice completes. -/
theorem slices_of_turned (setting : Setting H) (depth : Nat) {config : SliceConfig}
    {world built : World H} {scheduler : Scheduler}
    (alone : ∀ cpu, (world.hub.roster registry cpu).entries = [])
    (begins : Scheduler.Begins config registry world watcher scheduler built)
    (contexts : Pair Context) (bus : Bus Ram) (count : Nat) {after : Machine H (Bus Ram)}
    (completed : slices setting depth (Micro.run registry) count ⟨scheduler, contexts, bus, built⟩ =
      (.done (.ok ()), after)) :
    ∃ late, after.world.journal = late ++ built.journal ∧
      ((∀ store ∈ stores late, ∀ word ∈ fetches late, bus.memory.Spares store.2 word) →
        ∃ other last, Scheduler.Begins config.turned registry world watcher other built ∧
          other.poller = scheduler.poller ∧
          slices setting depth (Micro.run registry) count ⟨other, contexts, bus, built⟩ =
            (.done (.ok ()), last) ∧
          last.contexts = after.contexts ∧
          last.scheduler.totals = after.scheduler.totals ∧
          ((∀ store ∈ stores late, ∀ rival ∈ stores late, store.1 ≠ rival.1 →
            bus.memory.Apart store.2 rival.2) → last.rig = after.rig)) := by
  have begun : Scheduler.Begun config registry watcher scheduler built := begins.begun alone
  obtain ⟨late, journal⟩ := suffix_of_slices completed
  refine ⟨late, journal.symm, ?_⟩
  intro spared
  refine ⟨.fresh config.turned registry scheduler.poller, ?_⟩
  by_cases placed : ∀ cpu, (contexts.get cpu).cpu = cpu
  · let grounds : Grounds :=
      ⟨bus, (· ∈ fetches late), fun cpu address => (cpu, address) ∈ stores late,
        fun cpu address word stored fetched => spared (cpu, address) stored word fetched⟩
    have records : grounds.Records built.journal after.world.journal := by
      refine ⟨late, journal.symm, fun entry inside => ⟨?_, ?_⟩⟩
      · exact fun address told => List.mem_filterMap.mpr ⟨entry, inside, told⟩
      · exact fun cpu address told => List.mem_filterMap.mpr ⟨entry, inside, told⟩
    have abreast : Abreast grounds registry watcher
        (⟨scheduler, contexts, bus, built⟩ : Machine H (Bus Ram)) _ := .of_begun begun placed
    obtain ⟨last, followed, ends⟩ := abreast.slices_done setting depth completed records
    refine ⟨last, begins.turned, rfl, followed, ends.contexts, ends.totals, ?_⟩
    intro apart
    exact ends.rig fun cpu address place stored storedToo =>
      apart (cpu, address) stored (cpu.other, place) storedToo (Cpu.other_ne cpu).symm
  · cases count with
    | zero =>
      cases completed
      obtain ⟨poller, rfl, _⟩ := begun.scheduler
      exact ⟨_, begins.turned, rfl, rfl, rfl, rfl, fun _ => rfl⟩
    | succ count =>
      obtain ⟨misplaced, wrong⟩ := Option.ne_none_iff_exists'.mp
        fun none => placed ((misplaced?_eq_none_iff
          (⟨scheduler, contexts, bus, built⟩ : Machine H (Bus Ram))).mp none)
      rw [(slices_of_misplaced setting depth (Micro.run registry) wrong count).1] at completed
      cases completed

/-- Short slices in which the master runs first. -/
def terse : SliceConfig := { SliceConfig.standard with cycles := 8 }

/-- A memory with a program for each processor, the master's from the address 0 on and the slave's
from the address 8 on. The master stores at the communication register, the slave sixteen bytes
behind it, and then both spin. -/
def independents : Bus Ram :=
  .plain ⟨0, #[0xe1, 0x20, 0x21, 0x12, 0xaf, 0xfe, 0x00, 0x09,
    0xe1, 0x30, 0x21, 0x12, 0xaf, 0xfe, 0x00, 0x09] ++ Array.replicate 36 0, []⟩

/-- A machine at the beginning of these programs, with a detector of its own. -/
def independentStart : Machine ⟨Unit, Unit⟩ (Bus Ram) where
  scheduler := .fresh terse 0 (some 0)
  contexts := ⟨(Context.fresh .master false).reset 0 0, (Context.fresh .slave false).reset 8 0⟩
  rig := independents
  world := (Scheduler.watching terse 0 (.initial ())).2

/-- Two slices of it. -/
def independentRun : Outcome (Except Misplaced Unit) × Machine ⟨Unit, Unit⟩ (Bus Ram) :=
  independentStart.slices .still 0 (Micro.run 0) 2

/-- With the slave first, the announcement of the master wakes it. Both orders leave the same
contexts and the same memory. -/
theorem slices_of_turned_independents :
    ∃ other, Scheduler.Begins terse.turned 0 (.initial ()) (some 0) other independentStart.world ∧
      let right := { independentStart with scheduler := other }.slices .still 0 (Micro.run 0) 2
      independentRun.1 = .done (.ok ()) ∧ right.1 = .done (.ok ()) ∧
        right.2.contexts = independentRun.2.contexts ∧
        right.2.scheduler.totals = independentRun.2.scheduler.totals ∧
        right.2.rig = independentRun.2.rig := by
  have begins : Scheduler.Begins terse 0 (.initial ()) (some 0) independentStart.scheduler
      independentStart.world := .watching rfl rfl
  have completed : independentRun = (.done (.ok ()), independentRun.2) := rfl
  obtain ⟨late, journal, turned⟩ := slices_of_turned .still 0 (fun cpu => by cases cpu <;> rfl)
    begins independentStart.contexts independents 2 completed
  have recent : late.Sublist independentRun.2.world.journal :=
    journal ▸ List.sublist_append_left ..
  have spared : ∀ store ∈ stores independentRun.2.world.journal,
      ∀ word ∈ fetches independentRun.2.world.journal,
        independents.memory.Spares store.2 word := by
    have checked : ((stores independentRun.2.world.journal).all fun store =>
        (fetches independentRun.2.world.journal).all fun word =>
          decide (independents.memory.Spares store.2 word)) = true := by decide +kernel
    intro store stored word read
    exact of_decide_eq_true
      (List.all_eq_true.mp (List.all_eq_true.mp checked store stored) word read)
  have apart : ∀ store ∈ stores independentRun.2.world.journal,
      ∀ rival ∈ stores independentRun.2.world.journal,
        store.1 ≠ rival.1 → independents.memory.Apart store.2 rival.2 := by decide +kernel
  have written : List.filterMap Entry.stored? late ⊆ List.filterMap Entry.stored?
      independentRun.2.world.journal := (recent.filterMap Entry.stored?).subset
  have fetched : List.filterMap Entry.fetched? late ⊆ List.filterMap Entry.fetched?
      independentRun.2.world.journal := (recent.filterMap Entry.fetched?).subset
  obtain ⟨other, last, reversed, _, ran, contexts, totals, rig⟩ := turned
    fun store stored word read => spared store (written stored) word (fetched read)
  refine ⟨other, reversed, ?_⟩
  intro right
  have ends : right = (.done (.ok ()), last) := ran
  rw [ends]
  exact ⟨rfl, rfl, contexts, totals, rig fun store stored rival storedToo =>
    apart store (written stored) rival (written storedToo)⟩

end Sh2Pair.Machine
