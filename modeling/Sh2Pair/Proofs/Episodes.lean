import Sh2Pair.Proofs.Refusals
import Sh2Pair.Proofs.Registrations

/-!
# The log of a run

A run is made of episodes, one after the other in the same world: somebody runs a program against
it, a scheduler is built with a poll detector, or a scheduler runs a slice. An episode may panic,
and the next one begins where the panic left the world. How the counts and the contexts of a
scheduler pass from one slice to the next is left open; whatever scheduler runs a slice, with
whatever contexts, is covered.

At every moment of a run that began where nothing had happened, the log tells which names are in
use and how many polls have begun and ended. When an episode is over, it tells how many turns were
passed over and which registrations were refused.
-/

namespace Sh2Pair

variable {H : Host}

namespace World

/-- No turn is passed over while a program runs. -/
def Unskipped (_ _ : Hub) (recent : List (Entry H.Note)) : Prop :=
  ∀ cpu, (log recent).countP (LogRecord.skips cpu) = 0

/-- No single step of a program enters a turn that was passed over. -/
theorem Unskipped.stepwise : Stepwise (Unskipped (H := H)) where
  append := by
    intro _ _ _ early late first second cpu
    rw [log_append, List.countP_append, first cpu, second cpu]
  nothing _ _ := rfl
  plain _ entry plain cpu := by
    cases entry with
    | remark content => cases content <;> rfl
    | _ => first | rfl | cases plain
  enlist _ _ _ _ _ _ _ := rfl
  enlistBoth _ _ _ _ _ _ := rfl
  strike _ _ _ _ _ _ := rfl
  furnish _ _ _ _ := rfl
  clear _ _ _ _ := rfl
  openRegistry _ _ := rfl
  retire _ _ _ := rfl
  ignore _ _ _ _ _ _ := rfl
  start _ _ _ _ _ _ := rfl
  wake _ _ _ _ _ _ := rfl

/-- The log of a later world tells of some more refusals, and of the turns among some more that were
passed over. -/
structure Tells (before after : World H) (refusals : List Duplicate)
    (turns : List (Cpu × Turn)) : Prop where
  refused : Refuses before after refusals
  skipped : ∀ cpu, (log after.journal).countP (LogRecord.skips cpu) =
    (log before.journal).countP (LogRecord.skips cpu) +
      turns.countP fun turn => turn.1 = cpu && turn.2.skipped

namespace Tells

/-- Where nothing happened, there is nothing to tell. -/
theorem refl (world : World H) : Tells world world [] [] := ⟨.refl world, fun _ => rfl⟩

/-- What was told of in two stretches, one after the other, is told of both together. -/
theorem trans {start middle finish : World H} {refusals others : List Duplicate}
    {turns later : List (Cpu × Turn)} (first : Tells start middle refusals turns)
    (second : Tells middle finish others later) :
    Tells start finish (refusals ++ others) (turns ++ later) := by
  refine ⟨.trans first.refused second.refused, fun cpu => ?_⟩
  rw [second.skipped, first.skipped, List.countP_append, Nat.add_assoc]

/-- One entry, with what its record tells of. -/
theorem of_entry {before after : World H} {refusals : List Duplicate} {turns : List (Cpu × Turn)}
    (entry : Entry H.Note) (journal : after.journal = entry :: before.journal)
    (refused : Sh2Pair.refused (log [entry]) = refusals)
    (skipped : ∀ cpu, (log [entry]).countP (LogRecord.skips cpu) =
      turns.countP fun turn => turn.1 = cpu && turn.2.skipped) :
    Tells before after refusals turns := by
  refine ⟨.of_entry entry journal refused, fun cpu => ?_⟩
  have split : log (entry :: before.journal) = log before.journal ++ log [entry] :=
    log_append [entry] before.journal
  rw [journal, split, List.countP_append, skipped]

/-- One more entry that tells of nothing of the kind. -/
theorem quiet {before after : World H} {refusals : List Duplicate} {turns : List (Cpu × Turn)}
    (told : Tells before after refusals turns) (entry : Entry H.Note)
    (mute : Sh2Pair.refused (log [entry]) = [])
    (unskipped : ∀ cpu, (log [entry]).countP (LogRecord.skips cpu) = 0) :
    Tells before (after.record entry) refusals turns := by
  have noted : Tells after (after.record entry) [] [] := of_entry entry rfl mute unskipped
  exact List.append_nil refusals ▸ List.append_nil turns ▸ trans told noted

/-- A program tells of its refusals, and passes over no turn. -/
theorem run (setting : Setting H) (depth : Nat) {σ α : Type} (program : Program H σ α) (state : σ)
    (world : World H) :
    Tells world (setting.run depth program state world).2.2
      (setting.refusals depth program state world) [] := by
  refine ⟨refuses_run setting depth program state world, fun cpu => ?_⟩
  obtain ⟨recent, journal, unskipped⟩ :=
    Unskipped.stepwise.steady.run setting depth program state world
  rw [journal, log_append, List.countP_append, unskipped cpu]
  rfl

end Tells

end World

namespace Machine

variable {ε : Type} (setting : Setting H) (depth : Nat) (executor : Executor H ε)

/-- The turn of a processor, if it came back. -/
def returned (cpu : Cpu) : Outcome Turn → List (Cpu × Turn)
  | .done turn => [(cpu, turn)]
  | _ => []

/-- The turns of a slice that came back, in order. The first one may be among them where the second
one panics. -/
def sliceTurns (machine : Machine H ε) : List (Cpu × Turn) :=
  match machine.misplaced? with
  | some _ => []
  | none =>
    let first := machine.scheduler.config.firstCpu
    let ended := machine.turn setting depth executor first
    let rest :=
      match ended with
      | (.done _, middle) => returned first.other (middle.turn setting depth executor first.other).1
      | _ => []
    returned first ended.1 ++ rest

/-- The refusals in a turn. There are none if it is passed over. -/
def turnRefusals (machine : Machine H ε) (cpu : Cpu) : List Duplicate :=
  let machine := machine.grant cpu
  if machine.skips cpu then []
  else setting.refusals depth executor (machine.contexts.get cpu, machine.rig)
    (machine.world.record (.turnBegan cpu))

/-- The refusals in a slice. -/
def sliceRefusals (machine : Machine H ε) : List Duplicate :=
  match machine.misplaced? with
  | some _ => []
  | none =>
    let first := machine.scheduler.config.firstCpu
    let rest :=
      match machine.turn setting depth executor first with
      | (.done _, middle) => middle.turnRefusals setting depth executor first.other
      | _ => []
    machine.turnRefusals setting depth executor first ++ rest

/-- The end of a turn has no record but that of a turn that made no progress. -/
theorem tells_close {start : World H} {machine : Machine H ε} {refusals : List Duplicate}
    (cpu : Cpu) (told : World.Tells start machine.world refusals []) :
    World.Tells start (machine.close cpu).world refusals [] := by
  have ended : start.Tells (machine.world.record (.turnEnded cpu (machine.contexts.get cpu).ran))
      refusals [] := told.quiet (.turnEnded cpu (machine.contexts.get cpu).ran) rfl fun _ => rfl
  simp only [close]
  split
  · exact ended.quiet (.stalled cpu (machine.contexts.get cpu).pc) rfl fun _ => rfl
  · exact ended

/-- A turn tells of its refusals, or of having been passed over.

Proof: a turn is passed over, and then it enters exactly that, or it runs its executor, which tells
of its refusals, and is closed, which tells of nothing. -/
theorem tells_turn (machine : Machine H ε) (cpu : Cpu) :
    World.Tells machine.world (machine.turn setting depth executor cpu).2.world
      (machine.turnRefusals setting depth executor cpu)
      (returned cpu (machine.turn setting depth executor cpu).1) := by
  simp only [turn, turnRefusals]
  by_cases skips : (machine.grant cpu).skips cpu = true
  · rw [if_pos skips, if_pos skips]
    refine .of_entry (.skipped cpu _) rfl rfl fun place => ?_
    simp [log, Entry.record?, LogRecord.skips, returned, pass, settle]
  · rw [if_neg skips, if_neg skips]
    have begun : World.Tells machine.world (machine.world.record (.turnBegan cpu)) [] [] :=
      .of_entry _ rfl rfl fun _ => rfl
    have executed : World.Tells machine.world
        ((machine.grant cpu).execute setting depth executor cpu).2.world
        (setting.refusals depth executor ((machine.grant cpu).contexts.get cpu, machine.rig)
          (machine.world.record (.turnBegan cpu))) [] :=
      .trans begun (.run setting depth executor _ _)
    generalize (machine.grant cpu).execute setting depth executor cpu = result at executed ⊢
    obtain ⟨outcome, after⟩ := result
    cases outcome with
    | done value =>
      have closed : machine.world.Tells (after.close cpu).world
          (setting.refusals depth executor ((machine.grant cpu).contexts.get cpu, machine.rig)
            (machine.world.record (.turnBegan cpu))) [] := tells_close cpu executed
      refine ⟨closed.refused, fun place => (closed.skipped place).trans ?_⟩
      simp [Outcome.andThen, settle, returned]
    | panicked cause => exact executed
    | exhausted => exact executed

/-- A slice tells of its refusals, and of those of its turns that were passed over.

Proof: what the slice tells of is what its first turn tells of, followed by what the second one does
if the first one completed. -/
theorem tells_slice (machine : Machine H ε) :
    World.Tells machine.world (machine.slice setting depth executor).2.world
      (machine.sliceRefusals setting depth executor)
      (machine.sliceTurns setting depth executor) := by
  simp only [slice, sliceRefusals, sliceTurns]
  cases machine.misplaced? with
  | some misplaced => exact .refl machine.world
  | none =>
    have first : machine.world.Tells
        (machine.turn setting depth executor machine.scheduler.config.firstCpu).2.world
        (machine.turnRefusals setting depth executor machine.scheduler.config.firstCpu)
        (returned machine.scheduler.config.firstCpu
          (machine.turn setting depth executor machine.scheduler.config.firstCpu).1) :=
      machine.tells_turn setting depth executor machine.scheduler.config.firstCpu
    dsimp only
    generalize machine.turn setting depth executor machine.scheduler.config.firstCpu = result
      at first ⊢
    obtain ⟨outcome, middle⟩ := result
    cases outcome with
    | panicked cause =>
      simp only [List.append_nil]
      exact first
    | exhausted =>
      simp only [List.append_nil]
      exact first
    | done firstTurn =>
      have second := World.Tells.trans first
        (middle.tells_turn setting depth executor machine.scheduler.config.firstCpu.other)
      dsimp only [Outcome.andThen] at second ⊢
      generalize middle.turn setting depth executor machine.scheduler.config.firstCpu.other =
        result at second ⊢
      obtain ⟨outcome, last⟩ := result
      cases outcome with
      | panicked cause => exact second
      | exhausted => exact second
      | done secondTurn => exact second

end Machine

/-- One thing that happens in a world, from its beginning to its end. -/
inductive Episode (H : Host) : Type 1 where
  /-- A program is run. -/
  | act (program : Program H Unit Unit)
  /-- A scheduler is built with a poll detector. -/
  | build (config : SliceConfig) (registry : Nat)
  /-- A scheduler runs a slice with an executor, on contexts and a rig. -/
  | slice {ε : Type} (scheduler : Scheduler) (contexts : Pair Context) (rig : ε)
    (executor : Executor H ε)

namespace Episode

variable (setting : Setting H) (depth : Nat)

/-- The world when an episode is over, however it ended. -/
def finish (world : World H) : Episode H → World H
  | .act program => (setting.run depth program () world).2.2
  | .build config registry => (Scheduler.watching config registry world).2
  | .slice scheduler contexts rig executor =>
    (Machine.slice setting depth executor ⟨scheduler, contexts, rig, world⟩).2.world

/-- The moments of an episode. -/
def moments (world : World H) : Episode H → List (World H)
  | .act program => setting.moments depth program () world
  | .build _ _ => []
  | .slice scheduler contexts rig executor =>
    Machine.sliceMoments setting depth executor ⟨scheduler, contexts, rig, world⟩

/-- The turns of an episode that came back. -/
def turns (world : World H) : Episode H → List (Cpu × Turn)
  | .slice scheduler contexts rig executor =>
    Machine.sliceTurns setting depth executor ⟨scheduler, contexts, rig, world⟩
  | _ => []

/-- The refusals in an episode. -/
def refusals (world : World H) : Episode H → List Duplicate
  | .act program => setting.refusals depth program () world
  | .build config registry =>
    match (Scheduler.watching config registry world).1 with
    | .error (.poller duplicate) => [duplicate]
    | _ => []
  | .slice scheduler contexts rig executor =>
    Machine.sliceRefusals setting depth executor ⟨scheduler, contexts, rig, world⟩

/-- The world after a run of episodes. -/
def live : List (Episode H) → World H → World H
  | [], world => world
  | next :: later, world => live later (next.finish setting depth world)

/-- What the episodes of a run come to, one after the other. -/
def gather {β : Type} (share : World H → Episode H → List β) :
    List (Episode H) → World H → List β
  | [], _ => []
  | next :: later, world => share world next ++ gather share later (next.finish setting depth world)

/-- The moments of a run of episodes: those of each of them, and the end. -/
def runMoments (episodes : List (Episode H)) (world : World H) : List (World H) :=
  gather setting depth (moments setting depth) episodes world ++ [live setting depth episodes world]

section Steps

variable {keeps : World H → World H → Prop} (steady : World.Steady keeps)
  (passes : ∀ terms, Machine.PassesWithin keeps terms)

include steady passes

/-- An episode keeps, from its beginning to its end, whatever programs and scheduling keep. -/
theorem keeps_finish (world : World H) (episode : Episode H) :
    keeps world (episode.finish setting depth world) := by
  cases episode with
  | act program => exact steady.run setting depth program () world
  | build config registry =>
    simp only [finish, Scheduler.watching]
    cases config.check with
    | error cause => exact steady.refl world
    | ok valid =>
      have attached : keeps world (world.attach registry config.poll).2 :=
        steady.attach world registry config.poll
      dsimp only
      generalize world.attach registry config.poll = result at attached ⊢
      obtain ⟨outcome, after⟩ := result
      cases outcome <;> exact attached
  | slice scheduler contexts rig executor =>
    exact (Machine.Follows.slice steady setting depth executor ⟨scheduler, contexts, rig, world⟩
      (passes _)).kept

/-- An episode keeps this at every moment. -/
theorem keeps_moments (world : World H) (episode : Episode H) :
    ∀ moment ∈ episode.moments setting depth world, keeps world moment := by
  cases episode with
  | act program => exact steady.moments setting depth program () world
  | build config registry => exact fun _ inside => absurd inside List.not_mem_nil
  | slice scheduler contexts rig executor =>
    exact Machine.Follows.sliceMoments steady setting depth executor
      ⟨scheduler, contexts, rig, world⟩ (passes _)

/-- What is steady holds up to each moment of a run. -/
theorem keeps_runMoments (episodes : List (Episode H)) (world : World H) :
    ∀ moment ∈ runMoments setting depth episodes world, keeps world moment := by
  induction episodes generalizing world with
  | nil =>
    intro moment inside
    exact List.mem_singleton.mp inside ▸ steady.refl world
  | cons next later inductionHypothesis =>
    intro moment inside
    rw [runMoments, gather, List.append_assoc] at inside
    rcases List.mem_append.mp inside with now | afterwards
    · exact keeps_moments setting depth steady passes world next moment now
    · exact steady.trans (keeps_finish setting depth steady passes world next)
        (inductionHypothesis _ moment afterwards)

end Steps

/-- An episode tells of its refusals, and of those of its turns that were passed over. -/
theorem tells_finish (world : World H) (episode : Episode H) :
    World.Tells world (episode.finish setting depth world) (episode.refusals setting depth world)
      (episode.turns setting depth world) := by
  cases episode with
  | act program => exact .run setting depth program () world
  | build config registry =>
    simp only [finish, refusals, turns, Scheduler.watching]
    cases config.check with
    | error cause => exact .refl world
    | ok valid =>
      rcases world.attach_cases registry config.poll with ⟨free, made⟩ | ⟨cpu, _, refused⟩
      · rw [made]
        exact .of_entry _ rfl rfl fun _ => rfl
      · rw [refused]
        exact .of_entry _ rfl rfl fun _ => rfl
  | slice scheduler contexts rig executor =>
    exact Machine.tells_slice setting depth executor ⟨scheduler, contexts, rig, world⟩

/-- A run tells of all its refusals and of all its turns. -/
theorem tells_live (episodes : List (Episode H)) (world : World H) :
    World.Tells world (live setting depth episodes world)
      (gather setting depth (refusals setting depth) episodes world)
      (gather setting depth (turns setting depth) episodes world) := by
  induction episodes generalizing world with
  | nil => exact .refl world
  | cons next later inductionHypothesis =>
    exact .trans (next.tells_finish setting depth world) (inductionHypothesis _)

end Episode

/-- What the log tells at a moment of a run. -/
structure World.FollowsLog (moment : World H) : Prop where
  lines : moment.journal.reverse.filterMap Entry.line? = (log moment.journal).map LogRecord.line
  /-- As long as nothing is registered or removed in another registry, the names in use can be
  followed from the beginning: each registration finds its name free, and each removal in use. -/
  replays : ∀ registry, (∀ entry ∈ moment.journal, entry.keepsTo registry = true) →
    ∃ names, replay? (.both ∅) (log moment.journal) = some names ∧
      ∀ cpu name, name ∈ names.get cpu ↔ (moment.hub.roster registry cpu).has name = true
  started : ∀ cpu, (log moment.journal).countP (LogRecord.starts cpu) =
    moment.hub.tally Watch.started cpu
  ended : ∀ cpu, (log moment.journal).countP (LogRecord.ends cpu) =
    moment.hub.tally Watch.wakeups cpu
  /-- As long as nobody clears a poll of a detector that goes on, the polls that its records tell
  of begin and end by turns, and the first thing they do is to begin. -/
  alternates : ∀ number cpu, (∀ entry ∈ moment.journal, entry.interrupts number cpu = false) →
    (false :: pollMarks number cpu moment.journal).IsChain (· ≠ ·)

namespace Episode

/-- At first, no names are in use. -/
theorem names_initial (host : H.State) (registry : Nat) :
    (World.initial host).hub.names registry = .both ∅ := by
  refine Pair.ext_get fun cpu => Finset.ext fun name => ?_
  rw [Hub.mem_names_iff_has, World.roster_initial, Pair.get_both]
  simp [Roster.has, Roster.empty]

/-- At first, nothing has been counted. -/
theorem tally_initial (host : H.State) (count : Watch → Nat) (cpu : Cpu) :
    (World.initial host).hub.tally count cpu = 0 := rfl

/-- What entries tell about the hub, the whole journal tells if nothing had happened before. -/
theorem tells_journal {tells : Hub → Hub → List (Entry H.Note) → Prop}
    (stepwise : World.Stepwise tells)
    (skipped : ∀ hub cpu cycles, tells hub hub [.skipped cpu cycles]) (setting : Setting H)
    (depth : Nat) (host : H.State) (episodes : List (Episode H)) :
    ∀ moment ∈ runMoments setting depth episodes (.initial host),
      tells (World.initial host).hub moment.hub moment.journal := by
  intro moment inside
  obtain ⟨recent, journal, told⟩ := keeps_runMoments setting depth stepwise.steady
    (World.Since.passes skipped) episodes (.initial host) moment inside
  rwa [journal.trans (List.append_nil recent)]

/-- Every moment of a run follows its log.

Proof: the lines tell of the journal entry by entry. The other parts hold of the first world, and
each step of a world keeps them, so they hold at every moment. -/
theorem followsLog (setting : Setting H) (depth : Nat) (host : H.State)
    (episodes : List (Episode H)) :
    ∀ moment ∈ runMoments setting depth episodes (.initial host), moment.FollowsLog := by
  intro moment inside
  have counts : World.Counts (World.initial host).hub moment.hub moment.journal :=
    tells_journal World.Counts.stepwise
      (fun _ _ _ => .silent (fun _ => ⟨rfl, rfl⟩) fun _ => ⟨rfl, rfl⟩) setting depth host episodes
      moment inside
  constructor
  case lines => exact lines_eq moment.journal
  case replays =>
    intro registry keeps
    have replays : replay? ((World.initial host).hub.names registry) (log moment.journal) =
        some (moment.hub.names registry) :=
      tells_journal World.Replays.stepwise
        (fun _ _ _ => .silent (fun _ => rfl) fun _ _ _ => rfl) setting depth host episodes moment
        inside registry keeps
    rw [names_initial] at replays
    exact ⟨_, replays, moment.hub.mem_names_iff_has registry⟩
  case started =>
    intro cpu
    rw [(counts cpu).1, tally_initial, Nat.zero_add]
  case ended =>
    intro cpu
    rw [(counts cpu).2, tally_initial, Nat.zero_add]
  case alternates =>
    intro number cpu calm
    have toggles : World.Toggles (((World.initial host).hub.detector number).polling cpu)
        (pollMarks number cpu moment.journal) ((moment.hub.detector number).polling cpu) :=
      tells_journal (World.Alternates.stepwise number)
        (fun _ _ _ => .silent (fun _ => rfl) fun _ => rfl) setting depth host episodes moment inside
        cpu calm
    have idle : ((World.initial host).hub.detector number).polling cpu = false := by
      cases cpu <;> rfl
    rw [idle] at toggles
    exact toggles.isChain

/-- The log of a run that began where nothing had happened is faithful, whatever programs, executors
and listeners did in nested calls, and whatever panicked. At every moment, it tells the names in use
and the polls begun and ended over all detectors. When the run is over, it has told of as many
skipped turns as there were, and of the refused registrations one by one, in order.

Proof: the moments are those of `followsLog`. The refusals and the skipped turns are what the single
episodes tell of, one after the other. -/
theorem log_faithful (setting : Setting H) (depth : Nat) (host : H.State)
    (episodes : List (Episode H)) :
    (∀ moment ∈ runMoments setting depth episodes (.initial host), moment.FollowsLog) ∧
      let last := live setting depth episodes (.initial host)
      (∀ cpu, (log last.journal).countP (LogRecord.skips cpu) =
        (gather setting depth (turns setting depth) episodes (.initial host)).countP
          fun turn => turn.1 = cpu && turn.2.skipped) ∧
        refused (log last.journal) =
          gather setting depth (refusals setting depth) episodes (.initial host) := by
  have told : (World.initial host).Tells (live setting depth episodes (World.initial host))
      (gather setting depth (refusals setting depth) episodes (World.initial host))
      (gather setting depth (turns setting depth) episodes (World.initial host)) :=
    tells_live setting depth episodes (.initial host)
  refine ⟨followsLog setting depth host episodes, fun cpu => ?_, ?_⟩
  · rw [told.skipped cpu]
    exact Nat.zero_add _
  · exact told.refused

/-- A guard of the master that asks for a name of the slave whenever it is called. -/
def guarded : Setting ⟨Unit, Unit⟩ where
  behave _ _ _ := .request (.register 0 .slave "late" (.hosted 1)) fun _ => .ret ()
  arrange _ listeners := listeners
  arrange_perm _ _ := .refl _

/-- The settings of a detector that wakes once, on `comm`. -/
def wakingOnce : SliceConfig := { SliceConfig.standard with poll := ⟨true, [.comm]⟩ }

/-- The guard is registered, and a scheduler is built. The master is reported to poll, which calls
the guard; its turn is passed over; and it wakes, which calls the guard once more, while the
detector leaves. -/
def watch : List (Episode ⟨Unit, Unit⟩) :=
  let fire (event : Event) : Episode ⟨Unit, Unit⟩ :=
    .act (.request (.fire 0 .master event) fun _ => .ret ())
  [.act (.request (.register 0 .master "guard" (.hosted 0)) fun _ => .ret ()),
    .build wakingOnce 0,
    fire .startPolling,
    .slice (.fresh wakingOnce 0 (some 0)) wakingOnce.contexts () (.ret ()),
    fire .comm]

/-- The guard is refused once, one turn is passed over, and one poll begins and ends. From the log
it can be told that the detector has left the master, and that the name stands for the slave. -/
theorem log_faithful_of_guard :
    let last := live guarded 1 watch (.initial ())
    refused (log last.journal) = [⟨.slave, "late"⟩] ∧
      (log last.journal).countP (LogRecord.skips .master) = 1 ∧
      (log last.journal).countP (LogRecord.ends .master) = 1 ∧
      (∀ entry ∈ last.journal, entry.keepsTo 0 = true) ∧
      (∃ names, replay? (.both ∅) (log last.journal) = some names ∧
        "poller" ∉ names.get .master ∧ "late" ∈ names.get .slave) ∧
      (∀ entry ∈ last.journal, entry.interrupts 0 .master = false) ∧
      pollMarks 0 .master last.journal = [true, false] ∧
      (false :: pollMarks 0 .master last.journal).IsChain (· ≠ ·) := by
  intro last
  obtain ⟨follows, skipped, refused⟩ := log_faithful guarded 1 () watch
  have follows : last.FollowsLog :=
    follows last (List.mem_append_right _ (List.mem_singleton_self _))
  have keeps : ∀ entry ∈ last.journal, entry.keepsTo 0 = true :=
    List.all_eq_true.mp (by decide +kernel)
  have calm : ∀ entry ∈ last.journal, entry.interrupts 0 .master = false := by
    have uncleared : last.journal.any (Entry.interrupts 0 .master) = false := by decide +kernel
    exact fun entry inside => eq_false_of_ne_true (List.any_eq_false.mp uncleared entry inside)
  obtain ⟨names, replayed, used⟩ := follows.replays 0 keeps
  refine ⟨refused.trans (by decide +kernel), (skipped .master).trans (by decide +kernel),
    (follows.ended .master).trans (by decide +kernel), keeps,
    ⟨names, replayed, ?_, (used .slave "late").mpr (by decide +kernel)⟩, calm, by decide +kernel,
    follows.alternates 0 .master calm⟩
  rw [used]
  decide +kernel

end Episode

end Sh2Pair
