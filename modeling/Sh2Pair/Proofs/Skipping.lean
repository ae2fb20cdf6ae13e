import Sh2Pair.Proofs.Receipts
import Sh2Pair.Proofs.Slices

/-!
# When a turn is passed over

A scheduler that skips polling processors passes over a turn exactly if its detector received a
report of polling about that processor, and nothing since that ends a poll. What counts is
everything up to the moment at which this very turn starts: what happened before the slice, what
listeners did in nested calls, and what the executor of the first turn fired. A wake event of the
first turn is therefore never lost on the second.
-/

namespace Sh2Pair

variable {H : Host} {ε : Type}

/-- A detector that has been attached is a new one with a number of its own. -/
theorem World.detector_of_attach {world built : World H} {registry number : Nat}
    {config : PollConfig} (attached : world.attach registry config = (.ok number, built)) :
    number = world.hub.detectors.size ∧ number < built.hub.detectors.size ∧
      built.hub.detector number = .fresh config registry := by
  rcases world.attach_cases registry config with ⟨free, made⟩ | ⟨cpu, _, refused⟩
  · rw [made] at attached
    injection attached with fresh after
    injection fresh with fresh
    subst fresh after
    exact ⟨rfl, Table.lt_size_set .., Table.get_set_self ..⟩
  · rw [refused] at attached
    cases attached

/-- A scheduler made with a detector has the detector that was attached for it. -/
theorem Scheduler.attach_of_watching {config : SliceConfig} {registry : Nat}
    {world built : World H} {scheduler : Scheduler}
    (made : watching config registry world = (.ok scheduler, built)) :
    ∃ number, world.attach registry config.poll = (.ok number, built) ∧
      scheduler = fresh config registry (some number) := by
  simp only [watching] at made
  cases accepted : config.check with
  | error cause =>
    rw [accepted] at made
    cases made
  | ok valid =>
    rw [accepted] at made
    dsimp only at made
    cases attached : world.attach registry config.poll with
    | mk outcome after =>
    rw [attached] at made
    cases outcome with
    | error cause => cases made
    | ok number =>
      injection made with same reached
      injection same with same
      exact ⟨number, by rw [reached], same.symm⟩

/-- A scheduler made without a detector has none. -/
theorem Scheduler.eq_fresh_of_plain {config : SliceConfig} {registry : Nat}
    {scheduler : Scheduler} (made : plain config registry = .ok scheduler) :
    scheduler = fresh config registry none := by
  simp only [plain] at made
  cases accepted : config.check with
  | error cause =>
    rw [accepted] at made
    cases made
  | ok valid =>
    rw [accepted] at made
    injection made with same
    exact same.symm

/-- A turn that was passed over brings no receipt to any detector. -/
theorem World.Traces.passes (number : Nat) (terms : SliceConfig × Nat × Option Nat) :
    Machine.PassesWithin (World.Traces (H := H) number) terms := by
  intro scheduler world cpu cycles _ _
  exact aside _ rfl (fun _ => rfl) rfl

namespace Machine

/-- However a course went, the journal since a detector was attached accounts for what the
detector takes a processor to do when the next turn of that processor starts.

Proof: from when it was attached to the start of the turn, the detector has taken its receipts one
by one, and a replay of receipts that starts idle ends polling exactly if the receipts spin. -/
theorem polling_atTurn_iff (setting : Setting H) (depth : Nat) (start : Machine H ε)
    {world : World H} {registry number : Nat} {config : PollConfig}
    (attached : world.attach registry config = (.ok number, start.world))
    (moves : List (Move H ε)) (executor : Executor H ε) (cpu : Cpu) :
    let machine := play setting depth moves start
    ∃ late early,
      machine.world.journal = early ++ start.world.journal ∧
      (machine.atTurn setting depth executor cpu).world.journal =
        late ++ machine.world.journal ∧
      (((machine.atTurn setting depth executor cpu).world.hub.detector number).polling cpu = true ↔
        Spinning config.wakeEvents (receipts number cpu (late ++ early))) := by
  intro machine
  obtain ⟨_, present, fresh⟩ := World.detector_of_attach attached
  have steady : World.Steady (World.Traces number) := World.Traces.steady (H := H) number
  have played : Follows (World.Traces number) start machine :=
    Follows.play steady setting depth start moves (World.Traces.passes number _)
  have turned : Follows (World.Traces number) machine (machine.atTurn setting depth executor cpu) :=
    Follows.atTurn steady setting depth executor machine (World.Traces.passes number _) cpu
  obtain ⟨early, journal, tracked⟩ := played.kept
  obtain ⟨late, continued, followed⟩ := turned.kept
  have before : Tracked number start.world.hub machine.world.hub early := tracked present
  have after :
      Tracked number machine.world.hub (machine.atTurn setting depth executor cpu).world.hub late :=
    followed before.present
  refine ⟨late, early, journal, continued, ?_⟩
  have watched : ((machine.atTurn setting depth executor cpu).world.hub.detector
      number).watches.get cpu =
        Watch.idle.replay config (receipts number cpu (late ++ early)) := by
    rw [after.watch cpu, before.watch cpu, before.config, fresh, receipts_append,
      Watch.replay_append]
    simp only [Detector.fresh, Pair.get_both]
  rw [Detector.polling, watched]
  exact Watch.polling_replay_idle_iff config _

/-- A scheduler made with a detector passes over the turn of a processor exactly if its settings
say so and the processor spins, by what the detector received up to the start of that turn. In
particular a wake event, or a cleared poll, that the first turn of a slice brought about lets the
second processor run in that very slice, unless a report of polling came after it. A scheduler
made without a detector never passes over a turn.

Proof: whether a turn is passed over is decided when it starts, by the settings, which no step
changes, and by whether the detector takes the processor to poll, which is `polling_atTurn_iff`.
Receipts with an end behind which no report comes do not spin. A scheduler made without a detector
has nobody to ask. -/
theorem skipped_iff_spinning (setting : Setting H) (depth : Nat) (config : SliceConfig)
    (registry : Nat) (world : World H) (contexts : Pair Context) (rig : ε)
    (moves : List (Move H ε)) (executor : Executor H ε) :
    (∀ scheduler built, Scheduler.watching config registry world = (.ok scheduler, built) →
      let machine := play setting depth moves ⟨scheduler, contexts, rig, built⟩
      ∀ report after, machine.slice setting depth executor = (.done (.ok report), after) →
      ∃ number, scheduler.poller = some number ∧
        ∀ cpu, ∃ late early,
          machine.world.journal = early ++ built.journal ∧
          (machine.atTurn setting depth executor cpu).world.journal =
            late ++ machine.world.journal ∧
          ((report.get cpu).skipped = true ↔
            config.skipPolling = true ∧
              Spinning config.poll.wakeEvents (receipts number cpu (late ++ early))) ∧
          ∀ newer ended older receipt, late = newer ++ ended :: older →
            ended.receipt? number cpu = some receipt → receipt.Ends config.poll.wakeEvents →
            .heard .startPolling ∉ receipts number cpu newer →
            (report.get cpu).skipped = false) ∧
    (∀ scheduler, Scheduler.plain config registry = .ok scheduler →
      let machine := play setting depth moves ⟨scheduler, contexts, rig, world⟩
      ∀ report after, machine.slice setting depth executor = (.done (.ok report), after) →
      ∀ cpu, (report.get cpu).skipped = false) := by
  constructor
  · intro scheduler built made machine report after ran
    obtain ⟨number, attached, same⟩ := Scheduler.attach_of_watching made
    subst same
    refine ⟨number, rfl, ?_⟩
    intro cpu
    obtain ⟨late, early, journal, continued, polls⟩ :=
      polling_atTurn_iff setting depth ⟨_, contexts, rig, built⟩ attached moves
        executor cpu
    obtain ⟨finish, turned, _⟩ := turn_of_slice ran cpu
    have terms : (machine.atTurn setting depth executor cpu).scheduler.terms =
        (Scheduler.fresh config registry (some number)).terms :=
      (Follows.atTurn (World.Traces.steady number) setting depth executor machine
        (World.Traces.passes number _) cpu).terms.trans
          (Follows.play (World.Traces.steady number) setting depth _ moves
            (World.Traces.passes number _)).terms
    have decided : (report.get cpu).skipped = true ↔
        config.skipPolling = true ∧
          Spinning config.poll.wakeEvents (receipts number cpu (late ++ early)) := by
      rw [skipped_of_turn turned, skips, Scheduler.skips_eq_of_terms terms, ← polls]
      simp only [Scheduler.skips, Scheduler.fresh, Bool.and_eq_true]
      exact Iff.rfl
    refine ⟨late, early, journal, continued, decided, ?_⟩
    rintro newer ended older receipt rfl brought ends silent
    have quiet : ¬ (report.get cpu).skipped = true := by
      intro skipped
      have spinning : Spinning config.poll.wakeEvents
          (receipts number cpu (newer ++ ended :: older ++ early)) := (decided.mp skipped).2
      rw [List.append_assoc, List.cons_append, receipts_append, receipts_cons brought] at spinning
      exact not_spinning_of_ended _ ends silent spinning
    exact Bool.eq_false_iff.mpr quiet
  · intro scheduler made machine report after ran cpu
    have none : scheduler = Scheduler.fresh config registry Option.none :=
      Scheduler.eq_fresh_of_plain made
    obtain ⟨finish, turned, _⟩ := turn_of_slice ran cpu
    have terms : (machine.atTurn setting depth executor cpu).scheduler.terms =
        scheduler.terms :=
      (Follows.atTurn (World.Traces.steady 0) setting depth executor machine
        (World.Traces.passes 0 _) cpu).terms.trans
          (Follows.play (World.Traces.steady 0) setting depth _ moves
            (World.Traces.passes 0 _)).terms
    rw [skipped_of_turn turned, skips, Scheduler.skips_eq_of_terms terms, none]
    exact Bool.and_false _

/-- The slave is reported to poll, so its turn is passed over in the next slice and that of the
master is not. -/
theorem skipped_iff_spinning_after_report :
    ∃ scheduler built report after late early,
      Scheduler.watching .standard 0 (World.initial (H := ⟨Unit, Unit⟩) ()) =
        (.ok scheduler, built) ∧
      (play .still 0 [.act (.request (.fire 0 .slave .startPolling) fun _ => .ret ())]
        ⟨scheduler, SliceConfig.standard.contexts, (), built⟩).slice .still 0 (.ret ()) =
          (.done (.ok report), after) ∧
      (report.get .master).skipped = false ∧ (report.get .slave).skipped = true ∧
      Spinning SliceConfig.standard.poll.wakeEvents
        (receipts (ν := Unit) 0 .slave (late ++ early)) := by
  obtain ⟨number, same, turns⟩ := (skipped_iff_spinning .still 0 .standard 0
    (World.initial (H := ⟨Unit, Unit⟩) ()) SliceConfig.standard.contexts ()
    [.act (.request (.fire 0 .slave .startPolling) fun _ => .ret ())] (.ret ())).1 _ _ rfl _ _ rfl
  obtain ⟨late, early, _, _, decided, _⟩ := turns .slave
  obtain rfl : 0 = number := Option.some.inj same
  exact ⟨_, _, _, _, late, early, rfl, rfl, rfl, rfl, (decided.mp rfl).2⟩

end Machine

end Sh2Pair
