import Sh2Pair.Proofs.History
import Sh2Pair.Proofs.Moments
import Sh2Pair.Proofs.OneShot

/-!
# Whom a detector unregisters

A detector that is to wake only once leaves its registry by name: when it wakes, it removes whoever
stands under the name of detectors for the processor that woke. That is the detector itself unless
it was removed before and somebody else was registered under the name since. It may then still hear
of events, under another name, from a fire that began earlier, or without a fire, and when it wakes
it removes the other one. This module tells exactly when that happens.
-/

namespace Sh2Pair

variable {H : Host}

/-- Somebody else was registered under the name of detectors, for a processor of a registry, and
nobody has left the name since. -/
def Usurped {ν : Type} (number home : Nat) (cpu : Cpu) (recent : List (Entry ν)) : Prop :=
  ∃ listener, latest? home cpu Detector.name recent = some (some listener) ∧
    listener ≠ .detector number

/-- Telling a detector about an event takes no registration away but its own. -/
def World.SparesOthers (world : World H) (number : Nat) (cpu : Cpu) (event : Event) : Prop :=
  ∀ registry place name listener, world.hub.lookup registry place name = some listener →
    (world.signal number cpu event).hub.lookup registry place name ≠ some listener →
      listener = .detector number

/-- Whether a detector spares others is decided by who stands under the name of detectors when it
wakes and is to leave. -/
theorem World.sparesOthers_iff (world : World H) (number : Nat) (cpu : Cpu) (event : Event) :
    world.SparesOthers number cpu event ↔
      ((world.hub.detector number).reaction cpu event = .woken ∧
        (world.hub.detector number).config.oneShot = true →
          ∀ listener, world.hub.lookup (world.hub.detector number).home cpu Detector.name =
            some listener → listener = .detector number) := by
  constructor
  · intro spares leaves listener found
    refine spares _ _ _ listener found ?_
    rw [lookup_signal, if_pos ⟨leaves, rfl, rfl, rfl⟩]
    rintro ⟨⟩
  · intro own registry place name listener found gone
    rw [lookup_signal] at gone
    split at gone
    · rename_i here
      obtain ⟨leaves, rfl, rfl, rfl⟩ := here
      exact own leaves listener found
    · exact absurd found gone

namespace World

/-- A detector that has just been attached stands under the name of detectors for both
processors. -/
theorem lookup_of_attach {world built : World H} {home number : Nat} {config : PollConfig}
    (attached : world.attach home config = (.ok number, built)) (cpu : Cpu) :
    built.hub.lookup home cpu Detector.name = some (.detector number) := by
  rcases world.attach_cases home config with ⟨free, added⟩ | ⟨_, _, refused⟩
  · rw [added] at attached
    injection attached with fresh after
    injection fresh with fresh
    subst fresh after
    exact (world.lookup_enlistedBoth free home cpu Detector.name).trans (if_pos ⟨rfl, rfl⟩)
  · rw [refused] at attached
    cases attached

/-- A detector is usurped exactly if somebody else stands under the name of detectors. -/
theorem Accounts.usurped_iff {start moment : World H} {recent : List (Entry H.Note)}
    (accounts : Accounts start moment recent) {number home : Nat} {cpu : Cpu}
    (stood : start.hub.lookup home cpu Detector.name = some (.detector number)) :
    Usurped number home cpu recent ↔
      ∃ listener, moment.hub.lookup home cpu Detector.name = some listener ∧
        listener ≠ .detector number := by
  have view : moment.hub.lookup home cpu Detector.name =
      (latest? home cpu Detector.name recent).getD (start.hub.lookup home cpu Detector.name) :=
    accounts.view home cpu Detector.name
  rw [stood] at view
  constructor
  · rintro ⟨listener, latest, other⟩
    rw [latest] at view
    exact ⟨listener, view, other⟩
  · rintro ⟨listener, found, other⟩
    rw [found] at view
    refine ⟨listener, ?_, other⟩
    cases latest : latest? home cpu Detector.name recent with
    | none =>
      rw [latest] at view
      injection view with same
      exact absurd same other
    | some said =>
      rw [latest] at view
      exact congrArg some view.symm

end World

namespace Machine

variable {ε : Type}

/-- Take a detector that is to wake once, and any moment of any course since it was attached. Being
told about an event then, by a fire or without one, it removes nothing unless it wakes, and then
at most what stands under the name of detectors for that processor in its registry. This is itself
exactly as long as it is not usurped, and it cannot be usurped before it has been removed.

Proof: the journal since the detector was attached accounts for what stands under its name, and for
what the detector itself keeps, of which its settings and its home never change. Being told removes
at most that one entry; it is somebody else's exactly if the last entry about the name says so.
While no entry about the name is a removal, no later one can be a registration, so nobody can have
usurped it. -/
theorem sparesOthers_iff_not_usurped (setting : Setting H) (depth : Nat) {before : World H}
    {start : Machine H ε} {home number : Nat} {config : PollConfig}
    (attached : before.attach home config = (.ok number, start.world))
    (once : config.oneShot = true) (moves : List (Move H ε)) :
    ∀ moment ∈ start.moments setting depth moves,
      ∃ recent, moment.journal = recent ++ start.world.journal ∧
        ∀ cpu,
          (∀ (entry : Entry H.Note) event,
            (∀ registry place name,
              ((moment.record entry).signal number cpu event).hub.lookup registry place name =
                if (moment.hub.detector number).reaction cpu event = .woken ∧
                  registry = home ∧ place = cpu ∧ name = Detector.name
                then none else moment.hub.lookup registry place name) ∧
            ((moment.record entry).SparesOthers number cpu event ↔
              ¬ ((moment.hub.detector number).reaction cpu event = .woken ∧
                Usurped number home cpu recent))) ∧
          ((∀ entry ∈ recent, entry.tells? home cpu Detector.name ≠ some none) →
            ¬ Usurped number home cpu recent) := by
  intro moment inside
  have recounts : start.world.Recounts moment :=
    Follows.moments World.Recounts.steady setting depth start moves
      (World.Recounts.passes _) moment inside
  have traced : World.Traces number start.world moment :=
    Follows.moments (World.Traces.steady number) setting depth start moves
      (World.Traces.passes number _) moment inside
  obtain ⟨_, present, made⟩ := World.detector_of_attach attached
  obtain ⟨recent, accounts, ordered⟩ := recounts
  obtain ⟨entries, _, tracked⟩ := traced
  have kept : Tracked number start.world.hub moment.hub entries := tracked present
  have leaves : (moment.hub.detector number).config.oneShot = true := by
    rw [kept.config, made]
    exact once
  have lives : (moment.hub.detector number).home = home := by
    rw [kept.home, made]
    rfl
  refine ⟨recent, accounts.journal, fun cpu => ⟨fun entry event => ⟨?_, ?_⟩, ?_⟩⟩
  · intro registry place name
    rw [World.lookup_signal]
    simp only [World.hub_record, leaves, lives, and_true]
  · rw [World.sparesOthers_iff, accounts.usurped_iff (World.lookup_of_attach attached cpu)]
    simp only [World.hub_record, leaves, lives, and_true]
    constructor
    · rintro own ⟨wakes, listener, found, other⟩
      exact other (own wakes listener found)
    · intro spared wakes listener found
      by_contra other
      exact spared ⟨wakes, listener, found, other⟩
  · rintro stays ⟨listener, latest, _⟩
    have orderly :
        Orderly home cpu Detector.name (start.world.hub.lookup home cpu Detector.name) recent :=
      ordered home cpu Detector.name
    rw [World.lookup_of_attach attached cpu] at orderly
    rw [latest?_eq_none_of_orderly orderly stays] at latest
    cases latest

/-- A detector that polls and has never been removed removes itself when it wakes, and nobody
else. -/
theorem sparesOthers_after_report :
    (World.initial (H := ⟨Unit, Unit⟩) ()).attach 0 ⟨true, [.comm]⟩ =
        (.ok 0, (equipped (.initial ())).world) ∧
      let moment := (play .still 1 [fireMaster .startPolling] (equipped (.initial ()))).world
      moment ∈ (equipped (.initial ())).moments .still 1 [fireMaster .startPolling] ∧
        moment.hub.lookup 0 .master Detector.name = some (.detector 0) ∧
        (moment.signal 0 .master .comm).hub.lookup 0 .master Detector.name = none ∧
        (moment.signal 0 .master .comm).hub.lookup 0 .slave Detector.name = some (.detector 0) ∧
        moment.SparesOthers 0 .master .comm := by
  refine ⟨rfl, ?_⟩
  intro moment
  have attached : (World.initial (H := ⟨Unit, Unit⟩) ()).attach 0 ⟨true, [.comm]⟩ =
      (.ok 0, (equipped (.initial ())).world) := rfl
  have inside : moment ∈ (equipped (.initial ())).moments .still 1 [fireMaster .startPolling] :=
    List.mem_of_getElem? (show _[3]? = some moment from rfl)
  obtain ⟨recent, journal, decided⟩ := sparesOthers_iff_not_usurped .still 1 attached rfl
    [fireMaster .startPolling] moment inside
  obtain rfl : moment.journal.take 4 = recent := List.append_cancel_right journal
  obtain ⟨told, stands⟩ := decided .master
  refine ⟨inside, rfl, rfl, rfl, ?_⟩
  refine (told (.notified (.detector 0) .master .comm) .comm).2.mpr ?_
  rintro ⟨_, usurped⟩
  exact stands (by decide) usurped

/-- The surroundings remove the first detector and attach a second one to its registry. -/
def usurp : Move ⟨Unit, Unit⟩ Unit :=
  .act (.request (.removeBoth 0 Detector.name) fun _ =>
    .request (.attach 0 .standard) fun _ => .ret ())

/-- The surroundings tell the first detector about an event of the master. -/
def tellFirst (event : Event) : Move ⟨Unit, Unit⟩ Unit :=
  .act (.request (.notify (.detector 0) .master event) fun _ => .ret ())

/-- A detector that polls is replaced by a second one and is then told about a wake event. It
removes the second detector, which does not poll and is not to leave. -/
theorem not_sparesOthers_of_usurped :
    (World.initial (H := ⟨Unit, Unit⟩) ()).attach 0 ⟨true, [.comm]⟩ =
        (.ok 0, (equipped (.initial ())).world) ∧
      let moves := [fireMaster .startPolling, usurp]
      let machine := play .still 1 moves (equipped (.initial ()))
      let woken := machine.move .still 1 (tellFirst .comm)
      machine.world ∈ (equipped (.initial ())).moments .still 1 moves ∧
        machine.world.hub.lookup 0 .master Detector.name = some (.detector 1) ∧
        (machine.world.hub.detector 1).config.oneShot = false ∧
        woken.world.hub.lookup 0 .master Detector.name = none ∧
        ((woken.world.hub.detector 1).watches.get .master).wakeups = 0 ∧
        ¬ machine.world.SparesOthers 0 .master .comm := by
  refine ⟨rfl, ?_⟩
  intro moves machine woken
  refine ⟨List.mem_of_getElem? (show _[6]? = some machine.world from rfl), rfl, rfl, rfl, rfl, ?_⟩
  intro spares
  have gone : (machine.world.signal 0 .master .comm).hub.lookup 0 .master Detector.name ≠
      some (.detector 1) := by
    change none ≠ some (Listener.detector 1)
    rintro ⟨⟩
  cases spares 0 .master Detector.name (.detector 1) rfl gone

end Machine

end Sh2Pair
