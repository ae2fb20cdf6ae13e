import Sh2Pair.Proofs.Course

/-!
# What entries tell about the hub

Every change of the hub leaves an entry in the journal, or is a detector learning of an event that
it ignores. So what the entries of a stretch of the journal tell about the hub at its two ends can
be judged entry by entry. It has to hold for the few changes that there are, to bear other entries
in between, and to compose; then it holds of every run.
-/

namespace Sh2Pair

/-- Entries of programs that go with no change of the hub. -/
def Entry.plain {ν : Type} : Entry ν → Bool
  | .refused _ _ _ => true
  | .fired _ _ _ _ _ => true
  | .called _ _ _ _ => true
  | .returned _ => true
  | .notified _ _ _ => true
  | .turnBegan _ => true
  | .turnEnded _ _ => true
  | .stalled _ _ => true
  | .remark _ => true
  | _ => false

/-- An entry about scheduling is a plain one. -/
theorem Entry.plain_of_marks {ν : Type} {entry : Entry ν} (marks : entry.marks = true) :
    entry.plain = true := by
  cases entry with
  | notified => rfl
  | remark => rfl
  | _ => first | rfl | cases marks

namespace World

variable {H : Host}

/-- What entries tell about the hub before and after them, entry by entry. -/
structure Stepwise (tells : Hub → Hub → List (Entry H.Note) → Prop) : Prop where
  append : ∀ {start middle finish early late},
    tells start middle early → tells middle finish late → tells start finish (late ++ early)
  nothing : ∀ hub, tells hub hub []
  plain : ∀ hub entry, entry.plain = true → tells hub hub [entry]
  enlist : ∀ (world : World H) registry cpu name listener free,
    tells world.hub (world.enlisted registry cpu name listener free).hub
      [.registered registry cpu name listener]
  enlistBoth : ∀ (world : World H) registry name listener free,
    tells world.hub (world.enlistedBoth registry name listener free).hub
      [.registeredBoth registry name listener]
  strike : ∀ (world : World H) registry cpu name, (world.hub.roster registry cpu).has name = true →
    tells world.hub (world.struck registry cpu name).hub [.removed registry cpu name]
  /-- A fresh detector is made. Its registration has an entry of its own. -/
  furnish : ∀ (world : World H) registry config,
    tells world.hub (world.furnished registry config).hub []
  clear : ∀ (world : World H) number cpu,
    tells world.hub (world.clear number cpu).hub
      [.pollCleared number cpu ((world.hub.detector number).polling cpu)]
  openRegistry : ∀ world : World H,
    tells world.hub world.openRegistry.2.hub [.opened world.openRegistry.1]
  retire : ∀ (world : World H) registry,
    tells world.hub (world.retire registry).hub [.retired registry]
  ignore : ∀ (world : World H) number cpu event,
    (world.hub.detector number).reaction cpu event = .ignored →
      tells world.hub (world.informed number cpu event).hub []
  start : ∀ (world : World H) number cpu event,
    (world.hub.detector number).reaction cpu event = .started →
      tells world.hub (world.informed number cpu event).hub [.pollStarted number cpu]
  wake : ∀ (world : World H) number cpu event,
    (world.hub.detector number).reaction cpu event = .woken →
      tells world.hub (world.informed number cpu event).hub [.pollEnded number cpu event]

/-- What was entered since an earlier world tells about the hubs of both. -/
def Since (tells : Hub → Hub → List (Entry H.Note) → Prop) (before after : World H) : Prop :=
  ∃ recent, after.journal = recent ++ before.journal ∧ tells before.hub after.hub recent

/-- What a scheduler enters that passes over a turn has to be looked at besides. -/
theorem Since.passes {tells : Hub → Hub → List (Entry H.Note) → Prop}
    (skipped : ∀ hub cpu cycles, tells hub hub [.skipped cpu cycles])
    (terms : SliceConfig × Nat × Option Nat) : Machine.PassesWithin (Since tells) terms := by
  intro scheduler world cpu cycles _ _
  exact ⟨[_], rfl, skipped world.hub cpu cycles⟩

namespace Stepwise

variable {tells : Hub → Hub → List (Entry H.Note) → Prop} (stepwise : Stepwise tells)

include stepwise

/-- What was told over two stretches, one after the other, is told over both together. -/
theorem trans {start middle finish : World H} (first : Since tells start middle)
    (second : Since tells middle finish) : Since tells start finish := by
  obtain ⟨early, journal, before⟩ := first
  obtain ⟨late, continued, after⟩ := second
  exact ⟨late ++ early, by rw [continued, journal, List.append_assoc],
    stepwise.append before after⟩

/-- One more plain entry. -/
theorem noted {start finish : World H} (kept : Since tells start finish) {entry : Entry H.Note}
    (plain : entry.plain = true) : Since tells start (finish.record entry) :=
  stepwise.trans kept ⟨[entry], rfl, stepwise.plain finish.hub entry plain⟩

/-- A detector that is told about an event enters what it does. -/
theorem signal (world : World H) (number : Nat) (cpu : Cpu) (event : Event) :
    Since tells world (world.signal number cpu event) := by
  rcases world.signal_cases number cpu event with
    ⟨reacted, after⟩ | ⟨reacted, after⟩ | ⟨reacted, _, after⟩ | ⟨reacted, _, used, after⟩
  · exact after ▸ ⟨[], rfl, stepwise.ignore world number cpu event reacted⟩
  · exact after ▸ ⟨[_], rfl, stepwise.start world number cpu event reacted⟩
  · exact after ▸ ⟨[_], rfl, stepwise.wake world number cpu event reacted⟩
  · have woken : Since tells world
        ((world.informed number cpu event).record (.pollEnded number cpu event)) :=
      ⟨[_], rfl, stepwise.wake world number cpu event reacted⟩
    exact after ▸ stepwise.trans woken ⟨[_], rfl, stepwise.strike _ _ cpu Detector.name used⟩

/-- What holds entry by entry holds of every run.

Proof: one case per kind of step. A wake-up that removes the detector is two entries, and so is an
attachment, which first registers and then makes the detector. -/
theorem steady : Steady (Since tells) where
  refl world := ⟨[], rfl, stepwise.nothing world.hub⟩
  trans := stepwise.trans
  grows := by
    rintro start finish ⟨recent, journal, _⟩
    exact ⟨recent, journal.symm⟩
  host world state := ⟨[], rfl, stepwise.nothing world.hub⟩
  mark world entry marks :=
    ⟨[entry], rfl, stepwise.plain world.hub entry (Entry.plain_of_marks marks)⟩
  enlist world registry cpu name listener free :=
    ⟨[_], rfl, stepwise.enlist world registry cpu name listener free⟩
  enlistBoth world registry name listener free :=
    ⟨[_], rfl, stepwise.enlistBoth world registry name listener free⟩
  strike world registry cpu name used := ⟨[_], rfl, stepwise.strike world registry cpu name used⟩
  furnish world registry config free := by
    have enlisted : Since tells world ((world.enlistedBoth registry Detector.name
        (.detector world.hub.detectors.size) free).record
          (.registeredBoth registry Detector.name (.detector world.hub.detectors.size))) :=
      ⟨[_], rfl, stepwise.enlistBoth world registry _ _ free⟩
    exact stepwise.trans enlisted ⟨[], rfl, stepwise.furnish _ registry config⟩
  clear world number cpu := ⟨[_], rfl, stepwise.clear world number cpu⟩
  openRegistry world := ⟨[_], rfl, stepwise.openRegistry world⟩
  retire world registry := ⟨[_], rfl, stepwise.retire world registry⟩
  begin world registry cpu event := ⟨[_], rfl, stepwise.plain world.hub _ rfl⟩
  notify world number cpu event := by
    have noted : Since tells world (world.record (.notified (.detector number) cpu event)) :=
      ⟨[_], rfl, stepwise.plain world.hub _ rfl⟩
    exact stepwise.trans noted (stepwise.signal _ number cpu event)
  call := by
    intro origin world registry cpu event listener _ _ kept
    have called : Since tells origin (world.record (.called origin.fires listener cpu event)) :=
      stepwise.noted kept rfl
    cases listener with
    | detector number => exact stepwise.trans called (stepwise.signal _ number cpu event)
    | hosted number => exact called

end Stepwise

end World

end Sh2Pair
