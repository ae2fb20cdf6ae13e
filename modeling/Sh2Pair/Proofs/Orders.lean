import Sh2Pair.Proofs.Quiet

/-!
# In whatever order listeners are called

Detectors that are told about one event can be told in any order. Each of them changes what it keeps
itself, and all that it does besides is to take the name of detectors out of a registry, for the
processor of the event. Whoever does this first, the name is gone at the end, and nobody looks at it
in between.

Where the other listeners come back and ask nothing of the library, a fire therefore has one result:
the hub after all detectors of the snapshot have been told, and one call for each registration.
-/

namespace Sh2Pair

namespace Hub

/-- Takes the name of detectors out of a registry for a processor, if it is there. -/
def vacate (hub : Hub) (home : Nat) (cpu : Cpu) : Hub :=
  if (hub.roster home cpu).has Detector.name = true then
    hub.setRoster home cpu ((hub.roster home cpu).erase Detector.name)
  else hub

/-- A detector is to leave its registry when it is told about an event. -/
def Leaves (hub : Hub) (number : Nat) (cpu : Cpu) (event : Event) : Prop :=
  (hub.detector number).reaction cpu event = .woken ∧ (hub.detector number).config.oneShot = true

instance (hub : Hub) (number : Nat) (cpu : Cpu) (event : Event) :
    Decidable (hub.Leaves number cpu event) := instDecidableAnd

/-- What a listener that is told about an event does to the hub, if it does no more than a detector
does. -/
def told (cpu : Cpu) (event : Event) (hub : Hub) : Listener → Hub
  | .detector number => hub.signal number cpu event
  | .hosted _ => hub

/-- The hub after all listeners of a registry have been told about an event. -/
def fired (hub : Hub) (registry : Nat) (cpu : Cpu) (event : Event) : Hub :=
  (hub.roster registry cpu).listeners.foldl (told cpu event) hub

/-- A detector that is told learns about the event, after it has left its registry. -/
theorem signal_eq (hub : Hub) (number : Nat) (cpu : Cpu) (event : Event) :
    hub.signal number cpu event =
      (if hub.Leaves number cpu event then hub.vacate (hub.detector number).home cpu
        else hub).modifyDetector number (·.receive cpu event) := by
  by_cases leaves : hub.Leaves number cpu event
  · rw [if_pos leaves, vacate]
    by_cases used : (hub.roster (hub.detector number).home cpu).has Detector.name = true
    · rw [if_pos used, signal, if_pos ⟨leaves.1, leaves.2, used⟩]
      rfl
    · rw [if_neg used, signal, if_neg fun all => used all.2.2]
  · rw [if_neg leaves, signal, if_neg fun all => leaves ⟨all.1, all.2.1⟩]

/-- Freeing the name of detectors leaves all detectors alone. -/
@[simp] theorem detector_vacate (hub : Hub) (home : Nat) (cpu : Cpu) (number : Nat) :
    (hub.vacate home cpu).detector number = hub.detector number := by
  rw [vacate]
  split
  · rfl
  · rfl

/-- Leaving does not touch what detectors keep. -/
theorem vacate_modifyDetector (hub : Hub) (home : Nat) (cpu : Cpu) (number : Nat)
    (change : Detector → Detector) :
    (hub.modifyDetector number change).vacate home cpu =
      (hub.vacate home cpu).modifyDetector number change := by
  rw [vacate, vacate, roster_modifyDetector]
  split
  · rfl
  · rfl

/-- The rosters of two registries can be replaced in either order. -/
theorem setRoster_comm (hub : Hub) {home place : Nat} (apart : home ≠ place) (cpu : Cpu)
    (roster other : Roster) :
    (hub.setRoster home cpu roster).setRoster place cpu other =
      (hub.setRoster place cpu other).setRoster home cpu roster :=
  congrArg (Hub.mk · hub.detectors)
    (Table.modify_comm hub.registries apart (·.set cpu roster) (·.set cpu other))

/-- Two detectors can be changed in either order. -/
theorem modifyDetector_comm (hub : Hub) {first second : Nat} (apart : first ≠ second)
    (change other : Detector → Detector) :
    (hub.modifyDetector first change).modifyDetector second other =
      (hub.modifyDetector second other).modifyDetector first change :=
  congrArg (Hub.mk hub.registries) (Table.modify_comm hub.detectors apart change other)

/-- The names of different registries can be taken out in any order, and the second attempt at the
name of one registry finds nothing. -/
theorem vacate_comm (hub : Hub) (home place : Nat) (cpu : Cpu) :
    (hub.vacate home cpu).vacate place cpu = (hub.vacate place cpu).vacate home cpu := by
  by_cases same : home = place
  · rw [same]
  · have kept : ∀ {left right : Nat}, left ≠ right → ∀ roster,
        (hub.setRoster left cpu roster).roster right cpu = hub.roster right cpu := by
      intro left right apart roster
      rw [roster_setRoster, if_neg fun here => apart here.1.symm]
    by_cases atHome : (hub.roster home cpu).has Detector.name = true
    · by_cases atPlace : (hub.roster place cpu).has Detector.name = true
      · simp only [vacate, if_pos atHome, if_pos atPlace, kept same, kept (Ne.symm same)]
        exact hub.setRoster_comm same cpu _ _
      · simp only [vacate, if_pos atHome, if_neg atPlace, kept same]
    · by_cases atPlace : (hub.roster place cpu).has Detector.name = true
      · simp only [vacate, if_neg atHome, if_pos atPlace, kept (Ne.symm same)]
      · simp only [vacate, if_neg atHome, if_neg atPlace]

/-- A detector that is told changes no other detector. -/
theorem detector_signal_of_ne (hub : Hub) {number seen : Nat} (other : seen ≠ number) (cpu : Cpu)
    (event : Event) : (hub.signal number cpu event).detector seen = hub.detector seen := by
  rw [signal_eq, detector_modifyDetector, if_neg other]
  split
  · exact hub.detector_vacate ..
  · rfl

/-- Two detectors can be told about one event in either order.

Proof: either detector keeps what it had when the other one is told, so it reacts alike before and
after. What they change are different detectors, and what they remove, under the same name, can be
removed in either order. -/
theorem signal_comm (hub : Hub) (first second : Nat) (cpu : Cpu) (event : Event) :
    (hub.signal first cpu event).signal second cpu event =
      (hub.signal second cpu event).signal first cpu event := by
  by_cases same : first = second
  · rw [same]
  · have second_kept : (hub.signal first cpu event).detector second = hub.detector second :=
      hub.detector_signal_of_ne (Ne.symm same) cpu event
    have first_kept : (hub.signal second cpu event).detector first = hub.detector first :=
      hub.detector_signal_of_ne same cpu event
    have after : ∀ {one another : Nat}, (hub.signal one cpu event).detector another =
        hub.detector another →
        ((hub.signal one cpu event).Leaves another cpu event ↔ hub.Leaves another cpu event) := by
      intro one another kept
      rw [Leaves, Leaves, kept]
    rw [signal_eq (hub.signal first cpu event), signal_eq (hub.signal second cpu event),
      second_kept, first_kept]
    simp only [after second_kept, after first_kept]
    rw [signal_eq hub first, signal_eq hub second]
    by_cases firstLeaves : hub.Leaves first cpu event
    · by_cases secondLeaves : hub.Leaves second cpu event
      · simp only [if_pos firstLeaves, if_pos secondLeaves, vacate_modifyDetector]
        rw [vacate_comm, modifyDetector_comm _ same]
      · simp only [if_pos firstLeaves, if_neg secondLeaves, vacate_modifyDetector]
        exact modifyDetector_comm _ same _ _
    · by_cases secondLeaves : hub.Leaves second cpu event
      · simp only [if_neg firstLeaves, if_pos secondLeaves, vacate_modifyDetector]
        exact modifyDetector_comm _ same _ _
      · simp only [if_neg firstLeaves, if_neg secondLeaves]
        exact modifyDetector_comm _ same _ _

/-- So can all listeners. -/
theorem foldl_told_eq_of_perm (hub : Hub) (cpu : Cpu) (event : Event)
    {order listeners : List Listener} (same : order.Perm listeners) :
    order.foldl (told cpu event) hub = listeners.foldl (told cpu event) hub := by
  refine same.foldl_eq' (fun first _ second _ hub => ?_) hub
  cases first with
  | hosted number => rfl
  | detector first =>
    cases second with
    | hosted number => rfl
    | detector second => exact hub.signal_comm first second cpu event

end Hub

/-- What an entry of the journal told an outside listener. -/
def Entry.heard? {ν : Type} (number : Nat) : Entry ν → Option (Cpu × Event)
  | .called _ (.hosted seen) cpu event => if seen = number then some (cpu, event) else none
  | .notified (.hosted seen) cpu event => if seen = number then some (cpu, event) else none
  | _ => none

variable {H : Host}

/-- A program that comes back on every path and asks nothing of the library. -/
def Program.Passive {σ α : Type} : Program H σ α → Prop
  | .ret _ => True
  | .panic _ => False
  | .look next => ∀ state, (next state).Passive
  | .change _ next => next.Passive
  | .ask next => ∀ state, (next state).Passive
  | .alter _ next => next.Passive
  | .remark _ next => next.Passive
  | .request _ _ => False

/-- All outside listeners are passive. -/
def Setting.Passive (setting : Setting H) : Prop :=
  ∀ number cpu event, (setting.behave number cpu event).Passive

namespace World

/-- What the outside listener of a number was told, the latest first. -/
def hearing (world : World H) (number : Nat) : List (Cpu × Event) :=
  world.journal.filterMap (Entry.heard? number)

/-- What a detector has heard is read off the entries one by one, the latest first. -/
theorem hearing_record (world : World H) (entry : Entry H.Note) (number : Nat) :
    (world.record entry).hearing number =
      (entry.heard? number).toList ++ world.hearing number := by
  rw [hearing, journal_record, List.filterMap_cons]
  cases entry.heard? number with
  | none => rfl
  | some told => rfl

/-- Telling a detector is telling no outside listener. -/
theorem hearing_signal (world : World H) (number : Nat) (cpu : Cpu) (event : Event) (seen : Nat) :
    (world.signal number cpu event).hearing seen = world.hearing seen := by
  rcases world.signal_cases number cpu event with
    ⟨_, after⟩ | ⟨_, after⟩ | ⟨_, _, after⟩ | ⟨_, _, _, after⟩
  · rw [after]
    rfl
  · rw [after]
    rfl
  · rw [after]
    rfl
  · rw [after]
    rfl

end World

/-- A passive program comes back, and nothing of what it does concerns the library. -/
theorem Program.Passive.run {σ α : Type} {program : Program H σ α} (passive : program.Passive)
    (deliver : Delivery H) (arrange : Nat → List Listener → List Listener) (state : σ)
    (world : World H) :
    ∃ value reached after, program.run deliver arrange state world =
        (.done value, reached, after) ∧
      after.hub = world.hub ∧ ∀ number, after.hearing number = world.hearing number := by
  induction program generalizing state world with
  | ret value => exact ⟨value, state, world, rfl, rfl, fun _ => rfl⟩
  | panic cause => exact passive.elim
  | look next inductionHypothesis => exact inductionHypothesis state (passive state) state world
  | change f next inductionHypothesis => exact inductionHypothesis passive (f state) world
  | ask next inductionHypothesis =>
    exact inductionHypothesis world.host (passive world.host) state world
  | alter f next inductionHypothesis => exact inductionHypothesis passive state _
  | remark content next inductionHypothesis =>
    exact inductionHypothesis passive state (world.record (.remark content))
  | request wanted next inductionHypothesis => exact passive.elim

section Passive

variable {setting : Setting H} (passive : setting.Passive) (depth : Nat)

include passive

/-- Every listener comes back, and a detector does what it does. -/
theorem Setting.Passive.deliver (listener : Listener) (cpu : Cpu) (event : Event)
    (world : World H) :
    ∃ after, setting.deliver (depth + 1) listener cpu event world = (.done (), after) ∧
      after.hub = world.hub.told cpu event listener ∧
      ∀ number, after.hearing number = world.hearing number := by
  cases listener with
  | detector number =>
    exact ⟨_, rfl, world.hub_signal number cpu event, world.hearing_signal number cpu event⟩
  | hosted number =>
    obtain ⟨value, state, after, ran, hub, hearing⟩ :=
      (passive number cpu event).run (setting.deliver depth) setting.arrange () world
    refine ⟨after, ?_, hub, hearing⟩
    simp only [Setting.deliver, ran]

/-- The listeners of a fire are called as often as they stand in the order.

Proof: by induction on the order. A detector changes the hub as it does outside a fire, and an
outside listener hears of the event once. -/
theorem Setting.Passive.callEach (fire : Nat) (cpu : Cpu) (event : Event) (order : List Listener)
    (world : World H) :
    ∃ after, World.callEach (setting.deliver (depth + 1)) fire cpu event order world =
        (.done (), after) ∧
      after.hub = order.foldl (Hub.told cpu event) world.hub ∧
      ∀ number, after.hearing number =
        .replicate (order.count (.hosted number)) (cpu, event) ++ world.hearing number := by
  induction order generalizing world with
  | nil => exact ⟨world, rfl, rfl, fun _ => rfl⟩
  | cons listener later inductionHypothesis =>
    obtain ⟨middle, told, hub, hearing⟩ :=
      passive.deliver depth listener cpu event (world.record (.called fire listener cpu event))
    obtain ⟨after, called, hubAfter, hearingAfter⟩ :=
      inductionHypothesis (middle.record (.returned fire))
    refine ⟨after, ?_, ?_, ?_⟩
    · simp only [World.callEach, told, called]
    · rw [hubAfter, List.foldl_cons, World.hub_record, hub, World.hub_record]
    · intro number
      rw [hearingAfter, World.hearing_record, hearing, World.hearing_record]
      cases listener with
      | detector seen =>
        rw [List.count_cons_of_ne (by simp)]
        rfl
      | hosted seen =>
        by_cases here : seen = number
        · subst here
          rw [List.count_cons_self, List.replicate_succ', List.append_assoc]
          simp [Entry.heard?]
        · rw [List.count_cons_of_ne (by simpa using here)]
          simp [Entry.heard?, here]

/-- A fire comes back. What it leaves is settled by the registrations alone. -/
theorem Setting.Passive.fire (world : World H) (registry : Nat) (cpu : Cpu) (event : Event) :
    ∃ after, world.fire (setting.deliver (depth + 1)) setting.arrange registry cpu event =
        (.done (world.hub.roster registry cpu).size, after) ∧
      after.hub = world.hub.fired registry cpu event ∧
      ∀ number, after.hearing number =
        .replicate ((world.hub.roster registry cpu).listeners.count (.hosted number))
          (cpu, event) ++ world.hearing number := by
  have same : (setting.arrange world.fires (world.hub.roster registry cpu).listeners).Perm
      (world.hub.roster registry cpu).listeners :=
    setting.arrange_perm world.fires (world.hub.roster registry cpu).listeners
  obtain ⟨after, called, hub, hearing⟩ := passive.callEach depth world.fires cpu event
    (setting.arrange world.fires (world.hub.roster registry cpu).listeners)
    (world.begun registry cpu event)
  refine ⟨after, ?_, ?_, ?_⟩
  · rw [World.fire_eq, called]
    rfl
  · rw [hub]
    exact Hub.foldl_told_eq_of_perm _ cpu event same
  · intro number
    rw [hearing, same.count_eq]
    rfl

end Passive

end Sh2Pair
