import Sh2Pair.Proofs.Ledger
import Sh2Pair.Proofs.Orders

/-!
# What belongs to one processor

Both processors share registries, detectors and outside listeners. What belongs to one of them are
its registrations, what the detectors keep about it, and what the host keeps for it. A program is
confined to a processor if it depends only on what belongs to this processor, and changes nothing
else.

What is confined to one processor spares what belongs to the other one, if all outside listeners
are confined to the processor that they are told about. Detectors are like this by themselves, also
one that leaves its registry.
-/

namespace Sh2Pair

variable {H : Host} {S : Type}

namespace Detector

/-- What a detector has to do with a processor: its settings, the registry that it was attached to,
and what it keeps about the processor. -/
def share (cpu : Cpu) (detector : Detector) : PollConfig × Nat × Watch :=
  (detector.config, detector.home, detector.watches.get cpu)

variable {cpu place : Cpu} {left right : Detector}

/-- Two detectors with the same share of a processor react alike to its events. -/
theorem reaction_of_share (same : left.share cpu = right.share cpu) (event : Event) :
    left.reaction cpu event = right.reaction cpu event := by
  simp only [share, Prod.mk.injEq] at same
  rw [reaction, reaction, same.1, same.2.2]

/-- Two detectors with the same share of a processor have so after an event of this processor. -/
theorem share_receive (same : left.share cpu = right.share cpu) (event : Event) :
    (left.receive cpu event).share cpu = (right.receive cpu event).share cpu := by
  simp only [share, Prod.mk.injEq] at same
  simp only [share, receive, Pair.get_modify_self, same]

/-- Two detectors with the same share of a processor have so after its poll was cleared. -/
theorem share_clear (same : left.share cpu = right.share cpu) :
    (left.clear cpu).share cpu = (right.clear cpu).share cpu := by
  simp only [share, Prod.mk.injEq] at same
  simp only [share, clear, Pair.get_modify_self, same]

/-- An event of the other processor leaves this share alone. -/
theorem share_receive_ne (apart : cpu ≠ place) (detector : Detector) (event : Event) :
    (detector.receive place event).share cpu = detector.share cpu := by
  simp only [share, receive, Pair.modify, Pair.get_set, if_neg apart]

/-- Clearing the poll of the other processor leaves this share alone. -/
theorem share_clear_ne (apart : cpu ≠ place) (detector : Detector) :
    (detector.clear place).share cpu = detector.share cpu := by
  simp only [share, clear, Pair.modify, Pair.get_set, if_neg apart]

end Detector

namespace Hub

/-- Two hubs have the same registrations for a processor, and their detectors keep the same about
it. -/
structure AlikeFor (cpu : Cpu) (left right : Hub) : Prop where
  roster : ∀ registry, left.roster registry cpu = right.roster registry cpu
  share : ∀ number, (left.detector number).share cpu = (right.detector number).share cpu

namespace AlikeFor

variable {cpu place : Cpu} {left middle right : Hub}

/-- A hub holds for a processor what it holds. -/
theorem refl (cpu : Cpu) (hub : Hub) : hub.AlikeFor cpu hub := ⟨fun _ => rfl, fun _ => rfl⟩

/-- What two hubs have in common with a third one, they have in common. -/
theorem trans (first : left.AlikeFor cpu middle) (second : middle.AlikeFor cpu right) :
    left.AlikeFor cpu right := by
  constructor
  case roster => exact fun registry => (first.roster registry).trans (second.roster registry)
  case share => exact fun number => (first.share number).trans (second.share number)

/-- Giving both hubs the same roster keeps what they have in common. -/
theorem setRoster (alike : left.AlikeFor cpu right) (registry : Nat) (roster : Roster) :
    (left.setRoster registry cpu roster).AlikeFor cpu (right.setRoster registry cpu roster) := by
  constructor
  case roster =>
    intro seen
    rw [roster_setRoster, roster_setRoster, alike.roster seen]
  case share => exact alike.share

/-- A roster of the other processor does not count. -/
theorem setRoster_ne (apart : cpu ≠ place) (hub : Hub) (registry : Nat) (roster : Roster) :
    (hub.setRoster registry place roster).AlikeFor cpu hub := by
  constructor
  case roster =>
    intro seen
    rw [roster_setRoster, if_neg fun here => apart here.2]
  case share => exact fun _ => rfl

/-- Changing a detector in both hubs keeps what they have in common, if the change sees no more than
the share. -/
theorem modifyDetector (alike : left.AlikeFor cpu right) (number : Nat)
    {change : Detector → Detector} (same : ∀ {one other : Detector},
      one.share cpu = other.share cpu → (change one).share cpu = (change other).share cpu) :
    (left.modifyDetector number change).AlikeFor cpu (right.modifyDetector number change) := by
  constructor
  case roster => exact alike.roster
  case share =>
    intro seen
    rw [detector_modifyDetector, detector_modifyDetector]
    by_cases here : seen = number
    · rw [if_pos here, if_pos here]
      exact same (alike.share number)
    · rw [if_neg here, if_neg here]
      exact alike.share seen

/-- A detector may change what it keeps about the other processor. -/
theorem modifyDetector_ne (hub : Hub) (number : Nat) {change : Detector → Detector}
    (same : ∀ detector, (change detector).share cpu = detector.share cpu) :
    (hub.modifyDetector number change).AlikeFor cpu hub := by
  constructor
  case roster => exact fun _ => rfl
  case share =>
    intro seen
    rw [detector_modifyDetector]
    by_cases here : seen = number
    · rw [if_pos here, here]
      exact same _
    · rw [if_neg here]

/-- Freeing the name of detectors for the processor in both hubs keeps what they have in common. -/
theorem vacate (alike : left.AlikeFor cpu right) (home : Nat) :
    (left.vacate home cpu).AlikeFor cpu (right.vacate home cpu) := by
  rw [Hub.vacate, Hub.vacate, alike.roster home]
  split
  · exact alike.setRoster ..
  · exact alike

/-- Freeing the name of detectors for the other processor leaves alone what belongs to this one. -/
theorem vacate_ne (apart : cpu ≠ place) (hub : Hub) (home : Nat) :
    (hub.vacate home place).AlikeFor cpu hub := by
  rw [Hub.vacate]
  split
  · exact setRoster_ne apart ..
  · exact refl cpu hub

/-- Telling a detector in both hubs about the processor keeps what they have in common. -/
theorem signal (alike : left.AlikeFor cpu right) (number : Nat) (event : Event) :
    (left.signal number cpu event).AlikeFor cpu (right.signal number cpu event) := by
  have share : (left.detector number).share cpu = (right.detector number).share cpu :=
    alike.share number
  have reaction :
      (left.detector number).reaction cpu event = (right.detector number).reaction cpu event :=
    Detector.reaction_of_share share event
  simp only [Detector.share, Prod.mk.injEq] at share
  have leaves : left.Leaves number cpu event ↔ right.Leaves number cpu event := by
    rw [Leaves, Leaves, reaction, share.1]
  rw [signal_eq, signal_eq, share.2.1]
  apply modifyDetector
  · by_cases gone : left.Leaves number cpu event
    · rw [if_pos gone, if_pos (leaves.mp gone)]
      exact alike.vacate _
    · rw [if_neg gone, if_neg (mt leaves.mpr gone)]
      exact alike
  · exact fun same => Detector.share_receive same event

/-- A detector that is told about the other processor keeps the same about this one, and leaves the
registry of the other one only. -/
theorem signal_ne (apart : cpu ≠ place) (hub : Hub) (number : Nat) (event : Event) :
    (hub.signal number place event).AlikeFor cpu hub := by
  rw [signal_eq]
  apply trans (modifyDetector_ne _ number fun detector =>
    Detector.share_receive_ne apart detector event)
  split
  · exact vacate_ne apart ..
  · exact refl cpu hub

end AlikeFor

end Hub

/-- A request is about one processor, or only looks. -/
def Request.Concerns (cpu : Cpu) : Request → Prop
  | .register _ place _ _ => place = cpu
  | .remove _ place _ => place = cpu
  | .fire _ place _ => place = cpu
  | .notify _ place _ => place = cpu
  | .clear _ place => place = cpu
  | .survey => True
  | _ => False

/-- Two answers to a request are the same, as far as a processor goes. -/
def Request.AlikeFor (cpu : Cpu) : (wanted : Request) → wanted.Reply → wanted.Reply → Prop
  | .survey, left, right => Hub.AlikeFor cpu left right
  | _, left, right => left = right

/-- A program that depends only on what belongs to one processor, and changes nothing else. What the
host keeps for a processor is a part of its state. -/
def Program.Confined {σ α : Type} (part : Cpu → H.State → S) (cpu : Cpu) : Program H σ α → Prop
  | .ret _ => True
  | .panic _ => True
  | .look next => ∀ state, (next state).Confined part cpu
  | .change _ next => next.Confined part cpu
  | .ask next =>
    (∀ left right, part cpu left = part cpu right → next left = next right) ∧
      ∀ state, (next state).Confined part cpu
  | .alter f next =>
    (∀ left right, part cpu left = part cpu right → part cpu (f left) = part cpu (f right)) ∧
      (∀ place state, place ≠ cpu → part place (f state) = part place state) ∧
      next.Confined part cpu
  | .remark _ next => next.Confined part cpu
  | .request wanted next =>
    wanted.Concerns cpu ∧
      (∀ left right, wanted.AlikeFor cpu left right → next left = next right) ∧
      ∀ reply, (next reply).Confined part cpu

/-- Each outside listener that is told about a processor is confined to it. -/
def Setting.Separates (setting : Setting H) (part : Cpu → H.State → S) : Prop :=
  ∀ number cpu event, (setting.behave number cpu event).Confined part cpu

namespace Entry

variable {ν : Type}

/-- Who is told about a processor, and what. -/
def telling? (cpu : Cpu) : Entry ν → Option (Listener × Event)
  | .called _ listener place event => if place = cpu then some (listener, event) else none
  | .notified listener place event => if place = cpu then some (listener, event) else none
  | _ => none

/-- The number of a fire for a processor. -/
def firing? (cpu : Cpu) : Entry ν → Option Nat
  | .fired fire _ place _ _ => if place = cpu then some fire else none
  | _ => none

/-- An entry that reports neither a fire nor that anybody was told. -/
def Mute (cpu : Cpu) (entry : Entry ν) : Prop :=
  entry.telling? cpu = none ∧ entry.firing? cpu = none

section Elsewhere

variable {cpu place : Cpu} (apart : cpu ≠ place)

include apart

/-- An entry about somebody who was called for the other processor tells this one nothing. -/
theorem mute_called (fire : Nat) (listener : Listener) (event : Event) :
    (called fire listener place event : Entry ν).Mute cpu := ⟨if_neg apart.symm, rfl⟩

/-- An entry about somebody who was notified for the other processor tells this one nothing. -/
theorem mute_notified (listener : Listener) (event : Event) :
    (notified listener place event : Entry ν).Mute cpu := ⟨if_neg apart.symm, rfl⟩

/-- An entry about a fire for the other processor tells this one nothing. -/
theorem mute_fired (fire registry : Nat) (event : Event) (count : Nat) :
    (fired fire registry place event count : Entry ν).Mute cpu := ⟨rfl, if_neg apart.symm⟩

end Elsewhere

end Entry

/-- What listeners were told about a processor, the latest first. -/
def tellings {ν : Type} (cpu : Cpu) (journal : List (Entry ν)) : List (Listener × Event) :=
  journal.filterMap (Entry.telling? cpu)

/-- The numbers of the fires for a processor, in their order. -/
def firings {ν : Type} (cpu : Cpu) (journal : List (Entry ν)) : List Nat :=
  (journal.filterMap (Entry.firing? cpu)).reverse

section Journals

variable {ν : Type} {cpu : Cpu} {entry : Entry ν}

/-- What listeners were told is read off the entries one by one, the latest first. -/
theorem tellings_cons (cpu : Cpu) (entry : Entry ν) (journal : List (Entry ν)) :
    tellings cpu (entry :: journal) = (entry.telling? cpu).toList ++ tellings cpu journal := by
  rw [tellings, List.filterMap_cons]
  cases entry.telling? cpu <;> rfl

/-- The numbers of the fires are read off the entries one by one, the latest last. -/
theorem firings_cons (cpu : Cpu) (entry : Entry ν) (journal : List (Entry ν)) :
    firings cpu (entry :: journal) = firings cpu journal ++ (entry.firing? cpu).toList := by
  rw [firings, List.filterMap_cons]
  cases entry.firing? cpu with
  | none => simp [firings]
  | some number => simp [firings]

/-- A mute entry adds nothing to what listeners were told. -/
theorem tellings_of_mute (mute : entry.Mute cpu) (journal : List (Entry ν)) :
    tellings cpu (entry :: journal) = tellings cpu journal := by
  rw [tellings_cons, mute.1, Option.toList_none, List.nil_append]

/-- A mute entry adds no fire. -/
theorem firings_of_mute (mute : entry.Mute cpu) (journal : List (Entry ν)) :
    firings cpu (entry :: journal) = firings cpu journal := by
  rw [firings_cons, mute.2, Option.toList_none, List.append_nil]

end Journals

namespace World

/-- What belongs to a processor is the same before and after. -/
structure Spares (part : Cpu → H.State → S) (cpu : Cpu) (before after : World H) : Prop where
  hub : after.hub.AlikeFor cpu before.hub
  host : part cpu after.host = part cpu before.host
  told : tellings cpu after.journal = tellings cpu before.journal
  fired : firings cpu after.journal = firings cpu before.journal

/-- An operation that runs no outside code: it tells nobody, and does not touch the host. -/
structure Silent (cpu : Cpu) (before after : World H) : Prop where
  host : after.host = before.host
  fires : after.fires = before.fires
  told : tellings cpu after.journal = tellings cpu before.journal
  fired : firings cpu after.journal = firings cpu before.journal

namespace Silent

variable {cpu : Cpu}

/-- A world that stays as it is is silent. -/
theorem refl (world : World H) : Silent cpu world world := ⟨rfl, rfl, rfl, rfl⟩

/-- A change to the hub. -/
theorem change (world : World H) (hub : Hub) : Silent cpu world { world with hub := hub } :=
  ⟨rfl, rfl, rfl, rfl⟩

/-- A change to the hub, and an entry about something else. -/
theorem enter (world : World H) (hub : Hub) {entry : Entry H.Note} (mute : entry.Mute cpu) :
    Silent cpu world ({ world with hub := hub }.record entry) :=
  ⟨rfl, rfl, tellings_of_mute mute _, firings_of_mute mute _⟩

/-- A registration runs no outside code. -/
theorem register (world : World H) (registry : Nat) (place : Cpu) (name : String)
    (listener : Listener) : Silent cpu world (world.register registry place name listener).2 := by
  cases free : (world.hub.roster registry place).has name with
  | false =>
    rw [world.register_free listener free]
    exact enter world _ ⟨rfl, rfl⟩
  | true =>
    rw [world.register_used listener free]
    exact enter world world.hub ⟨rfl, rfl⟩

/-- A removal runs no outside code. -/
theorem remove (world : World H) (registry : Nat) (place : Cpu) (name : String) :
    Silent cpu world (world.remove registry place name).2 := by
  cases used : (world.hub.roster registry place).has name with
  | false =>
    rw [world.remove_free used]
    exact refl world
  | true =>
    rw [world.remove_used used]
    exact enter world _ ⟨rfl, rfl⟩

/-- Clearing a poll runs no outside code. -/
theorem clear (world : World H) (number : Nat) (place : Cpu) :
    Silent cpu world (world.clear number place) := enter world _ ⟨rfl, rfl⟩

/-- Telling a detector runs no outside code, also when the detector leaves its registry. -/
theorem signal (world : World H) (number : Nat) (place : Cpu) (event : Event) :
    Silent cpu world (world.signal number place event) := by
  rcases world.signal_cases number place event with
    ⟨_, after⟩ | ⟨_, after⟩ | ⟨_, _, after⟩ | ⟨_, _, _, after⟩
  · rw [after]
    exact change world _
  · rw [after]
    exact enter world _ ⟨rfl, rfl⟩
  · rw [after]
    exact enter world _ ⟨rfl, rfl⟩
  · rw [after]
    refine ⟨rfl, rfl, ?_, ?_⟩
    · exact (tellings_of_mute ⟨rfl, rfl⟩ _).trans (tellings_of_mute ⟨rfl, rfl⟩ _)
    · exact (firings_of_mute ⟨rfl, rfl⟩ _).trans (firings_of_mute ⟨rfl, rfl⟩ _)

end Silent

section Sparing

variable {part : Cpu → H.State → S} {cpu place : Cpu}

namespace Spares

/-- A world that stays as it is spares both processors. -/
theorem refl (world : World H) : Spares part cpu world world := ⟨.refl cpu _, rfl, rfl, rfl⟩

/-- What two stretches spare, one after the other, both together spare. -/
theorem trans {start middle finish : World H} (first : Spares part cpu start middle)
    (second : Spares part cpu middle finish) : Spares part cpu start finish :=
  ⟨second.hub.trans first.hub, second.host.trans first.host, second.told.trans first.told,
    second.fired.trans first.fired⟩

/-- A silent operation spares a processor if the hub holds for it what it held. -/
theorem of_silent {before after : World H} (silent : Silent cpu before after)
    (hub : after.hub.AlikeFor cpu before.hub) : Spares part cpu before after :=
  ⟨hub, congrArg (part cpu) silent.host, silent.told, silent.fired⟩

/-- A mute entry spares the processor. -/
theorem record (world : World H) {entry : Entry H.Note} (mute : entry.Mute cpu) :
    Spares part cpu world (world.record entry) :=
  of_silent (Silent.enter world world.hub mute) (.refl cpu _)

end Spares

variable (part) (apart : cpu ≠ place) (world : World H)

include apart

/-- A registration for the other processor spares this one. -/
theorem spares_register (registry : Nat) (name : String) (listener : Listener) :
    Spares part cpu world (world.register registry place name listener).2 := by
  apply Spares.of_silent (Silent.register ..)
  cases free : (world.hub.roster registry place).has name with
  | false =>
    rw [world.register_free listener free]
    exact Hub.AlikeFor.setRoster_ne apart ..
  | true =>
    rw [world.register_used listener free]
    exact Hub.AlikeFor.refl ..

/-- A removal for the other processor spares this one. -/
theorem spares_remove (registry : Nat) (name : String) :
    Spares part cpu world (world.remove registry place name).2 := by
  apply Spares.of_silent (Silent.remove ..)
  cases used : (world.hub.roster registry place).has name with
  | false =>
    rw [world.remove_free used]
    exact Hub.AlikeFor.refl ..
  | true =>
    rw [world.remove_used used]
    exact Hub.AlikeFor.setRoster_ne apart ..

/-- Clearing the poll of the other processor spares this one. -/
theorem spares_clear (number : Nat) : Spares part cpu world (world.clear number place) := by
  apply Spares.of_silent (Silent.clear ..)
  exact Hub.AlikeFor.modifyDetector_ne _ number (Detector.share_clear_ne apart)

/-- Telling a detector about the other processor spares this one. -/
theorem spares_signal (number : Nat) (event : Event) :
    Spares part cpu world (world.signal number place event) := by
  apply Spares.of_silent (Silent.signal ..)
  rw [hub_signal]
  exact Hub.AlikeFor.signal_ne apart ..

end Sparing

/-- Telling listeners about one processor spares what belongs to the other one. -/
def DeliversSparing (part : Cpu → H.State → S) (cpu place : Cpu) (deliver : Delivery H) : Prop :=
  ∀ listener event world, Spares part cpu world (deliver listener place event world).2

namespace DeliversSparing

variable {part : Cpu → H.State → S} {cpu place : Cpu} (apart : cpu ≠ place) {deliver : Delivery H}
  (delivers : DeliversSparing part cpu place deliver)
  (arrange : Nat → List Listener → List Listener)

include apart delivers

/-- Calling listeners about one processor spares the other one, if telling each of them does.

Proof: by induction on the listeners that are still to be called. The notes between the calls are
about this processor, and the calls are spared by what is known of the deliveries. -/
theorem callEach (fire : Nat) (event : Event) (order : List Listener) (world : World H) :
    Spares part cpu world (World.callEach deliver fire place event order world).2 := by
  induction order generalizing world with
  | nil => exact .refl world
  | cons listener later inductionHypothesis =>
    have told : Spares part cpu world
        (deliver listener place event (world.record (.called fire listener place event))).2 :=
      (Spares.record world (Entry.mute_called apart fire listener event)).trans
        (delivers listener event _)
    simp only [World.callEach]
    generalize deliver listener place event (world.record (.called fire listener place event)) =
      result at told ⊢
    obtain ⟨outcome, middle⟩ := result
    cases outcome with
    | done value =>
      apply told.trans
      exact (Spares.record middle ⟨rfl, rfl⟩).trans (inductionHypothesis _)
    | panicked cause => exact told
    | exhausted => exact told

/-- A fire for one processor spares the other one, if telling each listener does. -/
theorem fire (registry : Nat) (event : Event) (world : World H) :
    Spares part cpu world (world.fire deliver arrange registry place event).2 := by
  have begun : Spares part cpu world (world.begun registry place event) :=
    ⟨.refl cpu _, rfl, tellings_of_mute (Entry.mute_fired apart ..) _,
      firings_of_mute (Entry.mute_fired apart ..) _⟩
  rw [fire_eq]
  exact begun.trans (callEach apart delivers ..)

/-- Answering a request that concerns one processor spares the other one.

Proof: one case per request. The requests about both processors and those about a whole registry do
not concern one processor, so they need no answer. -/
theorem answer {wanted : Request} (concerns : wanted.Concerns place) (world : World H) :
    Spares part cpu world (world.answer deliver arrange wanted).2 := by
  cases wanted with
  | register registry seen name listener =>
    cases concerns
    exact spares_register part apart world registry name listener
  | remove registry seen name =>
    cases concerns
    exact spares_remove part apart world registry name
  | fire registry seen event =>
    cases concerns
    exact fire apart delivers arrange registry event world
  | notify listener seen event =>
    cases concerns
    exact (Spares.record world (Entry.mute_notified apart listener event)).trans
      (delivers listener event _)
  | clear detector seen =>
    cases concerns
    exact spares_clear part apart world detector
  | survey => exact .refl world
  | registerBoth registry name listener => exact concerns.elim
  | removeBoth registry name => exact concerns.elim
  | fireBoth registry event => exact concerns.elim
  | attach registry config => exact concerns.elim
  | openRegistry => exact concerns.elim
  | retire registry => exact concerns.elim

/-- A program that is confined to one processor spares the other one.

Proof: by induction on the program. Being confined says for each step what it may touch, and that
the rest of the program is confined as well. -/
theorem run {σ α : Type} {program : Program H σ α} (confined : program.Confined part place)
    (state : σ) (world : World H) :
    Spares part cpu world (program.run deliver arrange state world).2.2 := by
  induction program generalizing state world with
  | ret value => exact .refl world
  | panic cause => exact .refl world
  | look next inductionHypothesis => exact inductionHypothesis state (confined state) state world
  | change f next inductionHypothesis => exact inductionHypothesis confined (f state) world
  | ask next inductionHypothesis =>
    exact inductionHypothesis world.host (confined.2 world.host) state world
  | alter f next inductionHypothesis =>
    obtain ⟨_, elsewhere, rest⟩ := confined
    have altered : Spares part cpu world { world with host := f world.host } :=
      ⟨.refl cpu _, elsewhere cpu world.host apart, rfl, rfl⟩
    exact altered.trans (inductionHypothesis rest state _)
  | remark content next inductionHypothesis =>
    exact (Spares.record world ⟨rfl, rfl⟩).trans (inductionHypothesis confined state _)
  | request wanted next inductionHypothesis =>
    obtain ⟨concerns, _, rest⟩ := confined
    have answered : Spares part cpu world (world.answer deliver arrange wanted).2 :=
      answer apart delivers arrange concerns world
    simp only [Program.run]
    generalize world.answer deliver arrange wanted = result at answered ⊢
    obtain ⟨outcome, middle⟩ := result
    cases outcome with
    | done reply => exact answered.trans (inductionHypothesis reply (rest reply) state middle)
    | panicked cause => exact answered
    | exhausted => exact answered

end DeliversSparing

end World

section Apart

variable {part : Cpu → H.State → S} {setting : Setting H} (separates : setting.Separates part)
  {cpu place : Cpu} (apart : cpu ≠ place)

include separates apart

/-- Listeners that are told about the other processor spare this one, to any depth. -/
theorem Setting.Separates.delivers (depth : Nat) :
    World.DeliversSparing part cpu place (setting.deliver depth) := by
  induction depth with
  | zero =>
    intro listener event world
    cases listener with
    | detector number => exact World.spares_signal part apart world number event
    | hosted number => exact .refl world
  | succ depth inductionHypothesis =>
    intro listener event world
    cases listener with
    | detector number => exact World.spares_signal part apart world number event
    | hosted number =>
      exact inductionHypothesis.run apart setting.arrange (separates number place event) () world

end Apart

end Sh2Pair
