import Sh2Pair.Proofs.Course
import Sh2Pair.Proofs.Skipping
import Sh2Pair.Proofs.Wakes

/-!
# Detectors that wake once

A detector that is to wake only once leaves the registry of a processor when it wakes there, and
no later fire calls it. A fire that began earlier still does. If that fire reports polling, the
detector takes the processor to be polling again, and nothing that is registered can tell it
better: it polls for good. So the promise of a single wake-up is kept exactly as long as no
report is stale, which this module proves, and broken by the first one that is.
-/

namespace Sh2Pair

namespace Hub

/-- What a later hub holds of a detector is as before, as far as one processor is concerned,
except that a poll may have ended without a wake-up. -/
structure Unmoved (number : Nat) (cpu : Cpu) (before after : Hub) : Prop where
  present : number < after.detectors.size
  config : (after.detector number).config = (before.detector number).config
  home : (after.detector number).home = (before.detector number).home
  polling : (after.detector number).polling cpu = true → (before.detector number).polling cpu = true
  wakeups : ((after.detector number).watches.get cpu).wakeups =
    ((before.detector number).watches.get cpu).wakeups

variable {number : Nat} {cpu : Cpu} {before after : Hub}

/-- A detector does not move if no detector changes. -/
theorem Unmoved.of_eq (present : number < before.detectors.size)
    (same : after.detectors = before.detectors) : Unmoved number cpu before after := by
  have equal : after.detector number = before.detector number := by
    rw [detector, detector, same]
  exact ⟨same ▸ present, by rw [equal], by rw [equal], by rw [equal]; exact id, by rw [equal]⟩

/-- A detector does not move if another one is added. -/
theorem Unmoved.of_push (present : number < before.detectors.size) {added : Detector}
    (pushed : after.detectors = before.detectors.push added) :
    Unmoved number cpu before after := by
  have equal : after.detector number = before.detector number := by
    rw [detector, detector, pushed, Table.get_push _ present]
  refine ⟨?_, by rw [equal], by rw [equal], by rw [equal]; exact id, by rw [equal]⟩
  rw [pushed]
  exact Nat.lt_of_lt_of_le present (Table.size_le_size_set ..)

/-- Changing what some detector keeps about a processor is no move for another detector, for
another processor, or if it ends a poll at most.

Proof: the change is about another detector, about another processor, or it is mild. -/
theorem Unmoved.of_modify (present : number < before.detectors.size) (seen : Nat) (place : Cpu)
    (change : Watch → Watch)
    (mild : seen = number → place = cpu → ∀ watch,
      ((change watch).polling = true → watch.polling = true) ∧
        (change watch).wakeups = watch.wakeups)
    (changed : after.detectors = (before.modifyDetector seen fun detector =>
      { detector with watches := detector.watches.modify place change }).detectors) :
    Unmoved number cpu before after := by
  have equal : after.detector number = if number = seen
      then { before.detector seen with
        watches := (before.detector seen).watches.modify place change }
      else before.detector number := by
    rw [detector, changed]
    exact before.detector_modifyDetector seen number _
  have stays : number < after.detectors.size := by
    rw [changed]
    exact Nat.lt_of_lt_of_le present (Table.size_le_size_set ..)
  by_cases own : number = seen
  · subst own
    rw [if_pos rfl] at equal
    have watched : (after.detector number).watches.get cpu =
        if cpu = place then change ((before.detector number).watches.get place)
        else (before.detector number).watches.get cpu := by
      rw [equal]
      exact Pair.get_set ..
    by_cases here : cpu = place
    · subst here
      rw [if_pos rfl] at watched
      obtain ⟨polls, wakes⟩ := mild rfl rfl ((before.detector number).watches.get cpu)
      refine ⟨stays, by rw [equal], by rw [equal], ?_, by rw [watched, wakes]⟩
      rw [Detector.polling, watched]
      exact polls
    · rw [if_neg here] at watched
      refine ⟨stays, by rw [equal], by rw [equal], ?_, by rw [watched]⟩
      rw [Detector.polling, watched]
      exact id
  · rw [if_neg own] at equal
    exact ⟨stays, by rw [equal], by rw [equal], by rw [equal]; exact id, by rw [equal]⟩

end Hub

namespace World

variable {H : Host}

/-- What is known of a detector that is to wake once, about a processor, from the entries since
it was attached: where it can be registered, how often it woke, and that everything it did after
a wake-up began with a report that was stale. -/
structure Ending (number home : Nat) (watched : Prop) (cpu : Cpu) (world : World H)
    (recent : List (Entry H.Note)) : Prop where
  present : number < world.hub.detectors.size
  once : (world.hub.detector number).config.oneShot = true
  attached : (world.hub.detector number).home = home
  place : ∀ registry seen name,
    world.hub.lookup registry seen name = some (.detector number) →
      registry = home ∧ name = Detector.name
  gone : recent.any (Entry.wakes number cpu) = true →
    ∀ registry name, world.hub.lookup registry cpu name ≠ some (.detector number)
  wakeups : ((world.hub.detector number).watches.get cpu).wakeups =
    recent.countP (Entry.wakes number cpu)
  polls : (world.hub.detector number).polling cpu = true →
    recent.any (Entry.wakes number cpu) = true →
      comesAfter (Entry.wakes number cpu) (Entry.starts number cpu) recent = true
  again : comesAfter (Entry.wakes number cpu) (Entry.wakes number cpu) recent = true →
    comesAfter (Entry.wakes number cpu) (Entry.starts number cpu) recent = true
  passed : watched → comesAfter (Entry.wakes number cpu) (Entry.passes cpu) recent = true →
    comesAfter (Entry.wakes number cpu) (Entry.starts number cpu) recent = true
  stale : comesAfter (Entry.wakes number cpu) (Entry.starts number cpu) recent = true ↔
    Stale number cpu recent

namespace Ending

variable {number home : Nat} {watched : Prop} {cpu : Cpu}

/-- What concerns neither the detector nor its scheduler changes nothing that is known.

Proof: what is entered does not concern the detector, so it adds nothing to any of the counts and
orders that are known, and what is known does not depend on anything else that changes. -/
theorem outside {before after : World H} {recent : List (Entry H.Note)}
    (held : Ending number home watched cpu before recent) (entries : List (Entry H.Note))
    (quiet : ∀ entry ∈ entries, entry.concerns number cpu = false)
    (unmoved : before.hub.Unmoved number cpu after.hub)
    (lookups : ∀ registry seen name,
      after.hub.lookup registry seen name = some (.detector number) →
        before.hub.lookup registry seen name = some (.detector number)) :
    Ending number home watched cpu after (entries ++ recent) := by
  have wakes : ∀ entry ∈ entries, entry.wakes number cpu = false :=
    fun entry inside => Entry.wakes_eq_false (quiet entry inside)
  have starts : ∀ entry ∈ entries, entry.starts number cpu = false :=
    fun entry inside => Entry.starts_eq_false (quiet entry inside)
  have passes : ∀ entry ∈ entries, entry.passes cpu = false :=
    fun entry inside => Entry.passes_eq_false (quiet entry inside)
  have none : entries.countP (Entry.wakes number cpu) = 0 :=
    List.countP_eq_zero.mpr fun entry inside => by simp [wakes entry inside]
  constructor
  case present => exact unmoved.present
  case once => exact (congrArg PollConfig.oneShot unmoved.config).trans held.once
  case attached => exact unmoved.home.trans held.attached
  case place =>
    intro registry seen name found
    exact held.place registry seen name (lookups registry seen name found)
  case gone =>
    intro woken registry name found
    rw [any_append_of_quiet wakes] at woken
    exact held.gone woken registry name (lookups registry cpu name found)
  case wakeups => rw [unmoved.wakeups, held.wakeups, List.countP_append, none, Nat.zero_add]
  case polls =>
    intro polls woken
    rw [any_append_of_quiet wakes] at woken
    exact comesAfter_append entries (held.polls (unmoved.polling polls) woken)
  case again =>
    intro twice
    rw [comesAfter_append_of_quiet wakes] at twice
    exact comesAfter_append entries (held.again twice)
  case passed =>
    intro scheduled passed
    rw [comesAfter_append_of_quiet passes] at passed
    exact comesAfter_append entries (held.passed scheduled passed)
  case stale =>
    rw [comesAfter_append_of_quiet starts, stale_append_of_quiet quiet]
    exact held.stale

section Hearing

variable {world after : World H} {recent : List (Entry H.Note)} {event : Event} (fire : Nat)
  (held : Ending number home watched cpu world recent)
  (present : number < after.hub.detectors.size)
  (heard : after.hub.detector number = (world.hub.detector number).receive cpu event)
  (lookups : ∀ registry seen name,
    after.hub.lookup registry seen name = some (.detector number) →
      world.hub.lookup registry seen name = some (.detector number))

include heard in
/-- What a detector keeps after an event is what its reaction made of it. -/
theorem watch_of_heard : (after.hub.detector number).watches.get cpu =
    ((world.hub.detector number).watches.get cpu).after
      ((world.hub.detector number).reaction cpu event) := by
  rw [heard]
  exact Pair.get_set_self ..

include held present heard lookups

/-- An event that a detector ignores. A stale report is ignored only while the detector polls,
and then one was stale before.

Proof: only the field about stale reports asks for an argument. A stale report that is delivered now
was ignored because the detector polls, and it polls only because of an earlier stale report. -/
theorem ignore (reacted : (world.hub.detector number).reaction cpu event = .ignored) :
    Ending number home watched cpu after
      (.called fire (.detector number) cpu event :: recent) := by
  have watch : (after.hub.detector number).watches.get cpu =
      ((world.hub.detector number).watches.get cpu).after
      ((world.hub.detector number).reaction cpu event) := watch_of_heard heard
  rw [reacted] at watch
  have polling : (after.hub.detector number).polling cpu =
      (world.hub.detector number).polling cpu := congrArg Watch.polling watch
  constructor
  case present => exact present
  case once => rw [heard]; exact held.once
  case attached => rw [heard]; exact held.attached
  case place =>
    intro registry seen name found
    exact held.place registry seen name (lookups registry seen name found)
  case gone =>
    intro woken registry name found
    exact held.gone woken registry name (lookups registry cpu name found)
  case wakeups => rw [watch]; exact held.wakeups
  case polls =>
    intro polls woken
    rw [polling] at polls
    exact held.polls polls woken
  case again => exact held.again
  case passed => exact held.passed
  case stale =>
    refine held.stale.trans ⟨Stale.append [_], ?_⟩
    rintro ⟨earlier, began, delivered⟩
    rcases (comesAfter_cons _).mp delivered with ⟨report, woken⟩ | delivered
    · -- The detector polls already, or it would have reacted to the report.
      have isReport : event = .startPolling := by
        simp only [Entry.reports, Bool.and_eq_true, decide_eq_true_eq] at report
        exact report.2
      have polls : (world.hub.detector number).polling cpu = true := by
        by_contra idle
        have started : Watch.reaction (world.hub.detector number).config
            ((world.hub.detector number).watches.get cpu) event = .started :=
          (Watch.reaction_eq_started_iff (world.hub.detector number).config
            ((world.hub.detector number).watches.get cpu) event).mpr
              ⟨isReport, Bool.eq_false_iff.mpr idle⟩
        exact Reaction.noConfusion (reacted.symm.trans started)
      exact held.stale.mp (held.polls polls woken)
    · exact ⟨earlier, began, delivered⟩

/-- A report with which a poll begins. If the detector woke before, the report is stale.

Proof: all fields go on as before, except that a poll begins. If the detector woke before, the fire
of this report began before that, as the last hypothesis says, and this is what makes the report
stale. -/
theorem start (reacted : (world.hub.detector number).reaction cpu event = .started)
    (began : recent.any (Entry.wakes number cpu) = true → event = .startPolling →
      comesAfter (Entry.begins fire cpu) (Entry.wakes number cpu) recent = true) :
    Ending number home watched cpu after
      (.pollStarted number cpu :: .called fire (.detector number) cpu event :: recent) := by
  have watch : (after.hub.detector number).watches.get cpu =
      ((world.hub.detector number).watches.get cpu).after
      ((world.hub.detector number).reaction cpu event) := watch_of_heard heard
  rw [reacted] at watch
  have isReport : event = .startPolling := ((Watch.reaction_eq_started_iff _ _ event).mp reacted).1
  subst isReport
  have starts : (Entry.pollStarted number cpu : Entry H.Note).starts number cpu = true := by
    simp [Entry.starts]
  have reports : (Entry.called fire (.detector number) cpu .startPolling :
      Entry H.Note).reports fire number cpu = true := by
    simp [Entry.reports]
  have after_wake : recent.any (Entry.wakes number cpu) = true →
      comesAfter (Entry.wakes number cpu) (Entry.starts number cpu)
        (.pollStarted number cpu :: .called fire (.detector number) cpu .startPolling ::
          recent) = true :=
    fun woken => (comesAfter_cons _).mpr (.inl ⟨starts, woken⟩)
  constructor
  case present => exact present
  case once => rw [heard]; exact held.once
  case attached => rw [heard]; exact held.attached
  case place =>
    intro registry seen name found
    exact held.place registry seen name (lookups registry seen name found)
  case gone =>
    intro woken registry name found
    exact held.gone woken registry name (lookups registry cpu name found)
  case wakeups => rw [watch]; exact held.wakeups
  case polls => exact fun _ woken => after_wake woken
  case again => exact fun twice => comesAfter_append [_, _] (held.again twice)
  case passed =>
    intro scheduled passed
    exact comesAfter_append [_, _] (held.passed scheduled passed)
  case stale =>
    constructor
    · intro startedAgain
      rcases (comesAfter_cons _).mp startedAgain with ⟨_, woken⟩ | startedAgain
      · exact ⟨fire, comesAfter_append [_, _] (began woken rfl),
          comesAfter_append [_] ((comesAfter_cons _).mpr (.inl ⟨reports, woken⟩))⟩
      · exact Stale.append [_, _] (held.stale.mp startedAgain)
    · exact fun stale => after_wake stale.woken

/-- An event with which a poll ends. If the detector woke before, its poll was the work of a
stale report.

Proof: the wake-up is counted and unregisters the detector. If there was one before, the poll that
ends now began after it, which by the invariant was the work of a stale report. -/
theorem wake (reacted : (world.hub.detector number).reaction cpu event = .woken)
    (unregistered : ∀ registry name,
      after.hub.lookup registry cpu name ≠ some (.detector number)) :
    Ending number home watched cpu after
      (.pollEnded number cpu event :: .called fire (.detector number) cpu event :: recent) := by
  have watch : (after.hub.detector number).watches.get cpu =
      ((world.hub.detector number).watches.get cpu).after
      ((world.hub.detector number).reaction cpu event) := watch_of_heard heard
  rw [reacted] at watch
  obtain ⟨noReport, _, polled⟩ := (Watch.reaction_eq_woken_iff _ _ event).mp reacted
  have wakes : (Entry.pollEnded number cpu event : Entry H.Note).wakes number cpu = true := by
    simp [Entry.wakes]
  have silent : ∀ earlier, (Entry.called fire (.detector number) cpu event :
      Entry H.Note).reports earlier number cpu = false := by
    simp [Entry.reports, noReport]
  constructor
  case present => exact present
  case once => rw [heard]; exact held.once
  case attached => rw [heard]; exact held.attached
  case place =>
    intro registry seen name found
    exact held.place registry seen name (lookups registry seen name found)
  case gone => exact fun _ => unregistered
  case wakeups =>
    rw [watch, List.countP_cons_of_pos wakes]
    exact congrArg (· + 1) held.wakeups
  case polls =>
    intro polls
    rw [Detector.polling, watch] at polls
    cases polls
  case again =>
    intro twice
    rcases (comesAfter_cons _).mp twice with ⟨_, woken⟩ | twice
    · exact comesAfter_append [_, _] (held.polls polled woken)
    · exact comesAfter_append [_, _] (held.again twice)
  case passed =>
    intro scheduled passed
    exact comesAfter_append [_, _] (held.passed scheduled passed)
  case stale =>
    refine held.stale.trans ⟨Stale.append [_, _], ?_⟩
    rintro ⟨earlier, _, delivered⟩
    rw [comesAfter_cons_of_not rfl, comesAfter_cons_of_not (silent earlier)] at delivered
    exact held.stale.mp (held.polls polled (any_of_comesAfter delivered).1)

end Hearing

/-- A detector that is called keeps to what is known of it, if a report that it hears after a
wake-up belongs to a fire that began before.

Proof: by the reaction of the detector: `ignore`, `start`, or `wake`. If it wakes, it removes what
is registered under its name in its home, which is where it was attached. -/
theorem hear (number home : Nat) (watched : Prop) (cpu : Cpu) (world : World H) (fire : Nat)
    (event : Event) :
    ∃ entries,
      ((world.record (.called fire (.detector number) cpu event)).signal number cpu
        event).journal = entries ++ world.journal ∧
      ∀ recent, Ending number home watched cpu world recent →
        (recent.any (Entry.wakes number cpu) = true → event = .startPolling →
          comesAfter (Entry.begins fire cpu) (Entry.wakes number cpu) recent = true) →
        Ending number home watched cpu
          ((world.record (.called fire (.detector number) cpu event)).signal number cpu event)
          (entries ++ recent) := by
  have present : ∀ recent, Ending number home watched cpu world recent → number <
      ((world.record (.called fire (.detector number) cpu event)).signal number cpu
        event).hub.detectors.size := by
    intro recent held
    rw [signal_detectors]
    exact Nat.lt_of_lt_of_le held.present (Table.size_le_size_set ..)
  have heard : ((world.record (.called fire (.detector number) cpu event)).signal number cpu
      event).hub.detector number = (world.hub.detector number).receive cpu event := by
    rw [Hub.detector, signal_detectors]
    exact (world.hub.detector_modifyDetector number number _).trans (if_pos rfl)
  have lookups : ∀ registry seen name,
      ((world.record (.called fire (.detector number) cpu event)).signal number cpu
        event).hub.lookup registry seen name = some (.detector number) →
      world.hub.lookup registry seen name = some (.detector number) :=
    fun registry seen name found => lookup_of_signal (world.record _) found
  rcases signal_cases (world.record (.called fire (.detector number) cpu event)) number cpu event
    with ⟨reacted, after⟩ | ⟨reacted, after⟩ | ⟨reacted, stays, after⟩ | ⟨reacted, _, _, after⟩
  · refine ⟨[.called fire (.detector number) cpu event], by rw [after]; rfl, ?_⟩
    exact fun recent held _ => ignore fire held (present recent held) heard lookups reacted
  · refine ⟨[.pollStarted number cpu, .called fire (.detector number) cpu event],
      by rw [after]; rfl, ?_⟩
    exact fun recent held began => start fire held (present recent held) heard lookups reacted began
  · refine ⟨[.pollEnded number cpu event, .called fire (.detector number) cpu event],
      by rw [after]; rfl, ?_⟩
    intro recent held _
    refine wake fire held (present recent held) heard lookups reacted ?_
    intro registry name found
    obtain ⟨rfl, rfl⟩ := held.place registry cpu name (lookups registry cpu name found)
    rcases stays with often | absent
    · exact Bool.noConfusion (often.symm.trans held.once)
    · have registered : world.hub.lookup registry cpu Detector.name = some (.detector number) :=
        lookups _ cpu _ found
      rw [hub_record, held.attached, Roster.has_eq_isSome_find?] at absent
      rw [Hub.lookup] at registered
      rw [registered] at absent
      cases absent
  · refine ⟨[.removed (world.hub.detector number).home cpu Detector.name,
      .pollEnded number cpu event, .called fire (.detector number) cpu event],
      by rw [after]; rfl, ?_⟩
    intro recent held _
    have woken : Ending number home watched cpu
        ((world.record (.called fire (.detector number) cpu event)).signal number cpu event)
        (.pollEnded number cpu event :: .called fire (.detector number) cpu event :: recent) :=
      wake fire held (present recent held) heard lookups reacted (by
        intro registry name found
        obtain ⟨rfl, rfl⟩ := held.place registry cpu name (lookups registry cpu name found)
        rw [after, hub_record, lookup_struck, hub_record, held.attached,
          if_pos ⟨rfl, rfl, rfl⟩] at found
        cases found)
    have quiet : ∀ entry ∈ [Entry.removed (world.hub.detector number).home cpu Detector.name],
        (entry : Entry H.Note).concerns number cpu = false := by
      intro entry inside
      rw [List.mem_singleton.mp inside]
      rfl
    exact woken.outside _ quiet (.of_eq woken.present rfl) (fun _ _ _ found => found)

end Ending

/-- From an earlier to a later world what is known of a detector is kept, provided that nobody
registers the detector or tells it about events on his own. -/
def Upholds (number home : Nat) (watched : Prop) (cpu : Cpu) (before after : World H) : Prop :=
  ∃ fresh, after.journal = fresh ++ before.journal ∧
    ((∀ entry ∈ fresh, entry.meddles number = false) → ∀ past,
      Ending number home watched cpu before past →
        Ending number home watched cpu after (fresh ++ past))

namespace Upholds

variable {number home : Nat} {watched : Prop} {cpu : Cpu}

/-- What concerns neither the detector nor its scheduler upholds what is known. -/
theorem outside {before after : World H} (entries : List (Entry H.Note))
    (journal : after.journal = entries ++ before.journal)
    (quiet : ∀ entry ∈ entries, entry.concerns number cpu = false)
    (unmoved : number < before.hub.detectors.size → before.hub.Unmoved number cpu after.hub)
    (lookups : (∀ entry ∈ entries, entry.meddles number = false) → ∀ registry seen name,
      after.hub.lookup registry seen name = some (.detector number) →
        before.hub.lookup registry seen name = some (.detector number)) :
    Upholds number home watched cpu before after := by
  refine ⟨entries, journal, ?_⟩
  intro apart past held
  exact held.outside entries quiet (unmoved held.present) (lookups apart)

/-- A single entry that concerns nothing, and with which no detector changes. -/
theorem aside {before after : World H} (entry : Entry H.Note)
    (journal : after.journal = entry :: before.journal)
    (quiet : entry.concerns number cpu = false)
    (same : after.hub.detectors = before.hub.detectors)
    (lookups : entry.meddles number = false → ∀ registry seen name,
      after.hub.lookup registry seen name = some (.detector number) →
        before.hub.lookup registry seen name = some (.detector number)) :
    Upholds number home watched cpu before after := by
  refine outside [entry] journal ?_ (fun present => .of_eq present same) ?_
  · intro seen inside
    exact List.mem_singleton.mp inside ▸ quiet
  · intro apart
    exact lookups (apart entry (List.mem_singleton_self _))

/-- A world upholds what is known about itself. -/
theorem refl (world : World H) : Upholds number home watched cpu world world :=
  ⟨[], rfl, fun _ _ held => held⟩

/-- What two stretches uphold, one after the other, both together uphold. -/
theorem trans {start middle finish : World H} (first : Upholds number home watched cpu start middle)
    (second : Upholds number home watched cpu middle finish) :
    Upholds number home watched cpu start finish := by
  obtain ⟨early, journal, before⟩ := first
  obtain ⟨late, continued, after⟩ := second
  refine ⟨late ++ early, by rw [continued, journal, List.append_assoc], ?_⟩
  intro apart past held
  have between : Ending number home watched cpu middle (early ++ past) :=
    before (fun entry inside => apart entry (List.mem_append_right _ inside)) past held
  rw [List.append_assoc]
  exact after (fun entry inside => apart entry (List.mem_append_left _ inside)) _ between

/-- A detector is told about an event, and it is another detector or another processor.

Proof: the detector in question is not moved, and none of the entries concerns it for this
processor. -/
theorem tellOther (world : World H) {seen : Nat} {place : Cpu} (event : Event)
    {entry : Entry H.Note} (quiet : entry.concerns number cpu = false)
    (other : seen = number → place ≠ cpu) :
    Upholds number home watched cpu world ((world.record entry).signal seen place event) := by
  have unmoved : number < world.hub.detectors.size →
      world.hub.Unmoved number cpu ((world.record entry).signal seen place event).hub := by
    intro present
    refine .of_modify present seen place _ ?_
      (signal_detectors (world.record entry) seen place event)
    intro own here
    exact absurd here (other own)
  have lookups : ∀ registry place' name,
      ((world.record entry).signal seen place event).hub.lookup registry place' name =
        some (.detector number) →
      world.hub.lookup registry place' name = some (.detector number) :=
    fun _ _ _ found => lookup_of_signal (world.record entry) found
  have apart : ∀ what : Entry H.Note, what = .pollStarted seen place ∨
      what = .pollEnded seen place event ∨
      what = .removed (world.hub.detector seen).home place Detector.name ∨ what = entry →
      what.concerns number cpu = false := by
    rintro what (rfl | rfl | rfl | rfl)
    · simpa [Entry.concerns] using other
    · simpa [Entry.concerns] using other
    · rfl
    · exact quiet
  rcases signal_cases (world.record entry) seen place event with
    ⟨_, after⟩ | ⟨_, after⟩ | ⟨_, _, after⟩ | ⟨_, _, _, after⟩
  · refine outside [entry] (by rw [after]; rfl) ?_ unmoved (fun _ => lookups)
    exact fun what inside => apart what (by simp_all)
  · refine outside [.pollStarted seen place, entry] (by rw [after]; rfl) ?_ unmoved
      (fun _ => lookups)
    exact fun what inside => apart what (by simp at inside; tauto)
  · refine outside [.pollEnded seen place event, entry] (by rw [after]; rfl) ?_ unmoved
      (fun _ => lookups)
    exact fun what inside => apart what (by simp at inside; tauto)
  · refine outside [.removed (world.hub.detector seen).home place Detector.name,
      .pollEnded seen place event, entry] (by rw [after]; rfl) ?_ unmoved (fun _ => lookups)
    exact fun what inside => apart what (by simp at inside; tauto)

/-- A fire calls the detector about the processor. What was known when the fire began decides: a
detector that had woken by then was not registered, so it is not called. One that woke since, if
the call reports polling, is called by a fire that began before.

Proof: a fire that calls the detector found it registered when it began, so the detector had not
woken by then. If it has woken since, the wake-up comes after the beginning of the fire, which
stands in the journal in front of everything since. -/
theorem callOwn {origin world : World H} {registry : Nat} {event : Event}
    (member : .detector number ∈ (origin.hub.roster registry cpu).listeners)
    (since : (origin.begun registry cpu event).journal <:+ world.journal)
    (kept : Upholds number home watched cpu origin world) :
    Upholds number home watched cpu origin
      ((world.record (.called origin.fires (.detector number) cpu event)).signal number cpu
        event) := by
  obtain ⟨fresh, journal, upheld⟩ := kept
  obtain ⟨entries, continued, heard⟩ :=
    Ending.hear number home watched cpu world origin.fires event
  refine ⟨entries ++ fresh, by rw [continued, journal, List.append_assoc], ?_⟩
  intro apart past held
  have now : Ending number home watched cpu world (fresh ++ past) :=
    upheld (fun entry inside => apart entry (List.mem_append_right _ inside)) past held
  rw [List.append_assoc]
  refine heard _ now ?_
  intro woken report
  subst report
  obtain ⟨newer, split⟩ := since
  have begun : fresh = newer ++ [.fired origin.fires registry cpu .startPolling
      (origin.hub.roster registry cpu).listeners.length] := by
    rw [journal, journal_begun, ← List.singleton_append, ← List.append_assoc] at split
    exact (List.append_cancel_right split).symm
  have before : past.any (Entry.wakes number cpu) = false := by
    refine Bool.eq_false_iff.mpr fun early => ?_
    obtain ⟨name, registered⟩ := (origin.hub.mem_listeners_iff registry cpu _).mp member
    exact held.gone early registry name registered
  subst begun
  rw [List.append_assoc] at woken ⊢
  rw [List.any_append, List.any_append, before, Bool.or_false] at woken
  have late : newer.any (Entry.wakes number cpu) = true := by
    simpa [Entry.wakes] using woken
  exact comesAfter_of_append late (by simp [Entry.begins])

/-- Another detector is attached. It is registered under a number of its own; to register the one in
question in its stead would be to meddle with it. -/
theorem furnish (world : World H) (registry : Nat) (config : PollConfig)
    (free : ∀ place, (world.hub.roster registry place).has Detector.name = false) :
    Upholds number home watched cpu world
      (((world.enlistedBoth registry Detector.name (.detector world.hub.detectors.size)
        free).record (.registeredBoth registry Detector.name
          (.detector world.hub.detectors.size))).furnished registry config) := by
  refine outside [_] rfl ?_ (fun present => .of_push present rfl) ?_
  · intro entry inside
    exact List.mem_singleton.mp inside ▸ rfl
  · intro apart seen place sought found
    have apart : Entry.meddles number (Entry.registeredBoth registry Detector.name
        (Listener.detector world.hub.detectors.size)) = false :=
      apart _ (List.mem_singleton_self _)
    have enlisted : (if seen = registry ∧ sought = Detector.name
        then some (Listener.detector world.hub.detectors.size)
        else world.hub.lookup seen place sought) = some (.detector number) :=
      (world.lookup_enlistedBoth free seen place sought).symm.trans found
    split at enlisted
    · injection enlisted with same
      injection same with same
      simp [Entry.meddles, same] at apart
    · exact enlisted

/-- Some detector is told about an event without a fire. To tell the one in question is to meddle
with it. -/
theorem notify (world : World H) (seen : Nat) (place : Cpu) (event : Event) :
    Upholds number home watched cpu world
      ((world.record (.notified (.detector seen) place event)).signal seen place event) := by
  by_cases own : seen = number
  · obtain ⟨newer, split⟩ :=
      signal_suffix (world.record (.notified (.detector seen) place event)) seen place event
    refine ⟨newer ++ [.notified (.detector seen) place event], ?_, ?_⟩
    · rw [← split, List.append_assoc]
      rfl
    · intro apart
      have meddled :
          Entry.meddles number (Entry.notified (Listener.detector seen) place event) = false :=
        apart (.notified (.detector seen) place event) (by simp)
      simp [Entry.meddles, own] at meddled
  · exact tellOther world event rfl (fun same => absurd same own)

/-- A fire calls one of the listeners that were registered when it began. -/
theorem call {origin world : World H} {registry : Nat} {place : Cpu} {event : Event}
    {listener : Listener} (member : listener ∈ (origin.hub.roster registry place).listeners)
    (since : (origin.begun registry place event).journal <:+ world.journal)
    (kept : Upholds number home watched cpu origin world) :
    Upholds number home watched cpu origin
      ((world.record (.called origin.fires listener place event)).told listener place event) := by
  cases listener with
  | hosted seen =>
    exact trans kept (aside _ rfl rfl rfl (fun _ _ _ _ found => found))
  | detector seen =>
    by_cases own : seen = number ∧ place = cpu
    · obtain ⟨rfl, rfl⟩ := own
      exact callOwn member since kept
    · refine trans kept (tellOther world event ?_ ?_)
      · simpa [Entry.concerns] using own
      · exact fun same here => own ⟨same, here⟩

/-- Nothing that can happen disturbs what is known of the detector.

Proof: one case per kind of step. Most of them concern other listeners or processors. Registering
the detector again, or telling it about an event without a fire, is to meddle with it, which is
excluded. -/
theorem steady (number home : Nat) (watched : Prop) (cpu : Cpu) :
    Steady (Upholds (H := H) number home watched cpu) where
  refl := refl
  trans := trans
  grows := by
    rintro start finish ⟨fresh, journal, _⟩
    exact ⟨fresh, journal.symm⟩
  host world state := by
    refine outside [] rfl ?_ (fun present => .of_eq present rfl) (fun _ _ _ _ found => found)
    intro entry inside
    cases inside
  mark world entry marks := by
    refine aside entry rfl ?_ rfl (fun _ _ _ _ found => found)
    cases entry with
    | skipped => cases marks
    | called => cases marks
    | pollStarted => cases marks
    | pollEnded => cases marks
    | _ => rfl
  enlist world registry cpu name listener free := by
    refine aside _ rfl rfl rfl ?_
    intro apart seen place sought found
    rw [hub_record, lookup_enlisted] at found
    split at found
    · injection found with same
      simp [same, Entry.meddles] at apart
    · exact found
  enlistBoth world registry name listener free := by
    refine aside _ rfl rfl rfl ?_
    intro apart seen place sought found
    rw [hub_record, lookup_enlistedBoth] at found
    split at found
    · injection found with same
      simp [same, Entry.meddles] at apart
    · exact found
  strike world registry cpu name _ := by
    refine aside _ rfl rfl rfl ?_
    intro _ seen place sought found
    rw [hub_record, lookup_struck] at found
    split at found
    · cases found
    · exact found
  furnish := furnish
  clear world seen place := by
    refine outside [_] rfl ?_ ?_ (fun _ _ _ _ found => found)
    · intro entry inside
      exact List.mem_singleton.mp inside ▸ rfl
    · intro present
      refine .of_modify present seen place Watch.clear ?_ rfl
      intro _ _ watch
      exact ⟨fun polls => Bool.noConfusion polls, rfl⟩
  openRegistry world := by
    refine aside _ rfl rfl rfl ?_
    intro _ seen place sought found
    exact (world.lookup_openRegistry seen place sought).symm.trans found
  retire world registry := by
    refine aside _ rfl rfl rfl ?_
    intro _ seen place sought found
    rw [lookup_retire] at found
    split at found
    · cases found
    · exact found
  begin world registry place event := aside _ rfl rfl rfl (fun _ _ _ _ found => found)
  notify := notify
  call := call

/-- A scheduler that has the detector passes over a turn only while it polls. -/
theorem passes (number home : Nat) (cpu : Cpu) (terms : SliceConfig × Nat × Option Nat) :
    Machine.PassesWithin (Upholds (H := H) number home (terms.2.2 = some number) cpu) terms := by
  intro scheduler world place cycles same skips
  by_cases here : place = cpu
  · subst here
    refine ⟨[.skipped place cycles], rfl, ?_⟩
    intro _ past held
    refine ⟨held.present, held.once, held.attached, held.place, held.gone, held.wakeups,
      held.polls, held.again, ?_, held.stale⟩
    intro watched passed
    rcases (comesAfter_cons _).mp passed with ⟨_, woken⟩ | passed
    · have poller : scheduler.poller = some number :=
        (congrArg (fun terms => terms.2.2) same).trans watched
      rw [Scheduler.skips, poller, Bool.and_eq_true] at skips
      exact held.polls skips.2 woken
    · exact held.passed watched passed
  · refine aside _ rfl ?_ rfl (fun _ _ _ _ found => found)
    simpa [Entry.concerns] using here

end Upholds

/-- When a detector has just been attached, nothing has happened to it.

Proof: the journal since then is empty, so there is nothing to order or to count. The detector is
registered where it was attached and nowhere else, since its number is new. -/
theorem Ending.of_attach {world built : World H} {home number : Nat} {config : PollConfig}
    (attached : world.attach home config = (.ok number, built)) (once : config.oneShot = true)
    (absent : ∀ registry cpu name,
      world.hub.lookup registry cpu name ≠ some (.detector number))
    (watched : Prop) (cpu : Cpu) : Ending number home watched cpu built [] := by
  obtain ⟨fresh, present, made⟩ := detector_of_attach attached
  constructor
  case present => exact present
  case once => rw [made]; exact once
  case attached => rw [made]; rfl
  case place =>
    intro registry seen name found
    rcases world.attach_cases home config with ⟨free, added⟩ | ⟨_, _, refused⟩
    · rw [added] at attached
      injection attached with _ after
      subst after
      have enlisted : (if registry = home ∧ name = Detector.name
          then some (Listener.detector world.hub.detectors.size)
          else world.hub.lookup registry seen name) = some (.detector number) :=
        (world.lookup_enlistedBoth free registry seen name).symm.trans found
      split at enlisted
      · assumption
      · exact absurd enlisted (absent registry seen name)
    · rw [refused] at attached
      cases attached
  case gone =>
    intro woken
    cases woken
  case wakeups => rw [made, Detector.fresh, Pair.get_both]; rfl
  case polls =>
    intro _ woken
    cases woken
  case again => exact id
  case passed => exact fun _ => id
  case stale =>
    constructor
    · intro started
      cases started
    · intro stale
      cases stale.woken

end World

namespace Machine

variable {ε : Type}

/-- What a detector that wakes once owes a processor, by the entries since it was attached: one
wake-up at most, and no poll after it. -/
structure EndsForGood (number : Nat) (cpu : Cpu) (machine : Machine H ε)
    (recent : List (Entry H.Note)) : Prop where
  once : ((machine.world.hub.detector number).watches.get cpu).wakeups ≤ 1
  idle : recent.any (Entry.wakes number cpu) = true →
    (machine.world.hub.detector number).polling cpu = false
  /-- At no moment after the wake-up did a poll begin. -/
  silent : comesAfter (Entry.wakes number cpu) (Entry.starts number cpu) recent = false
  /-- After the wake-up no turn was passed over by a scheduler that has the detector. -/
  unskipped : machine.scheduler.poller = some number →
    comesAfter (Entry.wakes number cpu) (Entry.passes cpu) recent = false

/-- Take a detector that is to wake once and is registered by nobody but when it is attached, and
that hears of events through fires only. Once it woke for a processor, it is not registered for
it. Its poll has ended for good exactly if no report of polling was stale: none that began
before the wake-up was delivered after it.

Proof: the invariant `World.Ending` holds when the detector is attached, and every step of a course
upholds it. It says that polling after a wake-up, a second wake-up, or a turn passed over after it
goes back to a poll that began after it, and that there is such a poll exactly if a report was
stale. -/
theorem endsForGood_iff_not_stale (setting : Setting H) (depth : Nat) {before : World H}
    {start : Machine H ε} {home number : Nat} {config : PollConfig}
    (attached : before.attach home config = (.ok number, start.world))
    (once : config.oneShot = true)
    (absent : ∀ registry cpu name,
      before.hub.lookup registry cpu name ≠ some (.detector number))
    (moves : List (Move H ε)) :
    let machine := play setting depth moves start
    ∃ recent, machine.world.journal = recent ++ start.world.journal ∧
      ((∀ entry ∈ recent, entry.meddles number = false) → ∀ cpu,
        (recent.any (Entry.wakes number cpu) = true → ∀ registry name,
          machine.world.hub.lookup registry cpu name ≠ some (.detector number)) ∧
        (EndsForGood number cpu machine recent ↔ ¬ Stale number cpu recent)) := by
  intro machine
  have followed : ∀ cpu, Follows
      (World.Upholds number home (start.scheduler.poller = some number) cpu) start machine :=
    fun cpu => Follows.play (World.Upholds.steady number home _ cpu) setting depth start moves
      (World.Upholds.passes number home cpu start.scheduler.terms)
  obtain ⟨recent, journal, _⟩ := (followed .master).kept
  refine ⟨recent, journal, ?_⟩
  intro apart cpu
  obtain ⟨entries, same, upheld⟩ := (followed cpu).kept
  obtain rfl : entries = recent := List.append_cancel_right (same.symm.trans journal)
  have held : World.Ending number home (start.scheduler.poller = some number) cpu machine.world
      (entries ++ []) := upheld apart [] (World.Ending.of_attach attached once absent _ cpu)
  rw [List.append_nil] at held
  have poller : machine.scheduler.poller = start.scheduler.poller :=
    Scheduler.poller_eq_of_terms (followed cpu).terms
  refine ⟨held.gone, ?_, ?_⟩
  · intro ends stale
    exact Bool.noConfusion (ends.silent.symm.trans (held.stale.mpr stale))
  · intro timely
    have silent : comesAfter (Entry.wakes number cpu) (Entry.starts number cpu) entries = false :=
      Bool.eq_false_iff.mpr fun started => timely (held.stale.mp started)
    have never : ∀ {later}, (comesAfter (Entry.wakes number cpu) later entries = true →
        comesAfter (Entry.wakes number cpu) (Entry.starts number cpu) entries = true) →
        comesAfter (Entry.wakes number cpu) later entries = false :=
      fun implies => Bool.eq_false_iff.mpr fun happened =>
        Bool.noConfusion (silent.symm.trans (implies happened))
    constructor
    case once => rw [held.wakeups]; exact countP_le_one (never held.again)
    case idle =>
      intro woken
      exact Bool.eq_false_iff.mpr fun polls =>
        Bool.noConfusion (silent.symm.trans (held.polls polls woken))
    case silent => exact silent
    case unskipped =>
      intro scheduled
      exact never (held.passed (poller.symm.trans scheduled))

/-- A scheduler whose detector has just been attached to the first registry, to wake once, with
`comm`. -/
def equipped (before : World ⟨Unit, Unit⟩) : Machine ⟨Unit, Unit⟩ Unit where
  scheduler := .fresh .standard 0 (some 0)
  contexts := SliceConfig.standard.contexts
  rig := ()
  world := (before.attach 0 ⟨true, [.comm]⟩).2

/-- The surroundings fire an event for the master in the first registry. -/
def fireMaster (event : Event) : Move ⟨Unit, Unit⟩ Unit :=
  .act (.request (.fire 0 .master event) fun _ => .ret ())

/-- A report and then a wake event end the poll of the master for good. -/
theorem endsForGood_after_wake :
    (World.initial (H := ⟨Unit, Unit⟩) ()).attach 0 ⟨true, [.comm]⟩ =
        (.ok 0, (equipped (.initial ())).world) ∧
      let machine := play .still 1 [fireMaster .startPolling, fireMaster .comm]
        (equipped (.initial ()))
      ∃ recent, machine.world.journal = recent ++ (equipped (.initial ())).world.journal ∧
        recent.any (Entry.wakes 0 .master) = true ∧ EndsForGood 0 .master machine recent := by
  refine ⟨rfl, ?_⟩
  intro machine
  have attached : (World.initial (H := ⟨Unit, Unit⟩) ()).attach 0 ⟨true, [.comm]⟩ =
      (.ok 0, (equipped (.initial ())).world) := rfl
  have absent : ∀ registry cpu name,
      (World.initial (H := ⟨Unit, Unit⟩) ()).hub.lookup registry cpu name ≠
        some (.detector 0) := by
    intro registry cpu name found
    cases cpu with
    | master => cases found
    | slave => cases found
  obtain ⟨recent, journal, ends⟩ := endsForGood_iff_not_stale .still 1 attached rfl absent
    [fireMaster .startPolling, fireMaster .comm]
  obtain rfl : machine.world.journal.take 9 = recent := List.append_cancel_right journal
  refine ⟨_, journal, rfl, (ends (by decide) .master).2.mpr ?_⟩
  intro stale
  exact Bool.noConfusion (stale.concerned.symm.trans rfl)

end Machine

/-- The setting in which each outside listener answers a report of polling by firing a wake event
for the same processor, before the report reaches those after it. -/
def Setting.eager : Setting ⟨Unit, Unit⟩ where
  behave _ cpu event :=
    if event = .startPolling then .request (.fire 0 cpu .comm) fun _ => .ret () else .ret ()
  arrange _ listeners := listeners
  arrange_perm _ _ := .refl _

namespace Machine

/-- A listener that stands before the detector fires a wake event from within a report. The
detector wakes and leaves the registry, and then the report reaches it: it polls, unregistered,
and the turn of the master is passed over. -/
theorem not_endsForGood_of_stale :
    let before := ((World.initial (H := ⟨Unit, Unit⟩) ()).register 0 .master "eager"
      (.hosted 0)).2
    before.attach 0 ⟨true, [.comm]⟩ = (.ok 0, (equipped before).world) ∧
      let machine := play .eager 2
        [fireMaster .startPolling, fireMaster .startPolling, .slice (.ret ())] (equipped before)
      ∃ recent, machine.world.journal = recent ++ (equipped before).world.journal ∧
        (∀ entry ∈ recent, entry.meddles 0 = false) ∧
        recent.any (Entry.wakes 0 .master) = true ∧
        (machine.world.hub.roster 0 .master).has Detector.name = false ∧
        (machine.world.hub.detector 0).polling .master = true ∧
        comesAfter (Entry.wakes 0 .master) (Entry.passes .master) recent = true ∧
        ¬ EndsForGood 0 .master machine recent := by
  refine ⟨rfl, ?_⟩
  intro machine
  refine ⟨machine.world.journal.take 28, rfl, by decide, rfl, rfl, rfl, rfl, ?_⟩
  intro ends
  exact Bool.noConfusion (ends.silent.symm.trans rfl)

end Machine

end Sh2Pair
