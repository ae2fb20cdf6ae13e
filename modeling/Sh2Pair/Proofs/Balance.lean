import Mathlib.Data.List.Destutter
import Sh2Pair.Proofs.Moments
import Sh2Pair.Proofs.Quiet
import Sh2Pair.Proofs.Skipping

/-!
# The counts of a detector

A detector begins a poll only where there is none, and a poll that it began ends in one of two ways:
an event wakes the processor, which is counted, or somebody clears the poll, which is not. So the
polls begun are the wake-ups, the polls that were cleared, and the one that is still going on.

What a detector keeps about a processor is the replay of what it received about it. A receipt about
the other processor is no part of that, a receipt that comes twice in a row is as good as one, and
of the settings nothing counts but which events wake.
-/

namespace Sh2Pair

namespace Watch

/-- The polls that neither ended with a wake-up nor go on. -/
def surplus (watch : Watch) : Int := watch.started - watch.wakeups - watch.polling.toNat

/-- No event changes this number: a poll begins if there is none, and ends with a wake-up. -/
theorem surplus_receive (config : PollConfig) (watch : Watch) (event : Event) :
    (watch.receive config event).surplus = watch.surplus := by
  cases reacted : watch.reaction config event with
  | ignored => simp [receive, after, reacted]
  | started =>
    have idle : watch.polling = false := ((reaction_eq_started_iff config watch event).mp reacted).2
    simp only [receive, after, reacted, surplus, idle, Bool.toNat_true, Bool.toNat_false]
    omega
  | woken =>
    have polls : watch.polling = true := ((reaction_eq_woken_iff config watch event).mp reacted).2.2
    simp only [receive, after, reacted, surplus, polls, Bool.toNat_true, Bool.toNat_false]
    omega

/-- Clearing a poll adds to it, if there is a poll. -/
theorem surplus_clear (watch : Watch) :
    watch.clear.surplus = watch.surplus + watch.polling.toNat := by
  simp only [clear, surplus, Bool.toNat_false]
  omega

/-- Which settings a watch cannot tell apart: those under which the same events wake. The report of
polling itself never does. -/
def AlikeWaking (left right : PollConfig) : Prop :=
  ∀ event, event ≠ .startPolling → (event ∈ left.wakeEvents ↔ event ∈ right.wakeEvents)

/-- Settings with the same waking events make the same of an event. -/
theorem receive_congr {left right : PollConfig} (alike : AlikeWaking left right) (watch : Watch)
    (event : Event) : watch.receive left event = watch.receive right event := by
  have same : watch.reaction left event = watch.reaction right event := by
    by_cases report : event = .startPolling
    · simp [reaction, report]
    · simp [reaction, report, alike event report]
  rw [receive, receive, same]

/-- Settings with the same waking events make the same of a receipt. -/
theorem take_congr {left right : PollConfig} (alike : AlikeWaking left right) (watch : Watch)
    (receipt : Receipt) : watch.take left receipt = watch.take right receipt := by
  cases receipt with
  | heard event => exact receive_congr alike watch event
  | cleared => rfl

/-- Settings with the same waking events make the same of a history. -/
theorem replay_congr {left right : PollConfig} (alike : AlikeWaking left right) (watch : Watch)
    (history : List Receipt) : watch.replay left history = watch.replay right history := by
  induction history with
  | nil => rfl
  | cons last history inductionHypothesis =>
    simp only [replay, List.foldr_cons] at inductionHypothesis ⊢
    rw [inductionHypothesis, take_congr alike]

/-- After an event, the same event finds nothing to do. -/
theorem reaction_receive (config : PollConfig) (watch : Watch) (event : Event) :
    (watch.receive config event).reaction config event = .ignored := by
  by_cases report : event = .startPolling
  · cases polls : watch.polling <;> simp [receive, after, reaction, report, polls]
  · by_cases wakes : event ∈ config.wakeEvents
    · cases polls : watch.polling <;> simp [receive, after, reaction, report, wakes, polls]
    · simp [reaction, report, wakes]

/-- A receipt that comes twice in a row is as good as one. -/
theorem take_take (config : PollConfig) (watch : Watch) (receipt : Receipt) :
    (watch.take config receipt).take config receipt = watch.take config receipt := by
  cases receipt with
  | heard event =>
    simp only [take]
    rw [receive, reaction_receive, after]
  | cleared => rfl

/-- Repetitions in a history make no difference, whatever its latest receipt is. -/
theorem replay_destutter' (config : PollConfig) (watch : Watch) (last : Receipt)
    (earlier : List Receipt) :
    watch.replay config (earlier.destutter' (· ≠ ·) last) =
      watch.replay config (last :: earlier) := by
  induction earlier generalizing last with
  | nil => rfl
  | cons next earlier inductionHypothesis =>
    rw [List.destutter']
    by_cases differs : last ≠ next
    · rw [if_pos differs]
      simp only [replay, List.foldr_cons] at inductionHypothesis ⊢
      rw [inductionHypothesis]
    · rw [if_neg differs, inductionHypothesis]
      obtain rfl := not_not.mp differs
      simp only [replay, List.foldr_cons, take_take]

/-- Repetitions in a history make no difference. -/
theorem replay_destutter (config : PollConfig) (watch : Watch) (history : List Receipt) :
    watch.replay config (history.destutter (· ≠ ·)) = watch.replay config history := by
  cases history with
  | nil => rfl
  | cons last earlier => exact replay_destutter' config watch last earlier

end Watch

/-- A poll of a detector was cleared that was going on. -/
def Entry.interrupts {ν : Type} (number : Nat) (cpu : Cpu) : Entry ν → Bool
  | .pollCleared seen place polling => seen = number && place = cpu && polling
  | _ => false

namespace World

variable {H : Host}

/-- What a detector keeps about a processor. -/
def watch (world : World H) (number : Nat) (cpu : Cpu) : Watch :=
  (world.hub.detector number).watches.get cpu

/-- Since an earlier world, the surplus of a detector has grown by the polls that were cleared. -/
def Tallies (number : Nat) (before after : World H) : Prop :=
  ∃ recent, after.journal = recent ++ before.journal ∧
    (number < before.hub.detectors.size → number < after.hub.detectors.size ∧
      ∀ cpu, (after.watch number cpu).surplus =
        (before.watch number cpu).surplus + recent.countP (Entry.interrupts number cpu))

/-- A detector that is told about an event learns it for the processor of the event. -/
theorem watch_signal (world : World H) (number seen : Nat) (cpu place : Cpu) (event : Event) :
    (world.signal number cpu event).watch seen place =
      if seen = number ∧ place = cpu then
        (world.watch number cpu).receive (world.hub.detector number).config event
      else world.watch seen place := by
  rw [watch, Hub.detector, signal_detectors, ← Hub.detector, Hub.detector_modifyDetector]
  by_cases concerned : seen = number
  · subst concerned
    rw [if_pos rfl, Detector.receive, Pair.modify, Pair.get_set]
    simp [watch]
  · simp [concerned, watch]

/-- Clearing the poll of a processor clears it in one detector and for this processor only. -/
theorem watch_clear (world : World H) (number seen : Nat) (cpu place : Cpu) :
    (world.clear number cpu).watch seen place =
      if seen = number ∧ place = cpu then (world.watch number cpu).clear
      else world.watch seen place := by
  have changed : (world.clear number cpu).hub.detector seen = _ :=
    world.hub.detector_modifyDetector number seen (·.clear cpu)
  rw [watch, changed]
  by_cases concerned : seen = number
  · subst concerned
    rw [if_pos rfl, Detector.clear, Pair.modify, Pair.get_set]
    simp [watch]
  · simp [concerned, watch]

namespace Tallies

variable {number : Nat}

/-- Something that clears no poll and gives no detector a surplus. -/
theorem silent {before after : World H} (recent : List (Entry H.Note))
    (journal : after.journal = recent ++ before.journal)
    (uncleared : ∀ cpu, recent.countP (Entry.interrupts number cpu) = 0)
    (kept : number < before.hub.detectors.size → number < after.hub.detectors.size ∧
      ∀ cpu, (after.watch number cpu).surplus = (before.watch number cpu).surplus) :
    Tallies number before after := by
  refine ⟨recent, journal, fun present => ⟨(kept present).1, fun cpu => ?_⟩⟩
  rw [uncleared cpu, (kept present).2 cpu]
  simp

/-- An entry with which no detector changes. -/
theorem aside {before after : World H} (entry : Entry H.Note)
    (journal : after.journal = entry :: before.journal)
    (uncleared : ∀ cpu, entry.interrupts number cpu = false)
    (same : after.hub.detectors = before.hub.detectors) : Tallies number before after := by
  refine silent [entry] journal (fun cpu => by simp [uncleared cpu]) fun present => ?_
  rw [same]
  exact ⟨present, fun cpu => by rw [watch, watch, Hub.detector, Hub.detector, same]⟩

/-- Nothing was cleared while nothing happened. -/
theorem refl (world : World H) : Tallies number world world :=
  silent [] rfl (fun _ => rfl) fun present => ⟨present, fun _ => rfl⟩

/-- What was cleared in two stretches, one after the other, adds up. -/
theorem trans {start middle finish : World H} (first : Tallies number start middle)
    (second : Tallies number middle finish) : Tallies number start finish := by
  obtain ⟨early, journal, before⟩ := first
  obtain ⟨late, continued, after⟩ := second
  refine ⟨late ++ early, by rw [continued, journal, List.append_assoc], fun present => ?_⟩
  obtain ⟨midway, earlier⟩ := before present
  obtain ⟨there, later⟩ := after midway
  refine ⟨there, fun cpu => ?_⟩
  rw [later, earlier, List.countP_append]
  omega

/-- Being told about an event gives a detector no surplus.

Proof: what the detector keeps takes the receipt, which leaves its surplus as it is. The four
outcomes of being told differ in what they enter, and none of them enters a clearing. -/
theorem signal (world : World H) (seen : Nat) (place : Cpu) (event : Event) :
    Tallies number world (world.signal seen place event) := by
  have kept : number < world.hub.detectors.size →
      number < (world.signal seen place event).hub.detectors.size ∧
        ∀ cpu, ((world.signal seen place event).watch number cpu).surplus =
          (world.watch number cpu).surplus := by
    intro present
    constructor
    · rw [signal_detectors]
      exact Nat.lt_of_lt_of_le present (Table.size_le_size_set ..)
    · intro cpu
      rw [watch_signal]
      split
      · rename_i here
        rw [here.1, here.2, Watch.surplus_receive]
      · rfl
  rcases world.signal_cases seen place event with
    ⟨_, after⟩ | ⟨_, after⟩ | ⟨_, _, after⟩ | ⟨_, _, _, after⟩
  · exact silent [] (by rw [after]; rfl) (fun _ => rfl) kept
  · exact silent [_] (by rw [after]; rfl) (fun _ => rfl) kept
  · exact silent [_] (by rw [after]; rfl) (fun _ => rfl) kept
  · exact silent [_, _] (by rw [after]; rfl) (fun _ => rfl) kept

/-- Clearing a poll gives the detector a surplus of one if there is a poll, and says so. -/
theorem clear (world : World H) (seen : Nat) (place : Cpu) :
    Tallies number world (world.clear seen place) := by
  refine ⟨[.pollCleared seen place (world.watch seen place).polling], rfl, fun present => ?_⟩
  constructor
  · exact Nat.lt_of_lt_of_le present (Table.size_le_size_set ..)
  · intro cpu
    rw [watch_clear]
    by_cases here : number = seen ∧ cpu = place
    · obtain ⟨rfl, rfl⟩ := here
      rw [if_pos ⟨rfl, rfl⟩, Watch.surplus_clear]
      cases polls : (world.watch number cpu).polling <;> simp [Entry.interrupts]
    · have elsewhere : ¬ (seen = number ∧ place = cpu) :=
        fun both => here ⟨both.1.symm, both.2.symm⟩
      simp [here, Entry.interrupts, elsewhere]

/-- Nothing that can happen escapes the tally of a detector.

Proof: only a receipt of the detector and the clearing of its poll change what it keeps, and both
keep to the tally. Every other step leaves its watch as it is and enters nothing about it. -/
theorem steady (number : Nat) : Steady (Tallies (H := H) number) where
  refl := refl
  trans := trans
  grows := by
    rintro start finish ⟨recent, journal, _⟩
    exact ⟨recent, journal.symm⟩
  host world state := silent [] rfl (fun _ => rfl) fun present => ⟨present, fun _ => rfl⟩
  mark world entry marks := by
    refine aside entry rfl (fun cpu => ?_) rfl
    cases entry with
    | pollCleared => cases marks
    | _ => rfl
  enlist world registry cpu name listener free := aside _ rfl (fun _ => rfl) rfl
  enlistBoth world registry name listener free := aside _ rfl (fun _ => rfl) rfl
  strike world registry cpu name used := aside _ rfl (fun _ => rfl) rfl
  furnish world registry config free := by
    refine silent [_] rfl (fun _ => rfl) fun present => ?_
    have same : (world.hub.detectors.push (Detector.fresh config registry)).get number =
        world.hub.detectors.get number :=
      Table.get_push world.hub.detectors present (Detector.fresh config registry)
    exact ⟨Nat.lt_of_lt_of_le present (Table.size_le_size_set ..),
      fun cpu => congrArg (fun detector => Watch.surplus (detector.watches.get cpu)) same⟩
  clear := clear
  openRegistry world := aside _ rfl (fun _ => rfl) rfl
  retire world registry := aside _ rfl (fun _ => rfl) rfl
  begin world registry cpu event := aside _ rfl (fun _ => rfl) rfl
  notify world seen cpu event := by
    have noted : Tallies number world (world.record (.notified (.detector seen) cpu event)) :=
      aside _ rfl (fun _ => rfl) rfl
    exact trans noted (signal _ seen cpu event)
  call := by
    intro origin world registry cpu event listener _ _ kept
    have called : Tallies number origin (world.record (.called origin.fires listener cpu event)) :=
      trans kept (aside _ rfl (fun _ => rfl) rfl)
    cases listener with
    | detector seen => exact trans called (signal _ seen cpu event)
    | hosted seen => exact called

/-- Whatever a machine does, the surplus of a detector grows by the polls that were cleared. -/
theorem passes (number : Nat) (terms : SliceConfig × Nat × Option Nat) :
    Machine.PassesWithin (Tallies (H := H) number) terms := by
  intro scheduler world cpu cycles _ _
  exact aside _ rfl (fun _ => rfl) rfl

end Tallies

/-- A moment in the life of a detector. It was attached with some settings, whatever had happened
before, and `recent` is what was entered into the journal since. -/
inductive Lifetime (number : Nat) (config : PollConfig) (recent : List (Entry H.Note))
    (moment : World H) : Prop where
  | of_course {ε : Type} (setting : Setting H) (depth : Nat) (start : Machine H ε)
      {world : World H} {registry : Nat}
      (attached : world.attach registry config = (.ok number, start.world))
      (moves : List (Machine.Move H ε)) (inside : moment ∈ start.moments setting depth moves)
      (journal : moment.journal = recent ++ start.world.journal)

namespace Lifetime

variable {number : Nat} {config : PollConfig} {recent : List (Entry H.Note)} {moment : World H}
  (lifetime : Lifetime number config recent moment)

include lifetime

/-- What a detector keeps about a processor is the replay of what it received about it. -/
theorem watch_eq_replay (cpu : Cpu) :
    moment.watch number cpu = Watch.idle.replay config (receipts number cpu recent) := by
  obtain ⟨setting, depth, start, attached, moves, inside, journal⟩ := lifetime
  obtain ⟨_, present, fresh⟩ := detector_of_attach attached
  obtain ⟨others, same, tracked⟩ := Machine.Follows.moments (Traces.steady number) setting depth
    start moves (Traces.passes number _) moment inside
  obtain rfl : others = recent := List.append_cancel_right (same.symm.trans journal)
  rw [watch, (tracked present).watch cpu, fresh]
  simp only [Detector.fresh, Pair.get_both]

/-- The polls begun are the wake-ups, the polls that were cleared, and the one that goes on. -/
theorem started_eq (cpu : Cpu) :
    (moment.watch number cpu).started = (moment.watch number cpu).wakeups +
      recent.countP (Entry.interrupts number cpu) + (moment.watch number cpu).polling.toNat := by
  obtain ⟨setting, depth, start, attached, moves, inside, journal⟩ := lifetime
  obtain ⟨_, present, fresh⟩ := detector_of_attach attached
  obtain ⟨others, same, tallied⟩ := Machine.Follows.moments (Tallies.steady number) setting depth
    start moves (Tallies.passes number _) moment inside
  obtain rfl : others = recent := List.append_cancel_right (same.symm.trans journal)
  have balance : (moment.watch number cpu).surplus = (start.world.watch number cpu).surplus +
      (others.countP (Entry.interrupts number cpu) : Int) := (tallied present).2 cpu
  have none : (start.world.watch number cpu).surplus = 0 := by
    rw [watch, fresh]
    simp [Detector.fresh, Watch.idle, Watch.surplus]
  rw [none, Watch.surplus] at balance
  omega

end Lifetime

/-- An event that a detector ignores changes nothing at all. -/
theorem signal_of_ignored (world : World H) {number : Nat} {cpu : Cpu} {event : Event}
    (present : number < world.hub.detectors.size)
    (ignored : (world.hub.detector number).reaction cpu event = .ignored) :
    world.signal number cpu event = world := by
  rw [signal, ignored]
  exact congrArg (fun hub => { world with hub := hub })
    (Hub.modifyDetector_of_ignored present ignored)

/-- A detector that has been told about an event is not moved by hearing it again. -/
theorem signal_signal (world : World H) (number : Nat) (cpu : Cpu) (event : Event) :
    (world.signal number cpu event).signal number cpu event = world.signal number cpu event := by
  apply signal_of_ignored
  · rw [signal_detectors]
    exact Table.lt_size_set ..
  · rw [hub_signal, Detector.reaction, Hub.detector_signal, Detector.receive,
      Pair.get_modify_self]
    exact Watch.reaction_receive _ _ event

/-- Take any moment in the life of a detector. For each processor, the polls that it has begun are
the wake-ups, the polls that were found going on when they were cleared, and the one that goes on
now. Whatever it is told about one processor, and clearing its poll, leaves what it keeps about the
other one; and to be told the same twice in a row is to be told once. Take any moment in the life of
another detector, under whose settings the same events wake. If what the two received about the
processor differs in repetitions only, they keep the same about it.

Proof: the surplus of a watch is what was cleared, which every step of a life keeps, and this is the
first equation. For the rest, what a detector keeps is the replay of its receipts. A receipt counts
for its own processor only, and a replay does not see repetitions, nor anything of the settings but
the events that wake. -/
theorem counts_balance {K : Host} {number : Nat} {config : PollConfig}
    {recent : List (Entry H.Note)} {moment : World H}
    (lifetime : Lifetime number config recent moment) (cpu : Cpu) :
    ((moment.watch number cpu).started = (moment.watch number cpu).wakeups +
        recent.countP (Entry.interrupts number cpu) + (moment.watch number cpu).polling.toNat) ∧
      (∀ (setting : Setting H) (depth : Nat) (event : Event),
        let told := setting.deliver depth (.detector number) cpu event moment
        told.2.watch number cpu.other = moment.watch number cpu.other ∧
          setting.deliver depth (.detector number) cpu event told.2 = told) ∧
      ((moment.clear number cpu).journal =
          .pollCleared number cpu (moment.watch number cpu).polling :: moment.journal ∧
        (moment.clear number cpu).watch number cpu.other = moment.watch number cpu.other) ∧
      ∀ {other : Nat} {settings : PollConfig} {entries : List (Entry K.Note)} {instant : World K},
        Lifetime other settings entries instant → Watch.AlikeWaking config settings →
        (receipts number cpu recent).destutter (· ≠ ·) =
          (receipts other cpu entries).destutter (· ≠ ·) →
        moment.watch number cpu = instant.watch other cpu := by
  refine ⟨lifetime.started_eq cpu, ?_, ⟨rfl, ?_⟩, ?_⟩
  · intro setting depth event told
    have heard : told = _ := setting.deliver_detector depth number cpu event moment
    rw [heard]
    constructor
    · rw [watch_signal, if_neg fun here => cpu.other_ne here.2]
    · rw [setting.deliver_detector, signal_signal]
  · rw [watch_clear, if_neg fun here => cpu.other_ne here.2]
  · intro other settings entries instant another alike same
    rw [lifetime.watch_eq_replay, another.watch_eq_replay, ← Watch.replay_congr alike,
      ← Watch.replay_destutter, same, Watch.replay_destutter]

/-- A world in which a detector with the given settings has just been attached, and nothing else. -/
def attended (config : PollConfig) : Machine ⟨Unit, Unit⟩ Unit where
  scheduler := .fresh .standard 0 (some 0)
  contexts := SliceConfig.standard.contexts
  rig := ()
  world := ((World.initial ()).attach 0 config).2

/-- The master polls, which is reported a number of times, and its poll is cleared; it polls, and
`comm` wakes it; and it polls again. -/
def relapse (reports : Nat) : List (Machine.Move ⟨Unit, Unit⟩ Unit) :=
  let fire (event : Event) : Machine.Move ⟨Unit, Unit⟩ Unit :=
    .act (.request (.fire 0 .master event) fun _ => .ret ())
  .replicate reports (fire .startPolling) ++
    [.act (.request (.clear 0 .master) fun _ => .ret ()),
      fire .startPolling, fire .comm, fire .startPolling]

/-- The world after it. -/
def relapsed (config : PollConfig) (reports : Nat) : World ⟨Unit, Unit⟩ :=
  ((attended config).play .still 0 (relapse reports)).world

/-- The world of this run is a moment in the life of the detector. -/
theorem lifetime_relapsed {config : PollConfig} {reports : Nat}
    {recent : List (Entry Unit)}
    (journal : (relapsed config reports).journal = recent ++ (attended config).world.journal) :
    Lifetime 0 config recent (relapsed config reports) := by
  have attached : (World.initial ()).attach 0 config = (.ok 0, (attended config).world) := rfl
  exact .of_course .still 0 (attended config) attached (relapse reports)
    (Machine.play_mem_moments .still 0 (relapse reports) (attended config)) journal

/-- Three polls are begun, of which one is cleared, one ends with a wake-up, and one goes on. It is
the same if the first one is reported twice, and if the settings name the wake event twice, and the
report besides. -/
theorem counts_balance_of_relapse :
    let sober := relapsed ⟨false, [.comm]⟩ 1
    let stuttering := relapsed ⟨false, [.startPolling, .comm, .comm]⟩ 2
    ∃ recent entries,
      Lifetime 0 ⟨false, [.comm]⟩ recent sober ∧
      Lifetime 0 ⟨false, [.startPolling, .comm, .comm]⟩ entries stuttering ∧
      recent.countP (Entry.interrupts 0 .master) = 1 ∧
      (sober.watch 0 .master).started = 1 + 1 + 1 ∧
      sober.watch 0 .master = stuttering.watch 0 .master := by
  intro sober stuttering
  have first : Lifetime 0 ⟨false, [.comm]⟩ sober.journal.dropLast sober :=
    lifetime_relapsed rfl
  have second : Lifetime 0 ⟨false, [.startPolling, .comm, .comm]⟩ stuttering.journal.dropLast
      stuttering := lifetime_relapsed rfl
  have alike : Watch.AlikeWaking ⟨false, [.comm]⟩ ⟨false, [.startPolling, .comm, .comm]⟩ := by
    intro event noReport
    simp [noReport]
  obtain ⟨balance, _, _, agrees⟩ := counts_balance first .master
  exact ⟨_, _, first, second, by decide +kernel, balance.trans (by decide +kernel),
    agrees second alike (by decide +kernel)⟩

end World

end Sh2Pair
