import Sh2Pair.Proofs.Steady

/-!
# What a detector received

The journal shows every event that a detector was told about, by a fire or without one, and every
order to end a poll. These receipts determine what the detector keeps about a processor: its
state is the replay of the receipts, whoever caused them and however deep in nested calls.

A processor spins, as far as receipts can tell, if a report of polling is not followed by
anything that ends a poll.
-/

namespace Sh2Pair

/-- What a detector received about a processor: an event, or the order to end the poll. -/
inductive Receipt where
  | heard (event : Event)
  | cleared
  deriving DecidableEq

/-- Whether a receipt ends a poll: the order to do so, and each wake event but the report of
polling itself. -/
def Receipt.Ends (wakeEvents : List Event) : Receipt → Prop
  | .heard event => event ∈ wakeEvents ∧ event ≠ .startPolling
  | .cleared => True

/-- A report of polling stands in a history that has the latest receipt first, and nothing that
ends a poll came after it. -/
def Spinning (wakeEvents : List Event) (history : List Receipt) : Prop :=
  ∃ later earlier, history = later ++ .heard .startPolling :: earlier ∧
    ∀ receipt ∈ later, ¬ receipt.Ends wakeEvents

/-- What an entry of the journal brought to a detector about a processor. -/
def Entry.receipt? {ν : Type} (number : Nat) (cpu : Cpu) : Entry ν → Option Receipt
  | .called _ (.detector seen) place event =>
    if seen = number ∧ place = cpu then some (.heard event) else none
  | .notified (.detector seen) place event =>
    if seen = number ∧ place = cpu then some (.heard event) else none
  | .pollCleared seen place _ =>
    if seen = number ∧ place = cpu then some .cleared else none
  | _ => none

/-- The receipts of a detector about a processor, the latest first. -/
def receipts {ν : Type} (number : Nat) (cpu : Cpu) (journal : List (Entry ν)) : List Receipt :=
  journal.filterMap (Entry.receipt? number cpu)

/-- The receipts of two stretches are those of the later one in front of those of the earlier one.
-/
theorem receipts_append {ν : Type} (number : Nat) (cpu : Cpu) (later earlier : List (Entry ν)) :
    receipts number cpu (later ++ earlier) =
      receipts number cpu later ++ receipts number cpu earlier :=
  List.filterMap_append

/-- An entry that brings a receipt puts it in front. -/
theorem receipts_cons {ν : Type} {number : Nat} {cpu : Cpu} {entry : Entry ν}
    {receipt : Receipt} (brought : entry.receipt? number cpu = some receipt)
    (journal : List (Entry ν)) :
    receipts number cpu (entry :: journal) = receipt :: receipts number cpu journal :=
  List.filterMap_cons_some brought

/-- Nothing that is received last makes a processor spin but a report, and a history that spins
goes on doing so until something ends the poll. -/
theorem spinning_cons_iff (wakeEvents : List Event) (last : Receipt) (history : List Receipt) :
    Spinning wakeEvents (last :: history) ↔
      last = .heard .startPolling ∨ (¬ last.Ends wakeEvents ∧ Spinning wakeEvents history) := by
  constructor
  · rintro ⟨later, earlier, split, quiet⟩
    cases later with
    | nil =>
      injection split with same _
      exact .inl same
    | cons first later =>
      injection split with same rest
      subst same
      refine .inr ⟨quiet last (List.mem_cons_self ..), later, earlier, rest, ?_⟩
      exact fun receipt inside => quiet receipt (List.mem_cons_of_mem _ inside)
  · rintro (same | ⟨stays, later, earlier, rest, quiet⟩)
    · exact ⟨[], history, by rw [same, List.nil_append], by simp⟩
    · refine ⟨last :: later, earlier, by rw [rest, List.cons_append], ?_⟩
      intro receipt inside
      rcases List.mem_cons.mp inside with same | inside
      · exact same ▸ stays
      · exact quiet receipt inside

/-- A processor does not spin once a poll has been ended and no report has come since. -/
theorem not_spinning_of_ended {wakeEvents : List Event} {later : List Receipt} {last : Receipt}
    (history : List Receipt) (ended : last.Ends wakeEvents)
    (silent : .heard .startPolling ∉ later) :
    ¬ Spinning wakeEvents (later ++ last :: history) := by
  induction later with
  | nil =>
    rw [List.nil_append, spinning_cons_iff]
    rintro (report | ⟨stays, _⟩)
    · rw [report] at ended
      exact ended.2 rfl
    · exact stays ended
  | cons first later inductionHypothesis =>
    rw [List.cons_append, spinning_cons_iff]
    rintro (report | ⟨_, spinning⟩)
    · exact silent (report ▸ List.mem_cons_self ..)
    · exact inductionHypothesis (fun inside => silent (List.mem_cons_of_mem _ inside)) spinning

namespace Watch

/-- The watch after a receipt. -/
def take (config : PollConfig) (watch : Watch) : Receipt → Watch
  | .heard event => watch.receive config event
  | .cleared => watch.clear

/-- The watch after a history of receipts, of which the latest stands first. -/
def replay (config : PollConfig) (watch : Watch) (history : List Receipt) : Watch :=
  history.foldr (fun receipt watch => watch.take config receipt) watch

/-- Two stretches are replayed one after the other, the earlier one first. -/
theorem replay_append (config : PollConfig) (watch : Watch) (later earlier : List Receipt) :
    watch.replay config (later ++ earlier) = (watch.replay config earlier).replay config later :=
  List.foldr_append

/-- A receipt leaves a watch polling if it reports so, or if the watch did poll and the receipt
does not end it. -/
theorem polling_take_iff (config : PollConfig) (watch : Watch) (receipt : Receipt) :
    (watch.take config receipt).polling = true ↔
      receipt = .heard .startPolling ∨
        (¬ receipt.Ends config.wakeEvents ∧ watch.polling = true) := by
  cases receipt with
  | cleared => simp [take, clear, Receipt.Ends]
  | heard event =>
    by_cases report : event = .startPolling
    · cases polls : watch.polling <;> simp [take, receive, reaction, after, report, polls]
    · by_cases wakes : event ∈ config.wakeEvents
      · cases polls : watch.polling <;>
          simp [take, receive, reaction, after, Receipt.Ends, report, wakes, polls]
      · simp [take, receive, reaction, after, Receipt.Ends, report, wakes]

/-- Replayed from the beginning, a watch polls exactly while its processor spins. -/
theorem polling_replay_idle_iff (config : PollConfig) (history : List Receipt) :
    (idle.replay config history).polling = true ↔ Spinning config.wakeEvents history := by
  induction history with
  | nil => simp [replay, idle, Spinning]
  | cons last history inductionHypothesis =>
    rw [spinning_cons_iff, ← inductionHypothesis]
    exact polling_take_iff config (idle.replay config history) last

end Watch

/-- The detector after a receipt about a processor. -/
def Detector.take (detector : Detector) (cpu : Cpu) (receipt : Receipt) : Detector :=
  { detector with watches := detector.watches.modify cpu (·.take detector.config receipt) }

/-- A later hub holds a detector of an earlier one as the entries since then left it. -/
structure Tracked {ν : Type} (number : Nat) (before after : Hub) (recent : List (Entry ν)) :
    Prop where
  present : number < after.detectors.size
  config : (after.detector number).config = (before.detector number).config
  home : (after.detector number).home = (before.detector number).home
  watch : ∀ cpu, (after.detector number).watches.get cpu =
    ((before.detector number).watches.get cpu).replay (before.detector number).config
      (receipts number cpu recent)

namespace World

variable {H : Host}

/-- The journal of the later world begins where that of the earlier one ends, and accounts for
what a detector keeps, provided that there is such a detector. -/
def Traces (number : Nat) (before after : World H) : Prop :=
  ∃ recent, after.journal = recent ++ before.journal ∧
    (number < before.hub.detectors.size → Tracked number before.hub after.hub recent)

namespace Traces

variable {number : Nat}

/-- What does not concern a detector leaves it alone. -/
theorem quiet {before after : World H} (recent : List (Entry H.Note))
    (journal : after.journal = recent ++ before.journal)
    (silent : ∀ cpu, receipts number cpu recent = [])
    (same : number < before.hub.detectors.size → number < after.hub.detectors.size ∧
      after.hub.detector number = before.hub.detector number) :
    Traces number before after := by
  refine ⟨recent, journal, ?_⟩
  intro present
  obtain ⟨stays, equal⟩ := same present
  refine ⟨stays, by rw [equal], by rw [equal], ?_⟩
  intro cpu
  rw [equal, silent cpu]
  rfl

/-- An entry that brings no receipt, and with which no detector changes. -/
theorem aside {before after : World H} (entry : Entry H.Note)
    (journal : after.journal = entry :: before.journal)
    (silent : ∀ cpu, entry.receipt? number cpu = none)
    (same : after.hub.detectors = before.hub.detectors) : Traces number before after := by
  refine quiet [entry] journal ?_ ?_
  · intro cpu
    rw [receipts, List.filterMap_cons_none (silent cpu), List.filterMap_nil]
  · intro present
    rw [Hub.detector, Hub.detector, same]
    exact ⟨present, rfl⟩

/-- An entry that brings a receipt to some detector, which changes as its rules say. What else
enters the journal on the way brings no receipt.

Proof: the detector in question is the one that changes, for the processor in question, or neither
it nor its history does. -/
theorem taken {before after : World H} {seen : Nat} {place : Cpu} {receipt : Receipt}
    {entry : Entry H.Note} (extra : List (Entry H.Note))
    (journal : after.journal = extra ++ entry :: before.journal)
    (silent : ∀ cpu, receipts number cpu extra = [])
    (brings : ∀ cpu, entry.receipt? number cpu =
      if seen = number ∧ place = cpu then some receipt else none)
    (detectors : after.hub.detectors =
      (before.hub.modifyDetector seen (·.take place receipt)).detectors) :
    Traces number before after := by
  refine ⟨extra ++ [entry], by rw [journal, List.append_assoc]; rfl, ?_⟩
  intro present
  have stays : number < after.hub.detectors.size := by
    rw [detectors]
    exact Nat.lt_of_lt_of_le present (Table.size_le_size_set ..)
  have changed : after.hub.detector number =
      if number = seen then (before.hub.detector seen).take place receipt
      else before.hub.detector number := by
    rw [Hub.detector, detectors]
    exact before.hub.detector_modifyDetector seen number _
  have history : ∀ cpu, receipts number cpu (extra ++ [entry]) =
      if seen = number ∧ place = cpu then [receipt] else [] := by
    intro cpu
    rw [receipts_append, silent cpu, List.nil_append, receipts, List.filterMap_cons, brings cpu]
    by_cases here : seen = number ∧ place = cpu
    · rw [if_pos here, if_pos here, List.filterMap_nil]
    · rw [if_neg here, if_neg here, List.filterMap_nil]
  by_cases concerned : number = seen
  · subst concerned
    rw [if_pos rfl] at changed
    refine ⟨stays, by rw [changed]; rfl, by rw [changed]; rfl, ?_⟩
    intro cpu
    rw [changed, history cpu]
    by_cases here : place = cpu
    · subst here
      rw [if_pos ⟨rfl, rfl⟩]
      exact Pair.get_set_self ..
    · rw [if_neg (fun both => here both.2)]
      exact (Pair.get_set ..).trans (if_neg (fun equal => here equal.symm))
  · rw [if_neg concerned] at changed
    refine ⟨stays, by rw [changed], by rw [changed], ?_⟩
    intro cpu
    rw [changed, history cpu, if_neg (fun both => concerned both.1.symm)]
    rfl

/-- The entries that a detector leaves itself bring no receipt. -/
theorem told_by_entry {world : World H} {seen : Nat} {place : Cpu} {event : Event}
    {entry : Entry H.Note}
    (brings : ∀ cpu, entry.receipt? number cpu =
      if seen = number ∧ place = cpu then some (.heard event) else none) :
    Traces number world ((world.record entry).signal seen place event) := by
  have detectors : ((world.record entry).signal seen place event).hub.detectors =
      ((world.record entry).hub.modifyDetector seen fun x => x.receive place event).detectors :=
    signal_detectors (world.record entry) seen place event
  rcases signal_cases (world.record entry) seen place event with
    ⟨_, after⟩ | ⟨_, after⟩ | ⟨_, _, after⟩ | ⟨_, _, _, after⟩
  · exact taken [] (by rw [after]; rfl) (fun _ => rfl) brings detectors
  · exact taken [_] (by rw [after]; rfl) (fun _ => rfl) brings detectors
  · exact taken [_] (by rw [after]; rfl) (fun _ => rfl) brings detectors
  · exact taken [_, _] (by rw [after]; rfl) (fun _ => rfl) brings detectors

/-- A world traces itself. -/
theorem refl (world : World H) : Traces number world world :=
  quiet [] rfl (fun _ => rfl) (fun present => ⟨present, rfl⟩)

/-- What is traced over two stretches, one after the other, is traced over both together. -/
theorem trans {start middle finish : World H} (first : Traces number start middle)
    (second : Traces number middle finish) : Traces number start finish := by
  obtain ⟨early, journal, before⟩ := first
  obtain ⟨late, continued, after⟩ := second
  refine ⟨late ++ early, by rw [continued, journal, List.append_assoc], ?_⟩
  intro present
  have begun : Tracked number start.hub middle.hub early := before present
  have ended : Tracked number middle.hub finish.hub late := after begun.present
  refine ⟨ended.present, ended.config.trans begun.config, ended.home.trans begun.home, ?_⟩
  intro cpu
  rw [ended.watch cpu, begun.watch cpu, begun.config, receipts_append, Watch.replay_append]

/-- Nothing that can happen escapes the journal of a detector.

Proof: one case per kind of step. Being told about an event and being cleared bring a receipt, and
nothing else changes a detector. -/
theorem steady (number : Nat) : Steady (Traces (H := H) number) where
  refl := refl
  trans := trans
  grows := by
    rintro start finish ⟨recent, journal, _⟩
    exact ⟨recent, journal.symm⟩
  host world state := quiet [] rfl (fun _ => rfl) (fun present => ⟨present, rfl⟩)
  mark world entry marks := by
    refine aside entry rfl ?_ rfl
    intro cpu
    cases entry with
    | notified listener place event =>
      cases listener with
      | detector seen => cases marks
      | hosted seen => rfl
    | called => cases marks
    | pollCleared => cases marks
    | _ => rfl
  enlist world registry cpu name listener free := aside _ rfl (fun _ => rfl) rfl
  enlistBoth world registry name listener free := aside _ rfl (fun _ => rfl) rfl
  strike world registry cpu name used := aside _ rfl (fun _ => rfl) rfl
  furnish world registry config free := by
    refine quiet [_] rfl (fun _ => rfl) ?_
    intro present
    exact ⟨Nat.lt_of_lt_of_le present (Table.size_le_size_set ..), Table.get_push _ present _⟩
  clear world seen place := taken [] rfl (fun _ => rfl) (fun _ => rfl) rfl
  openRegistry world := aside _ rfl (fun _ => rfl) rfl
  retire world registry := aside _ rfl (fun _ => rfl) rfl
  begin world registry cpu event := aside _ rfl (fun _ => rfl) rfl
  notify world seen cpu event := told_by_entry (fun _ => rfl)
  call := by
    intro origin world registry cpu event listener _ _ kept
    refine trans kept ?_
    cases listener with
    | detector seen => exact told_by_entry (fun _ => rfl)
    | hosted seen => exact aside _ rfl (fun _ => rfl) rfl

end Traces

end World

end Sh2Pair
