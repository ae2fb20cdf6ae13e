import Mathlib.Algebra.Ring.Nat
import Mathlib.Data.Finset.Basic
import Mathlib.Data.Finset.Dedup
import Sh2Pair.Proofs.Balance
import Sh2Pair.Proofs.NameOrder
import Sh2Pair.Proofs.Stepwise

/-!
# What the log tells

A line of the log tells less than the entry behind it. It names neither the registry nor the
listener nor the detector, and most entries have no line at all. Yet it tells enough to follow the
names in use, as long as there is one registry: each registration adds a name that was not in use,
and each removal takes one away that was. It also tells how often polls were begun and ended, over
all detectors, and the polls of one detector begin and end by turns unless somebody clears one.
-/

namespace Sh2Pair

/-- A line of the log, before it is put into words. -/
inductive LogRecord where
  | registered (cpu : Cpu) (name : String)
  | registeredBoth (name : String)
  | duplicate (cpu : Cpu) (name : String)
  | removed (cpu : Cpu) (name : String)
  | fired (cpu : Cpu) (event : Event) (count : Nat)
  | pollStarted (cpu : Cpu)
  | pollEnded (cpu : Cpu) (event : Event)
  | skipped (cpu : Cpu) (cycles : Int32)
  | stalled (cpu : Cpu) (pc : UInt32)
  | reset (cpu : Cpu) (pc stack : UInt32)
  | dropped (cpu : Cpu) (address : UInt32) (width : Width)

/-- The names in use for each processor. -/
abbrev Names := Pair (Finset String)

namespace LogRecord

open Text Entry in
/-- The line of a record. -/
def line : LogRecord → List Char
  | .registered cpu name =>
    "DEBUG sys event listener registered".toList ++ cpuField cpu ++ nameField name
  | .registeredBoth name =>
    "DEBUG sys event listener registered for both cpus".toList ++ nameField name
  | .duplicate cpu name =>
    "WARN duplicate sys event listener".toList ++ cpuField cpu ++ nameField name
  | .removed cpu name => "DEBUG sys event listener removed".toList ++ cpuField cpu ++ nameField name
  | .fired cpu event count =>
    "TRACE fire sys event".toList ++ cpuField cpu ++ eventField event ++ " listeners=".toList ++
      decimal count
  | .pollStarted cpu => "DEBUG poll started".toList ++ cpuField cpu
  | .pollEnded cpu event => "DEBUG poll ended".toList ++ cpuField cpu ++ eventField event
  | .skipped cpu cycles =>
    "DEBUG slice skipped while polling".toList ++ cpuField cpu ++ " cycles=".toList ++
      integer cycles.toInt
  | .stalled cpu pc =>
    "WARN executor made no progress".toList ++ cpuField cpu ++ " pc=".toList ++ decimal pc.toNat
  | .reset cpu pc stack =>
    "DEBUG sh2 reset".toList ++ cpuField cpu ++ " pc=".toList ++ decimal pc.toNat ++
      " sp=".toList ++ decimal stack.toNat
  | .dropped cpu address width =>
    "TRACE write outside flat memory dropped".toList ++ cpuField cpu ++ " addr=".toList ++
      decimal address.toNat ++ " size=".toList ++ width.title.toList

/-- A poll of a processor was begun. -/
def starts (cpu : Cpu) : LogRecord → Bool
  | .pollStarted place => place = cpu
  | _ => false

/-- A poll of a processor was ended by an event. -/
def ends (cpu : Cpu) : LogRecord → Bool
  | .pollEnded place _ => place = cpu
  | _ => false

/-- What a record tells about the polls of a processor: whether one is begun, or ended. -/
def begins? (cpu : Cpu) : LogRecord → Option Bool
  | .pollStarted place => if place = cpu then some true else none
  | .pollEnded place _ => if place = cpu then some false else none
  | _ => none

/-- A turn of a processor was passed over. -/
def skips (cpu : Cpu) : LogRecord → Bool
  | .skipped place _ => place = cpu
  | _ => false

/-- The refusal that a record tells of. -/
def refusal? : LogRecord → Option Duplicate
  | .duplicate cpu name => some ⟨cpu, name⟩
  | _ => none

/-- The names in use after a record. There are none if the record cannot be right: a registration
adds a name that is not in use, and a removal takes one away that is. -/
def follow? (names : Names) : LogRecord → Option Names
  | .registered cpu name =>
    if name ∈ names.get cpu then none else some (names.modify cpu (insert name))
  | .registeredBoth name =>
    if name ∈ names.master ∨ name ∈ names.slave then none else some (names.map (insert name))
  | .removed cpu name =>
    if name ∈ names.get cpu then some (names.modify cpu (·.erase name)) else none
  | _ => some names

end LogRecord

namespace Entry

variable {ν : Type}

/-- The record of an entry in the log, if it has one. -/
def record? : Entry ν → Option LogRecord
  | .registered _ cpu name _ => some (.registered cpu name)
  | .registeredBoth _ name _ => some (.registeredBoth name)
  | .refused _ cpu name => some (.duplicate cpu name)
  | .removed _ cpu name => some (.removed cpu name)
  | .fired _ _ cpu event count => some (.fired cpu event count)
  | .pollStarted _ cpu => some (.pollStarted cpu)
  | .pollEnded _ cpu event => some (.pollEnded cpu event)
  | .skipped cpu cycles => some (.skipped cpu cycles)
  | .stalled cpu pc => some (.stalled cpu pc)
  | .remark (.reset cpu pc stack) => some (.reset cpu pc stack)
  | .remark (.dropped cpu address width) => some (.dropped cpu address width)
  | _ => none

/-- The line of an entry is that of its record. -/
theorem line?_eq (entry : Entry ν) : entry.line? = entry.record?.map LogRecord.line := by
  cases entry with
  | remark content => cases content <;> rfl
  | _ => rfl

/-- An entry that registers and removes in no other registry, and does not empty this one. -/
def keepsTo (registry : Nat) : Entry ν → Bool
  | .registered seen _ _ _ => seen = registry
  | .registeredBoth seen _ _ => seen = registry
  | .removed seen _ _ => seen = registry
  | .retired seen => seen ≠ registry
  | _ => true

/-- The detector that begins or ends a poll. Its number is not in the record. -/
def poller? : Entry ν → Option Nat
  | .pollStarted number _ => some number
  | .pollEnded number _ _ => some number
  | _ => none

end Entry

section Journals

variable {ν : Type}

/-- The log of a journal, in the order in which things happened. -/
def log (journal : List (Entry ν)) : List LogRecord := journal.reverse.filterMap Entry.record?

/-- The log of two stretches is that of the earlier one and then that of the later one. -/
theorem log_append (late early : List (Entry ν)) : log (late ++ early) = log early ++ log late := by
  rw [log, List.reverse_append, List.filterMap_append]
  rfl

/-- The lines of the log are those of its records. -/
theorem lines_eq (journal : List (Entry ν)) :
    journal.reverse.filterMap Entry.line? = (log journal).map LogRecord.line := by
  rw [log, List.map_filterMap]
  exact List.filterMap_congr fun entry _ => entry.line?_eq

/-- What the records of a detector tell about the polls of a processor, in order. -/
def pollMarks (number : Nat) (cpu : Cpu) (journal : List (Entry ν)) : List Bool :=
  (log (journal.filter fun entry => entry.poller? = some number)).filterMap
    (LogRecord.begins? cpu)

/-- What two stretches tell about polls is what the earlier one tells and then what the later one
does. -/
theorem pollMarks_append (number : Nat) (cpu : Cpu) (late early : List (Entry ν)) :
    pollMarks number cpu (late ++ early) =
      pollMarks number cpu early ++ pollMarks number cpu late := by
  rw [pollMarks, List.filter_append, log_append, List.filterMap_append]
  rfl

/-- The start of a poll is told of the detector and the processor whose poll it is. -/
theorem pollMarks_started (number seen : Nat) (cpu place : Cpu) :
    pollMarks number cpu [(.pollStarted seen place : Entry ν)] =
      if seen = number ∧ place = cpu then [true] else [] := by
  by_cases own : seen = number <;> by_cases here : place = cpu <;>
    simp [pollMarks, Entry.poller?, log, Entry.record?, LogRecord.begins?, own, here]

/-- The end of a poll is told of the detector and the processor whose poll it was. -/
theorem pollMarks_ended (number seen : Nat) (cpu place : Cpu) (event : Event) :
    pollMarks number cpu [(.pollEnded seen place event : Entry ν)] =
      if seen = number ∧ place = cpu then [false] else [] := by
  by_cases own : seen = number <;> by_cases here : place = cpu <;>
    simp [pollMarks, Entry.poller?, log, Entry.record?, LogRecord.begins?, own, here]

end Journals

/-- The names in use after all records of a log, if each of them can be right. -/
def replay? (names : Names) (records : List LogRecord) : Option Names :=
  records.foldlM LogRecord.follow? names

/-- Replaying one record is following it. -/
theorem replay?_singleton (names : Names) (record : LogRecord) :
    replay? names [record] = record.follow? names := by
  rw [replay?, List.foldlM_cons]
  exact bind_pure _

/-- Two logs in a row are replayed one after the other. -/
theorem replay?_append {before between after : Names} {early late : List LogRecord}
    (first : replay? before early = some between) (second : replay? between late = some after) :
    replay? before (early ++ late) = some after := by
  rw [replay?, List.foldlM_append, ← replay?, first]
  exact second

/-- The names in use for each processor of a registry. -/
def Hub.names (hub : Hub) (registry : Nat) : Names :=
  (hub.registry registry).map fun roster => roster.names.toFinset

/-- How often something was counted for a processor, over all detectors. -/
def Hub.tally (hub : Hub) (count : Watch → Nat) (cpu : Cpu) : Nat :=
  (hub.detectors.entries.map fun detector => count (detector.watches.get cpu)).sum

/-- A name is in use if the roster has it. -/
theorem Hub.mem_names_iff_has (hub : Hub) (registry : Nat) (cpu : Cpu) (name : String) :
    name ∈ (hub.names registry).get cpu ↔ (hub.roster registry cpu).has name = true := by
  rw [names, Pair.get_map, List.mem_toFinset, Roster.mem_names_iff]
  rfl

/-- A name is in use if somebody is found under it. -/
theorem Hub.mem_names_iff (hub : Hub) (registry : Nat) (cpu : Cpu) (name : String) :
    name ∈ (hub.names registry).get cpu ↔ (hub.lookup registry cpu name).isSome := by
  rw [mem_names_iff_has, Roster.has_eq_isSome_find?]
  rfl

/-- A name that the roster lacks is not in use. -/
theorem Hub.not_mem_names {hub : Hub} {registry : Nat} {cpu : Cpu} {name : String}
    (free : (hub.roster registry cpu).has name = false) :
    name ∉ (hub.names registry).get cpu := by
  rw [mem_names_iff_has, free]
  exact Bool.false_ne_true

namespace World

variable {H : Host}

section Names

variable (world : World H) {registry : Nat} {cpu : Cpu} {name : String} {listener : Listener}

/-- Two registries that find listeners under the same names have the same names in use. -/
theorem names_congr {left right : Hub} {seen registry : Nat}
    (same : ∀ cpu name, left.lookup seen cpu name = right.lookup registry cpu name) :
    left.names seen = right.names registry := by
  refine Pair.ext_get fun cpu => Finset.ext fun name => ?_
  rw [Hub.mem_names_iff, Hub.mem_names_iff, same]

/-- A registration adds its name to those in use for the processor. -/
theorem names_enlisted (free : (world.hub.roster registry cpu).has name = false) :
    (world.enlisted registry cpu name listener free).hub.names registry =
      (world.hub.names registry).modify cpu (insert name) := by
  refine Pair.ext_get fun place => Finset.ext fun sought => ?_
  rw [Hub.mem_names_iff, lookup_enlisted, Pair.modify, Pair.get_set]
  by_cases here : place = cpu
  · subst here
    by_cases named : sought = name
    · simp [named]
    · simp [named, Hub.mem_names_iff]
  · simp [here, Hub.mem_names_iff]

/-- A registration for both processors adds its name to those in use for either. -/
theorem names_enlistedBoth (free : ∀ cpu, (world.hub.roster registry cpu).has name = false) :
    (world.enlistedBoth registry name listener free).hub.names registry =
      (world.hub.names registry).map (insert name) := by
  refine Pair.ext_get fun place => Finset.ext fun sought => ?_
  rw [Hub.mem_names_iff, lookup_enlistedBoth, Pair.get_map, Finset.mem_insert, Hub.mem_names_iff]
  by_cases named : sought = name
  · simp [named]
  · simp [named]

/-- A removal takes its name away from those in use for the processor. -/
theorem names_struck :
    (world.struck registry cpu name).hub.names registry =
      (world.hub.names registry).modify cpu (·.erase name) := by
  refine Pair.ext_get fun place => Finset.ext fun sought => ?_
  rw [Hub.mem_names_iff, lookup_struck, Pair.modify, Pair.get_set]
  by_cases here : place = cpu
  · subst here
    by_cases named : sought = name
    · simp [named]
    · simp [named, Hub.mem_names_iff]
  · simp [here, Hub.mem_names_iff]

end Names

/-- The log of some entries replays the names of every registry to which all of them keep. -/
def Replays (before after : Hub) (recent : List (Entry H.Note)) : Prop :=
  ∀ registry, (∀ entry ∈ recent, entry.keepsTo registry = true) →
    replay? (before.names registry) (log recent) = some (after.names registry)

namespace Replays

/-- Entries that have no record about names, where nothing changes for any name. -/
theorem silent {before after : Hub} {recent : List (Entry H.Note)}
    (mute : ∀ names, replay? names (log recent) = some names)
    (same : ∀ registry cpu name,
      after.lookup registry cpu name = before.lookup registry cpu name) :
    Replays before after recent := by
  intro registry _
  rw [mute, names_congr (same registry)]

/-- Each record about a name can be right, and says what becomes of the names in use.

Proof: one case per kind of step. The steps that change the names in use enter a record, which can
be followed because the name was free, or in use, as the step asks for. -/
theorem stepwise : Stepwise (Replays (H := H)) where
  append := by
    intro start middle finish early late first second registry keeps
    rw [log_append]
    refine replay?_append (first registry fun entry inside => ?_)
      (second registry fun entry inside => ?_)
    · exact keeps entry (List.mem_append_right _ inside)
    · exact keeps entry (List.mem_append_left _ inside)
  nothing hub := silent (fun _ => rfl) fun _ _ _ => rfl
  plain hub entry plain := by
    refine silent (fun names => ?_) fun _ _ _ => rfl
    cases entry with
    | remark content => cases content <;> rfl
    | _ => first | rfl | cases plain
  enlist world registry cpu name listener free := by
    intro seen keeps
    obtain rfl : registry = seen := of_decide_eq_true (keeps _ (List.mem_singleton_self _))
    refine (replay?_singleton _ (.registered cpu name)).trans ?_
    rw [LogRecord.follow?, if_neg (Hub.not_mem_names free), names_enlisted]
  enlistBoth world registry name listener free := by
    intro seen keeps
    obtain rfl : registry = seen := of_decide_eq_true (keeps _ (List.mem_singleton_self _))
    have neither : ¬ (name ∈ (world.hub.names registry).master ∨
        name ∈ (world.hub.names registry).slave) :=
      not_or_intro (Hub.not_mem_names (free .master)) (Hub.not_mem_names (free .slave))
    refine (replay?_singleton _ (.registeredBoth name)).trans ?_
    rw [LogRecord.follow?, if_neg neither, names_enlistedBoth]
  strike world registry cpu name used := by
    intro seen keeps
    obtain rfl : registry = seen := of_decide_eq_true (keeps _ (List.mem_singleton_self _))
    refine (replay?_singleton _ (.removed cpu name)).trans ?_
    rw [LogRecord.follow?, if_pos ((Hub.mem_names_iff_has ..).mpr used), names_struck]
  furnish world registry config := silent (fun _ => rfl) fun _ _ _ => rfl
  clear world number cpu := silent (fun _ => rfl) fun _ _ _ => rfl
  openRegistry world := silent (fun _ => rfl) world.lookup_openRegistry
  retire world registry := by
    intro seen keeps
    have other : registry ≠ seen := of_decide_eq_true (keeps _ (List.mem_singleton_self _))
    refine congrArg some (names_congr fun cpu name => ?_)
    rw [lookup_retire, if_neg other.symm]
  ignore world number cpu event _ := silent (fun _ => rfl) fun _ _ _ => rfl
  start world number cpu event _ := silent (fun _ => rfl) fun _ _ _ => rfl
  wake world number cpu event _ := silent (fun _ => rfl) fun _ _ _ => rfl

end Replays

section Sums

/-- Writing a number of a table changes a sum over its values by as much as it changes that value. A
value that is filled in adds nothing. -/
theorem sum_put {α : Type} [Inhabited α] {measure : α → Nat} (nothing : measure default = 0)
    (entries : List α) (number : Nat) (value : α) :
    ((Table.put entries number value).map measure).sum + measure (entries.getD number default) =
      (entries.map measure).sum + measure value := by
  induction entries generalizing number with
  | nil =>
    induction number with
    | zero => simp [Table.put, nothing]
    | succ number inductionHypothesis => simpa [Table.put, nothing] using inductionHypothesis
  | cons first later inductionHypothesis =>
    cases number with
    | zero =>
      simp only [Table.put, List.map_cons, List.sum_cons, List.getD_cons_zero]
      omega
    | succ number =>
      have rest : ((Table.put later number value).map measure).sum +
          measure (later.getD number default) = (later.map measure).sum + measure value :=
        inductionHypothesis number
      simp only [Table.put, List.map_cons, List.sum_cons, List.getD_cons_succ]
      omega

variable {count : Watch → Nat} (nothing : count .idle = 0)

include nothing

/-- When a detector changes, a sum over all detectors changes by what this one counts. -/
theorem tally_modifyDetector (hub : Hub) (number : Nat) (change : Detector → Detector) (cpu : Cpu) :
    (hub.modifyDetector number change).tally count cpu +
        count ((hub.detector number).watches.get cpu) =
      hub.tally count cpu + count ((change (hub.detector number)).watches.get cpu) := by
  refine sum_put ?_ hub.detectors.entries number (change (hub.detector number))
  cases cpu <;> exact nothing

/-- A detector that has just been made has counted nothing. -/
theorem tally_furnished (world : World H) (registry : Nat) (config : PollConfig) (cpu : Cpu) :
    (world.furnished registry config).hub.tally count cpu = world.hub.tally count cpu := by
  have made : (world.hub.modifyDetector world.hub.detectors.size
        fun _ => .fresh config registry).tally count cpu +
        count ((world.hub.detector world.hub.detectors.size).watches.get cpu) =
      world.hub.tally count cpu + count ((Detector.fresh config registry).watches.get cpu) :=
    tally_modifyDetector nothing world.hub world.hub.detectors.size
      (fun _ => .fresh config registry) cpu
  have unwritten : world.hub.detector world.hub.detectors.size = default :=
    Table.get_of_size_le _ (Nat.le_refl _)
  have idle : (default : Detector).watches.get cpu = .idle := by cases cpu <;> rfl
  rw [unwritten, idle, Detector.fresh, Pair.get_both, nothing] at made
  exact made

end Sums

/-- An event reaches what a detector keeps about the processor of the event. -/
theorem watches_receive (detector : Detector) (cpu place : Cpu) (event : Event) :
    (detector.receive cpu event).watches.get place =
      if place = cpu then (detector.watches.get cpu).after (detector.reaction cpu event)
      else detector.watches.get place :=
  Pair.get_set ..

/-- Clearing the poll of a processor leaves alone what is kept about the other one. -/
theorem watches_clear (detector : Detector) (cpu place : Cpu) :
    (detector.clear cpu).watches.get place =
      if place = cpu then (detector.watches.get cpu).clear else detector.watches.get place :=
  Pair.get_set ..

/-- The log of some entries counts the polls that were begun, and those that were ended by an event,
over all detectors. -/
def Counts (before after : Hub) (recent : List (Entry H.Note)) : Prop :=
  ∀ cpu, after.tally Watch.started cpu =
      before.tally Watch.started cpu + (log recent).countP (LogRecord.starts cpu) ∧
    after.tally Watch.wakeups cpu =
      before.tally Watch.wakeups cpu + (log recent).countP (LogRecord.ends cpu)

namespace Counts

/-- Entries that tell of no poll, where no detector counts. -/
theorem silent {before after : Hub} {recent : List (Entry H.Note)}
    (mute : ∀ cpu, (log recent).countP (LogRecord.starts cpu) = 0 ∧
      (log recent).countP (LogRecord.ends cpu) = 0)
    (same : ∀ cpu, after.tally Watch.started cpu = before.tally Watch.started cpu ∧
      after.tally Watch.wakeups cpu = before.tally Watch.wakeups cpu) :
    Counts before after recent := by
  intro cpu
  rw [(mute cpu).1, (mute cpu).2]
  exact same cpu

/-- Where one detector changes, it is enough to look at what that one counts. -/
theorem of_changed (hub : Hub) (number : Nat) (change : Detector → Detector)
    (recent : List (Entry H.Note))
    (counted : ∀ cpu, let old := (hub.detector number).watches.get cpu
      let new := (change (hub.detector number)).watches.get cpu
      new.started = old.started + (log recent).countP (LogRecord.starts cpu) ∧
        new.wakeups = old.wakeups + (log recent).countP (LogRecord.ends cpu)) :
    Counts hub (hub.modifyDetector number change) recent := by
  intro cpu
  obtain ⟨started, woken⟩ := counted cpu
  have begun : (hub.modifyDetector number change).tally Watch.started cpu +
      ((hub.detector number).watches.get cpu).started =
      hub.tally Watch.started cpu + ((change (hub.detector number)).watches.get cpu).started :=
    tally_modifyDetector (show Watch.started .idle = 0 from rfl) hub number change cpu
  have ended : (hub.modifyDetector number change).tally Watch.wakeups cpu +
      ((hub.detector number).watches.get cpu).wakeups =
      hub.tally Watch.wakeups cpu + ((change (hub.detector number)).watches.get cpu).wakeups :=
    tally_modifyDetector (show Watch.wakeups .idle = 0 from rfl) hub number change cpu
  omega

/-- Where one detector receives an event, the entries have to count what it counts for the processor
of the event, and nothing for the other one. -/
theorem of_receive (hub : Hub) (number : Nat) (cpu : Cpu) (event : Event)
    (recent : List (Entry H.Note))
    (elsewhere : ∀ place, place ≠ cpu → (log recent).countP (LogRecord.starts place) = 0 ∧
      (log recent).countP (LogRecord.ends place) = 0)
    (own : let old := (hub.detector number).watches.get cpu
      let new := old.after ((hub.detector number).reaction cpu event)
      new.started = old.started + (log recent).countP (LogRecord.starts cpu) ∧
        new.wakeups = old.wakeups + (log recent).countP (LogRecord.ends cpu)) :
    Counts hub (hub.modifyDetector number (·.receive cpu event)) recent := by
  refine of_changed hub number (·.receive cpu event) recent fun place => ?_
  rw [watches_receive]
  by_cases here : place = cpu
  · rw [if_pos here, here]
    exact own
  · rw [if_neg here, (elsewhere place here).1, (elsewhere place here).2]
    exact ⟨rfl, rfl⟩

/-- Every step of a program is counted by the log.

Proof: one case per kind of step. The counts of a detector change only when it starts or ends a
poll, which enters the record that is counted; a new detector has counted nothing. -/
theorem stepwise : Stepwise (Counts (H := H)) where
  append := by
    intro start middle finish early late first second cpu
    rw [log_append, List.countP_append, List.countP_append, (second cpu).1, (second cpu).2,
      (first cpu).1, (first cpu).2, Nat.add_assoc, Nat.add_assoc]
    exact ⟨rfl, rfl⟩
  nothing hub := silent (fun _ => ⟨rfl, rfl⟩) fun _ => ⟨rfl, rfl⟩
  plain hub entry plain := by
    refine silent (fun cpu => ?_) fun _ => ⟨rfl, rfl⟩
    cases entry with
    | remark content => cases content <;> exact ⟨rfl, rfl⟩
    | _ => first | exact ⟨rfl, rfl⟩ | cases plain
  enlist world registry cpu name listener free := silent (fun _ => ⟨rfl, rfl⟩) fun _ => ⟨rfl, rfl⟩
  enlistBoth world registry name listener free := silent (fun _ => ⟨rfl, rfl⟩) fun _ => ⟨rfl, rfl⟩
  strike world registry cpu name used := silent (fun _ => ⟨rfl, rfl⟩) fun _ => ⟨rfl, rfl⟩
  furnish world registry config := silent (fun _ => ⟨rfl, rfl⟩) fun cpu =>
    ⟨tally_furnished rfl world registry config cpu, tally_furnished rfl world registry config cpu⟩
  clear world number cpu := by
    refine of_changed world.hub number (·.clear cpu) _ fun place => ?_
    rw [watches_clear]
    by_cases here : place = cpu
    · rw [if_pos here, here]
      exact ⟨rfl, rfl⟩
    · rw [if_neg here]
      exact ⟨rfl, rfl⟩
  openRegistry world := silent (fun _ => ⟨rfl, rfl⟩) fun _ => ⟨rfl, rfl⟩
  retire world registry := silent (fun _ => ⟨rfl, rfl⟩) fun _ => ⟨rfl, rfl⟩
  ignore world number cpu event reacted := by
    refine of_receive world.hub number cpu event _ (fun _ _ => ⟨rfl, rfl⟩) ?_
    rw [reacted]
    exact ⟨rfl, rfl⟩
  start world number cpu event reacted := by
    refine of_receive world.hub number cpu event _ (fun place apart => ?_) ?_
    · simp [log, Entry.record?, LogRecord.starts, LogRecord.ends, Ne.symm apart]
    · rw [reacted]
      simp [log, Entry.record?, LogRecord.starts, LogRecord.ends, Watch.after]
  wake world number cpu event reacted := by
    refine of_receive world.hub number cpu event _ (fun place apart => ?_) ?_
    · simp [log, Entry.record?, LogRecord.starts, LogRecord.ends, Ne.symm apart]
    · rw [reacted]
      simp [log, Entry.record?, LogRecord.starts, LogRecord.ends, Watch.after]

end Counts

/-- Flags change from one to the next, beginning with the first one and ending with the last. -/
def Toggles : Bool → List Bool → Bool → Prop
  | before, [], after => before = after
  | before, flag :: later, after => before ≠ flag ∧ Toggles flag later after

/-- Flags that change from one to the next do so across two stretches. -/
theorem toggles_append {before between after : Bool} {early late : List Bool}
    (first : Toggles before early between) (second : Toggles between late after) :
    Toggles before (early ++ late) after := by
  induction early generalizing before with
  | nil => exact first.symm ▸ second
  | cons flag early inductionHypothesis => exact ⟨first.1, inductionHypothesis first.2⟩

/-- No two flags in a row are equal, the one at the beginning included. -/
theorem Toggles.isChain {before after : Bool} {flags : List Bool}
    (toggles : Toggles before flags after) : (before :: flags).IsChain (· ≠ ·) := by
  induction flags generalizing before with
  | nil => exact List.isChain_singleton _
  | cons flag later inductionHypothesis =>
    exact List.isChain_cons_cons.mpr ⟨toggles.1, inductionHypothesis toggles.2⟩

/-- The polls of a detector begin and end by turns, as long as nobody clears one that goes on. -/
def Alternates (number : Nat) (before after : Hub) (recent : List (Entry H.Note)) : Prop :=
  ∀ cpu, (∀ entry ∈ recent, entry.interrupts number cpu = false) →
    Toggles ((before.detector number).polling cpu) (pollMarks number cpu recent)
      ((after.detector number).polling cpu)

namespace Alternates

variable {number : Nat}

/-- Entries that tell of no poll of a detector, where it goes on as it did. -/
theorem silent {before after : Hub} {recent : List (Entry H.Note)}
    (mute : ∀ cpu, pollMarks number cpu recent = [])
    (same : ∀ cpu, (after.detector number).polling cpu = (before.detector number).polling cpu) :
    Alternates number before after recent := by
  intro cpu _
  rw [mute, same]
  rfl

/-- Where some detector changes, the others go on as they did. -/
theorem of_changed (hub : Hub) {seen : Nat} (change : Detector → Detector)
    (recent : List (Entry H.Note))
    (others : seen ≠ number → ∀ cpu, pollMarks number cpu recent = [])
    (own : seen = number → ∀ cpu, (∀ entry ∈ recent, entry.interrupts number cpu = false) →
      Toggles ((hub.detector number).polling cpu) (pollMarks number cpu recent)
        ((change (hub.detector number)).polling cpu)) :
    Alternates number hub (hub.modifyDetector seen change) recent := by
  intro cpu calm
  rw [Hub.detector_modifyDetector]
  by_cases concerned : number = seen
  · subst concerned
    rw [if_pos rfl]
    exact own rfl cpu calm
  · rw [if_neg concerned, others (Ne.symm concerned)]
    rfl

/-- Where some detector receives an event, every other poll goes on as it did. So it is enough if
the entries tell of none of these, and tell of its own poll what becomes of it. -/
theorem of_receive (hub : Hub) (seen : Nat) (place : Cpu) (event : Event)
    (recent : List (Entry H.Note))
    (elsewhere : ∀ cpu, ¬ (seen = number ∧ place = cpu) → pollMarks number cpu recent = [])
    (own : Toggles ((hub.detector seen).polling place) (pollMarks seen place recent)
      (((hub.detector seen).watches.get place).after
        ((hub.detector seen).reaction place event)).polling) :
    Alternates number hub (hub.modifyDetector seen (·.receive place event)) recent := by
  refine of_changed hub (·.receive place event) recent ?_ ?_
  · exact fun other cpu => elsewhere cpu fun both => other both.1
  · rintro rfl cpu _
    simp only [Detector.polling, watches_receive]
    by_cases here : place = cpu
    · subst here
      rw [if_pos rfl]
      exact own
    · rw [if_neg (Ne.symm here), elsewhere cpu fun both => here both.2]
      rfl

/-- Every step of a program keeps beginnings and ends by turns.

Proof: one case per kind of step. A poll begins only where none was going on and ends only where one
was, and clearing a poll is excluded unless there is none. -/
theorem stepwise (number : Nat) : Stepwise (Alternates (H := H) number) where
  append := by
    intro start middle finish early late first second cpu calm
    rw [pollMarks_append]
    refine toggles_append (first cpu fun entry inside => ?_) (second cpu fun entry inside => ?_)
    · exact calm entry (List.mem_append_right _ inside)
    · exact calm entry (List.mem_append_left _ inside)
  nothing hub := silent (fun _ => rfl) fun _ => rfl
  plain hub entry plain := by
    refine silent (fun cpu => ?_) fun _ => rfl
    cases entry with
    | pollStarted => cases plain
    | pollEnded => cases plain
    | _ => rfl
  enlist world registry cpu name listener free := silent (fun _ => rfl) fun _ => rfl
  enlistBoth world registry name listener free := silent (fun _ => rfl) fun _ => rfl
  strike world registry cpu name used := silent (fun _ => rfl) fun _ => rfl
  furnish world registry config := by
    refine of_changed world.hub (fun _ => .fresh config registry) [] (fun _ _ => rfl) ?_
    rintro rfl cpu _
    have unwritten : world.hub.detector world.hub.detectors.size = default :=
      Table.get_of_size_le _ (Nat.le_refl _)
    rw [unwritten]
    cases cpu <;> rfl
  clear world seen place := by
    refine of_changed world.hub (·.clear place) _ (fun _ _ => rfl) ?_
    rintro rfl cpu calm
    have uncleared : Entry.interrupts seen cpu
        (Entry.pollCleared seen place ((world.hub.detector seen).polling place)) = false :=
      calm _ (List.mem_singleton_self _)
    simp only [Detector.polling, watches_clear] at uncleared ⊢
    by_cases here : cpu = place
    · subst here
      rw [Entry.interrupts, decide_eq_true rfl, decide_eq_true rfl, Bool.true_and, Bool.true_and]
        at uncleared
      rw [if_pos rfl]
      exact uncleared
    · rw [if_neg here]
      rfl
  openRegistry world := silent (fun _ => rfl) fun _ => rfl
  retire world registry := silent (fun _ => rfl) fun _ => rfl
  ignore world seen place event reacted := by
    refine of_receive world.hub seen place event _ (fun _ _ => rfl) ?_
    rw [reacted]
    rfl
  start world seen place event reacted := by
    have idle : (world.hub.detector seen).polling place = false :=
      ((Watch.reaction_eq_started_iff ..).mp reacted).2
    refine of_receive world.hub seen place event _ ?_ ?_
    · intro cpu apart
      rw [pollMarks_started, if_neg apart]
    · rw [pollMarks_started, if_pos ⟨rfl, rfl⟩, idle, reacted]
      exact ⟨Bool.false_ne_true, rfl⟩
  wake world seen place event reacted := by
    have polls : (world.hub.detector seen).polling place = true :=
      ((Watch.reaction_eq_woken_iff ..).mp reacted).2.2
    refine of_receive world.hub seen place event _ ?_ ?_
    · intro cpu apart
      rw [pollMarks_ended, if_neg apart]
    · rw [pollMarks_ended, if_pos ⟨rfl, rfl⟩, polls, reacted]
      exact ⟨Bool.false_ne_true.symm, rfl⟩

end Alternates

end World

end Sh2Pair
