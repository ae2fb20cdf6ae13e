import Mathlib.Data.List.Nodup
import Sh2Pair.World

/-!
# What each operation does

One equation for every way in which an operation on registries and detectors can end. Proofs
about runs use these equations and the view `Hub.lookup`, and look into no operation again.

The view forgets the order of the registrations, on which nothing but the order of calls
depends: it says which listener stands under a name for a processor of a registry.
-/

namespace Sh2Pair

namespace Roster

/-- A listener is among the listeners exactly if it is found under some name. Names are unique,
so no registration hides another. -/
theorem mem_listeners_iff (roster : Roster) (listener : Listener) :
    listener ∈ roster.listeners ↔ ∃ name, roster.find? name = some listener := by
  constructor
  · intro member
    obtain ⟨entry, inside, same⟩ := List.mem_map.mp member
    refine ⟨entry.name, ?_⟩
    have found : roster.entries.find? (fun seen => seen.name = entry.name) = some entry := by
      obtain ⟨first, hit⟩ : ∃ first,
          roster.entries.find? (fun seen => decide (seen.name = entry.name)) = some first := by
        rw [← Option.isSome_iff_exists, List.find?_isSome]
        exact ⟨entry, inside, decide_eq_true rfl⟩
      have sameName : first.name = entry.name := by simpa using List.find?_some hit
      have unique : ∀ ⦃x : Registration⦄, x ∈ roster.entries →
          ∀ ⦃y : Registration⦄, y ∈ roster.entries → x.name = y.name → x = y :=
        List.inj_on_of_nodup_map roster.nodup
      rw [hit, unique (List.mem_of_find?_eq_some hit) inside sameName]
    rw [find?, found, Option.map_some, same]
  · rintro ⟨name, found⟩
    rw [find?, Option.map_eq_some_iff] at found
    obtain ⟨entry, hit, same⟩ := found
    exact List.mem_map.mpr ⟨entry, List.mem_of_find?_eq_some hit, same⟩

/-- There are as many listeners as registrations. -/
@[simp] theorem length_listeners (roster : Roster) : roster.listeners.length = roster.size :=
  List.length_map ..

end Roster

namespace Hub

/-- The listener under a name, for a processor of a registry. -/
def lookup (hub : Hub) (registry : Nat) (cpu : Cpu) (name : String) : Option Listener :=
  (hub.roster registry cpu).find? name

/-- The listeners of a processor are those that are found under some name. -/
theorem mem_listeners_iff (hub : Hub) (registry : Nat) (cpu : Cpu) (listener : Listener) :
    listener ∈ (hub.roster registry cpu).listeners ↔
      ∃ name, hub.lookup registry cpu name = some listener :=
  (hub.roster registry cpu).mem_listeners_iff listener

/-- Adding a registration shows at its own place only. -/
theorem lookup_insert (hub : Hub) (registry seen : Nat) (cpu place : Cpu) (name sought : String)
    (listener : Listener) (free : (hub.roster registry cpu).has name = false) :
    (hub.setRoster registry cpu ((hub.roster registry cpu).insert name listener free)).lookup
        seen place sought =
      if seen = registry ∧ place = cpu ∧ sought = name then some listener
      else hub.lookup seen place sought := by
  rw [lookup, roster_setRoster]
  by_cases here : seen = registry ∧ place = cpu
  · obtain ⟨rfl, rfl⟩ := here
    simp [Roster.find?_insert, lookup]
  · rw [if_neg here, if_neg (fun all => here ⟨all.1, all.2.1⟩), lookup]

/-- Removing a registration shows at its own place only. -/
theorem lookup_erase (hub : Hub) (registry seen : Nat) (cpu place : Cpu) (name sought : String) :
    (hub.setRoster registry cpu ((hub.roster registry cpu).erase name)).lookup
        seen place sought =
      if seen = registry ∧ place = cpu ∧ sought = name then none
      else hub.lookup seen place sought := by
  rw [lookup, roster_setRoster]
  by_cases here : seen = registry ∧ place = cpu
  · obtain ⟨rfl, rfl⟩ := here
    simp [Roster.find?_erase, lookup]
  · rw [if_neg here, if_neg (fun all => here ⟨all.1, all.2.1⟩), lookup]

end Hub

namespace World

variable {H : Host}

/-- An entry leaves the hub alone. -/
@[simp] theorem hub_record (world : World H) (entry : Entry H.Note) :
    (world.record entry).hub = world.hub := rfl

/-- An entry is put in front of the journal. -/
@[simp] theorem journal_record (world : World H) (entry : Entry H.Note) :
    (world.record entry).journal = entry :: world.journal := rfl

/-- The world with a listener added under a name that is free for one processor. -/
def enlisted (world : World H) (registry : Nat) (cpu : Cpu) (name : String)
    (listener : Listener) (free : (world.hub.roster registry cpu).has name = false) : World H :=
  { world with
    hub := world.hub.setRoster registry cpu
      ((world.hub.roster registry cpu).insert name listener free) }

/-- The world with a listener added under a name that is free for both processors. -/
def enlistedBoth (world : World H) (registry : Nat) (name : String) (listener : Listener)
    (free : ∀ cpu, (world.hub.roster registry cpu).has name = false) : World H :=
  { world with
    hub := (world.hub.setRoster registry .master
      ((world.hub.roster registry .master).insert name listener (free .master))).setRoster
        registry .slave
          ((world.hub.roster registry .slave).insert name listener (free .slave)) }

/-- The world without what was registered under a name for one processor. -/
def struck (world : World H) (registry : Nat) (cpu : Cpu) (name : String) : World H :=
  { world with
    hub := world.hub.setRoster registry cpu ((world.hub.roster registry cpu).erase name) }

/-- After a registration, the listener is found under its name, and everything else as before. -/
theorem lookup_enlisted (world : World H) {registry : Nat} {cpu : Cpu} {name : String}
    {listener : Listener} (free : (world.hub.roster registry cpu).has name = false)
    (seen : Nat) (place : Cpu) (sought : String) :
    (world.enlisted registry cpu name listener free).hub.lookup seen place sought =
      if seen = registry ∧ place = cpu ∧ sought = name then some listener
      else world.hub.lookup seen place sought :=
  world.hub.lookup_insert registry seen cpu place name sought listener free

/-- After a registration for both processors, the listener is found under its name for either, and
everything else as before. -/
theorem lookup_enlistedBoth (world : World H) {registry : Nat} {name : String}
    {listener : Listener} (free : ∀ cpu, (world.hub.roster registry cpu).has name = false)
    (seen : Nat) (place : Cpu) (sought : String) :
    (world.enlistedBoth registry name listener free).hub.lookup seen place sought =
      if seen = registry ∧ sought = name then some listener
      else world.hub.lookup seen place sought := by
  simp only [enlistedBoth, Hub.lookup, Hub.roster_setRoster]
  by_cases here : seen = registry
  · subst here
    cases place <;> simp [Roster.find?_insert]
  · simp [here]

/-- After a removal, nothing is found under the name, and everything else as before. -/
theorem lookup_struck (world : World H) (registry seen : Nat) (cpu place : Cpu)
    (name sought : String) :
    (world.struck registry cpu name).hub.lookup seen place sought =
      if seen = registry ∧ place = cpu ∧ sought = name then none
      else world.hub.lookup seen place sought :=
  world.hub.lookup_erase registry seen cpu place name sought

/-- A registry that has not been opened is empty, so opening it leaves it as it was. -/
theorem registry_openRegistry (world : World H) (seen : Nat) :
    world.openRegistry.2.hub.registry seen = world.hub.registry seen := by
  by_cases opened : seen = world.hub.registries.size
  · subst opened
    exact (Table.get_set_self ..).trans (Table.get_of_size_le _ (Nat.le_refl _)).symm
  · exact Table.get_set_ne _ opened _

/-- In a new registry, nothing is found, as nothing was found where there was none. -/
theorem lookup_openRegistry (world : World H) (seen : Nat) (place : Cpu) (sought : String) :
    world.openRegistry.2.hub.lookup seen place sought = world.hub.lookup seen place sought := by
  rw [Hub.lookup, Hub.lookup, Hub.roster, Hub.roster, registry_openRegistry]

/-- A registry that is dropped is empty from then on, and the others are as they were. -/
theorem registry_retire (world : World H) (registry seen : Nat) :
    (world.retire registry).hub.registry seen =
      if seen = registry then .empty else world.hub.registry seen := Table.get_set ..

/-- After a registry was dropped, nothing is found there, and everything else as before. -/
theorem lookup_retire (world : World H) (registry seen : Nat) (place : Cpu) (sought : String) :
    (world.retire registry).hub.lookup seen place sought =
      if seen = registry then none else world.hub.lookup seen place sought := by
  rw [Hub.lookup, Hub.lookup, Hub.roster, Hub.roster, registry_retire]
  by_cases here : seen = registry
  · rw [if_pos here, if_pos here, Registry.empty, Pair.get_both, Roster.find?_empty]
  · rw [if_neg here, if_neg here]

/-- A registration under a free name succeeds and is noted. -/
theorem register_free (world : World H) {registry : Nat} {cpu : Cpu} {name : String}
    (listener : Listener) (free : (world.hub.roster registry cpu).has name = false) :
    world.register registry cpu name listener =
      (.ok (), (world.enlisted registry cpu name listener free).record
        (.registered registry cpu name listener)) :=
  dif_pos free

/-- A registration under a name in use is refused, which is noted, and changes nothing else. -/
theorem register_used (world : World H) {registry : Nat} {cpu : Cpu} {name : String}
    (listener : Listener) (used : (world.hub.roster registry cpu).has name = true) :
    world.register registry cpu name listener =
      (.error ⟨cpu, name⟩, world.record (.refused registry cpu name)) :=
  dif_neg (by rw [used]; decide)

/-- A registration for both processors succeeds if the name is free for both. -/
theorem registerBoth_free (world : World H) {registry : Nat} {name : String}
    (listener : Listener)
    (free : ∀ cpu, (world.hub.roster registry cpu).has name = false) :
    world.registerBoth registry name listener =
      (.ok (), (world.enlistedBoth registry name listener free).record
        (.registeredBoth registry name listener)) := by
  simp only [registerBoth, free .master, free .slave, dite_true]
  rfl

/-- A registration for both processors is refused on behalf of the master if the name is in use
there. -/
theorem registerBoth_used_master (world : World H) {registry : Nat} {name : String}
    (listener : Listener) (used : (world.hub.roster registry .master).has name = true) :
    world.registerBoth registry name listener =
      (.error ⟨.master, name⟩, world.record (.refused registry .master name)) :=
  dif_neg (by rw [used]; decide)

/-- A registration for both processors is refused on behalf of the slave if the name is in use there
only. -/
theorem registerBoth_used_slave (world : World H) {registry : Nat} {name : String}
    (listener : Listener) (free : (world.hub.roster registry .master).has name = false)
    (used : (world.hub.roster registry .slave).has name = true) :
    world.registerBoth registry name listener =
      (.error ⟨.slave, name⟩, world.record (.refused registry .slave name)) := by
  simp [registerBoth, free, used]

/-- A registration for both processors either finds the name free for both, or is refused for
the first processor that has it. -/
theorem registerBoth_cases (world : World H) (registry : Nat) (name : String)
    (listener : Listener) :
    (∃ free : ∀ cpu, (world.hub.roster registry cpu).has name = false,
      world.registerBoth registry name listener =
        (.ok (), (world.enlistedBoth registry name listener free).record
          (.registeredBoth registry name listener))) ∨
    ∃ cpu, (world.hub.roster registry cpu).has name = true ∧
      world.registerBoth registry name listener =
        (.error ⟨cpu, name⟩, world.record (.refused registry cpu name)) := by
  cases master : (world.hub.roster registry .master).has name with
  | true => exact .inr ⟨.master, master, world.registerBoth_used_master listener master⟩
  | false =>
    cases slave : (world.hub.roster registry .slave).has name with
    | true => exact .inr ⟨.slave, slave, world.registerBoth_used_slave listener master slave⟩
    | false =>
      have free : ∀ cpu, (world.hub.roster registry cpu).has name = false := by
        intro cpu
        cases cpu with
        | master => exact master
        | slave => exact slave
      exact .inl ⟨free, world.registerBoth_free listener free⟩

/-- Removing a name in use succeeds and is noted. -/
theorem remove_used (world : World H) {registry : Nat} {cpu : Cpu} {name : String}
    (used : (world.hub.roster registry cpu).has name = true) :
    world.remove registry cpu name =
      (true, (world.struck registry cpu name).record (.removed registry cpu name)) :=
  if_pos used

/-- Removing a free name finds nothing, and nothing changes. -/
theorem remove_free (world : World H) {registry : Nat} {cpu : Cpu} {name : String}
    (free : (world.hub.roster registry cpu).has name = false) :
    world.remove registry cpu name = (false, world) :=
  if_neg (by rw [free]; decide)

/-- The world with a fresh detector at the first number that is not in use. -/
def furnished (world : World H) (registry : Nat) (config : PollConfig) : World H :=
  { world with
    hub := { world.hub with detectors := world.hub.detectors.push (.fresh config registry) } }

/-- A detector is attached for both processors if the name of detectors is free for both. -/
theorem attach_free (world : World H) {registry : Nat} (config : PollConfig)
    (free : ∀ cpu, (world.hub.roster registry cpu).has Detector.name = false) :
    world.attach registry config =
      (.ok world.hub.detectors.size,
        ((world.enlistedBoth registry Detector.name (.detector world.hub.detectors.size)
          free).record (.registeredBoth registry Detector.name
            (.detector world.hub.detectors.size))).furnished registry config) := by
  simp only [attach, world.registerBoth_free _ free]
  rfl

/-- A detector is made and registered for both processors, or it is refused and not made. -/
theorem attach_cases (world : World H) (registry : Nat) (config : PollConfig) :
    (∃ free : ∀ cpu, (world.hub.roster registry cpu).has Detector.name = false,
      world.attach registry config =
        (.ok world.hub.detectors.size,
          ((world.enlistedBoth registry Detector.name (.detector world.hub.detectors.size)
            free).record (.registeredBoth registry Detector.name
              (.detector world.hub.detectors.size))).furnished registry config)) ∨
    ∃ cpu, (world.hub.roster registry cpu).has Detector.name = true ∧
      world.attach registry config =
        (.error ⟨cpu, Detector.name⟩, world.record (.refused registry cpu Detector.name)) := by
  rcases world.registerBoth_cases registry Detector.name (.detector world.hub.detectors.size)
    with ⟨free, _⟩ | ⟨cpu, used, refused⟩
  · exact .inl ⟨free, world.attach_free config free⟩
  · exact .inr ⟨cpu, used, by simp only [attach, refused]⟩

/-- The world in which a detector knows of an event and has not acted on it. -/
def informed (world : World H) (number : Nat) (cpu : Cpu) (event : Event) : World H :=
  { world with hub := world.hub.modifyDetector number (·.receive cpu event) }

/-- Everything that telling a detector can do: nothing more than it learns, a poll begins, a
poll ends, or a poll ends and what is registered under the name of detectors is removed.

Proof: by the reaction of the detector, and if it wakes, by whether it is to leave and whether
anything is registered under its name. -/
theorem signal_cases (world : World H) (number : Nat) (cpu : Cpu) (event : Event) :
    ((world.hub.detector number).reaction cpu event = .ignored ∧
      world.signal number cpu event = world.informed number cpu event) ∨
    ((world.hub.detector number).reaction cpu event = .started ∧
      world.signal number cpu event =
        (world.informed number cpu event).record (.pollStarted number cpu)) ∨
    ((world.hub.detector number).reaction cpu event = .woken ∧
      ((world.hub.detector number).config.oneShot = false ∨
        (world.hub.roster (world.hub.detector number).home cpu).has Detector.name = false) ∧
      world.signal number cpu event =
        (world.informed number cpu event).record (.pollEnded number cpu event)) ∨
    ((world.hub.detector number).reaction cpu event = .woken ∧
      (world.hub.detector number).config.oneShot = true ∧
      (world.hub.roster (world.hub.detector number).home cpu).has Detector.name = true ∧
      world.signal number cpu event =
        ((((world.informed number cpu event).record (.pollEnded number cpu event)).struck
          (world.hub.detector number).home cpu Detector.name).record
            (.removed (world.hub.detector number).home cpu Detector.name))) := by
  cases reacted : (world.hub.detector number).reaction cpu event with
  | ignored => exact .inl ⟨rfl, by simp only [signal, reacted]; rfl⟩
  | started => exact .inr (.inl ⟨rfl, by simp only [signal, reacted]; rfl⟩)
  | woken =>
    refine .inr (.inr ?_)
    have ended : world.signal number cpu event =
        if (world.hub.detector number).config.oneShot then
          (((world.informed number cpu event).record (.pollEnded number cpu event)).remove
            (world.hub.detector number).home cpu Detector.name).2
        else (world.informed number cpu event).record (.pollEnded number cpu event) := by
      simp only [signal, reacted]
      rfl
    cases once : (world.hub.detector number).config.oneShot with
    | false =>
      rw [once] at ended
      exact .inl ⟨rfl, .inl rfl, ended⟩
    | true =>
      rw [once, if_pos rfl] at ended
      -- Learning and recording change no registry, so what is registered is the same.
      cases used : (world.hub.roster (world.hub.detector number).home cpu).has Detector.name with
      | false =>
        have unchanged :
            ((world.informed number cpu event).record (.pollEnded number cpu event)).remove
              (world.hub.detector number).home cpu Detector.name =
              (false, (world.informed number cpu event).record (.pollEnded number cpu event)) :=
          remove_free
            ((world.informed number cpu event).record (.pollEnded number cpu event)) used
        exact .inl ⟨rfl, .inr rfl, ended.trans (congrArg Prod.snd unchanged)⟩
      | true =>
        have gone := remove_used
          ((world.informed number cpu event).record (.pollEnded number cpu event)) used
        exact .inr ⟨rfl, rfl, rfl, ended.trans (congrArg Prod.snd gone)⟩

/-- Being told about an event changes no detector but the one that is told, and that one as its
own rules say. -/
theorem signal_detectors (world : World H) (number : Nat) (cpu : Cpu) (event : Event) :
    (world.signal number cpu event).hub.detectors =
      (world.hub.modifyDetector number (·.receive cpu event)).detectors := by
  rcases world.signal_cases number cpu event with
    ⟨_, after⟩ | ⟨_, after⟩ | ⟨_, _, after⟩ | ⟨_, _, _, after⟩ <;> rw [after] <;> rfl

/-- Being told about an event removes one registration at most: what stands under the name of
detectors in the registry of the detector, if the detector is to wake only once and does so.

Proof: by the cases of being told. A detector that is to leave but removes nothing finds nothing
under its name, so that there is nothing registered there in any case. -/
theorem lookup_signal (world : World H) (number registry : Nat) (cpu place : Cpu) (event : Event)
    (name : String) :
    (world.signal number cpu event).hub.lookup registry place name =
      if ((world.hub.detector number).reaction cpu event = .woken ∧
          (world.hub.detector number).config.oneShot = true) ∧
        registry = (world.hub.detector number).home ∧ place = cpu ∧ name = Detector.name
      then none else world.hub.lookup registry place name := by
  rcases world.signal_cases number cpu event with
    ⟨reacted, after⟩ | ⟨reacted, after⟩ | ⟨reacted, stays, after⟩ | ⟨reacted, once, _, after⟩
  · rw [after, reacted, if_neg (by simp)]
    rfl
  · rw [after, reacted, if_neg (by simp)]
    rfl
  · rw [after]
    change world.hub.lookup registry place name = _
    split
    · rename_i here
      obtain ⟨⟨_, once⟩, rfl, rfl, rfl⟩ := here
      -- A detector that is to leave and removes nothing finds nothing under the name.
      rcases stays with never | free
      · rw [once] at never
        cases never
      · rw [Roster.has_eq_isSome_find?, Option.isSome_eq_false_iff,
          Option.isNone_iff_eq_none] at free
        exact free
    · rfl
  · rw [after, hub_record, lookup_struck, reacted, once]
    simp only [true_and]
    rfl

/-- Being told about an event registers nothing. -/
theorem lookup_of_signal (world : World H) {number registry : Nat} {cpu place : Cpu}
    {event : Event} {name : String} {listener : Listener}
    (found : (world.signal number cpu event).hub.lookup registry place name = some listener) :
    world.hub.lookup registry place name = some listener := by
  rw [lookup_signal] at found
  split at found
  · cases found
  · exact found

end World

end Sh2Pair
