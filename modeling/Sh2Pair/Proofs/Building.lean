import Sh2Pair.Proofs.Leaving

/-!
# What it takes to build a scheduler

A scheduler with a poll detector is built in three steps: the settings are checked, a detector is
made, and the detector is registered for both processors. Each of the last two may fail, and
nothing is left of it then. Settings that are not accepted are found out before the registry is
looked at. After that it is the name of detectors that counts, whoever stands under it, and the
master comes before the slave.

So whether a scheduler can be built depends on the history of this name only. A detector that is to
wake once leaves one processor at a time, and as long as it has not left the second one, its
registry has no room for another.
-/

namespace Sh2Pair

variable {H : Host}

/-- The first processor, the master before the slave, for which a name is in use. -/
structure Hub.FirstUser (hub : Hub) (registry : Nat) (name : String) (cpu : Cpu) : Prop where
  used : hub.lookup registry cpu name ≠ none
  before : cpu = .slave → hub.lookup registry .master name = none

namespace Hub.FirstUser

variable {hub : Hub} {registry : Nat} {name : String}

/-- There is one first user of a name at most. -/
theorem eq {cpu other : Cpu} (first : hub.FirstUser registry name cpu)
    (second : hub.FirstUser registry name other) : cpu = other := by
  cases cpu with
  | master =>
    cases other with
    | master => rfl
    | slave => exact absurd (second.before rfl) first.used
  | slave =>
    cases other with
    | master => exact absurd (first.before rfl) second.used
    | slave => rfl

/-- A name that is in use for some processor has a first one. -/
theorem exists_of_used {cpu : Cpu} (used : hub.lookup registry cpu name ≠ none) :
    ∃ first, hub.FirstUser registry name first := by
  by_cases master : hub.lookup registry .master name = none
  · cases cpu with
    | master => exact absurd master used
    | slave => exact ⟨.slave, used, fun _ => master⟩
  · exact ⟨.master, master, nofun⟩

/-- A processor whose partner does not use the name is the first one if it does. -/
theorem of_alone {cpu : Cpu} (used : hub.lookup registry cpu name ≠ none)
    (alone : hub.lookup registry cpu.other name = none) : hub.FirstUser registry name cpu := by
  refine ⟨used, ?_⟩
  rintro rfl
  exact alone

end Hub.FirstUser

namespace World

variable (world : World H) {registry : Nat}

/-- A roster lacks a name exactly if nothing is found under it. -/
theorem has_eq_false_iff {cpu : Cpu} {name : String} :
    (world.hub.roster registry cpu).has name = false ↔
      world.hub.lookup registry cpu name = none := by
  rw [Roster.has_eq_isSome_find?, Option.isSome_eq_false_iff, Option.isNone_iff_eq_none]
  rfl

/-- A roster has every name under which something is found. -/
theorem has_of_used {cpu : Cpu} {name : String}
    (used : world.hub.lookup registry cpu name ≠ none) :
    (world.hub.roster registry cpu).has name = true := by
  rw [← Bool.not_eq_false]
  exact mt world.has_eq_false_iff.mp used

/-- A detector is refused for the first processor for which the name of detectors is in use. -/
theorem attach_used {cpu : Cpu} (config : PollConfig)
    (first : world.hub.FirstUser registry Detector.name cpu) :
    world.attach registry config =
      (.error ⟨cpu, Detector.name⟩, world.record (.refused registry cpu Detector.name)) := by
  have used : (world.hub.roster registry cpu).has Detector.name = true :=
    world.has_of_used first.used
  cases cpu with
  | master => simp only [attach, world.registerBoth_used_master _ used]
  | slave =>
    have free : (world.hub.roster registry .master).has Detector.name = false :=
      world.has_eq_false_iff.mpr (first.before rfl)
    simp only [attach, world.registerBoth_used_slave _ free used]

end World

namespace Scheduler

/-- What there is once a scheduler has been built. It has counted nothing. Its detector is the first
one that there was not before. It knows the settings, has seen nothing, and stands under the name of
detectors for both processors. Everything else is as it was. -/
structure Built (config : SliceConfig) (registry : Nat) (before : World H)
    (scheduler : Scheduler) (after : World H) : Prop where
  terms : scheduler.terms = (config, registry, some before.hub.detectors.size)
  slices : scheduler.slices = 0
  totals : ∀ cpu, scheduler.totals.get cpu = 0
  settings : (after.hub.detector before.hub.detectors.size).config = config.poll
  idle : ∀ cpu, (after.hub.detector before.hub.detectors.size).watches.get cpu = ⟨false, 0, 0⟩
  lookup : ∀ seen cpu name, after.hub.lookup seen cpu name =
    if seen = registry ∧ name = Detector.name then some (.detector before.hub.detectors.size)
    else before.hub.lookup seen cpu name
  others : ∀ number, number ≠ before.hub.detectors.size →
    after.hub.detector number = before.hub.detector number

/-- How an attempt to build a scheduler ends. Settings that are not accepted come first, then a name
of detectors that is in use, for the master before the slave. If there is neither, a scheduler is
built. Otherwise all registries and all detectors stay as they are. -/
structure AllOrNothing (config : SliceConfig) (registry : Nat) (world : World H) : Prop where
  rejected : ∀ cause, (watching config registry world).1 = .error (.config cause) ↔
    config.check = .error cause
  refused : ∀ duplicate, (watching config registry world).1 = .error (.poller duplicate) ↔
    config.check = .ok () ∧ duplicate.name = Detector.name ∧
      world.hub.FirstUser registry Detector.name duplicate.cpu
  accepted : (∃ scheduler, (watching config registry world).1 = .ok scheduler) ↔
    config.check = .ok () ∧ ∀ cpu, world.hub.lookup registry cpu Detector.name = none
  untouched : ∀ fault, (watching config registry world).1 = .error fault →
    (watching config registry world).2.hub = world.hub
  built : ∀ scheduler, (watching config registry world).1 = .ok scheduler →
    Built config registry world scheduler (watching config registry world).2

section Ends

variable {config : SliceConfig} {registry : Nat} (world : World H)

/-- Settings that the check rejects are answered with its cause, and nothing else happens. -/
theorem watching_of_rejected {cause : ConfigFault} (rejected : config.check = .error cause) :
    watching config registry world = (.error (.config cause), world) := by
  simp only [watching, rejected]

/-- If the name of detectors is in use, building is answered with its first user, and the refusal is
all that is noted. -/
theorem watching_of_used (accepted : config.check = .ok ()) {cpu : Cpu}
    (first : world.hub.FirstUser registry Detector.name cpu) :
    watching config registry world = (.error (.poller ⟨cpu, Detector.name⟩),
      world.record (.refused registry cpu Detector.name)) := by
  simp only [watching, accepted, world.attach_used config.poll first]

/-- If the settings are accepted and the name of detectors is free, a scheduler is built.

Proof: the detector is attached under a name that is free for both processors. Each field then says
what enlisting it and making it leave. -/
theorem watching_of_free (accepted : config.check = .ok ())
    (free : ∀ cpu, world.hub.lookup registry cpu Detector.name = none) :
    ∃ after, watching config registry world =
        (.ok (fresh config registry (some world.hub.detectors.size)), after) ∧
      Built config registry world (fresh config registry (some world.hub.detectors.size))
        after := by
  have unused : ∀ cpu, (world.hub.roster registry cpu).has Detector.name = false :=
    fun cpu => world.has_eq_false_iff.mpr (free cpu)
  have attached : world.attach registry config.poll = (.ok world.hub.detectors.size, _) :=
    world.attach_free config.poll unused
  refine ⟨_, by simp only [watching, accepted, attached]; rfl, ?_⟩
  obtain ⟨_, _, made⟩ := World.detector_of_attach attached
  constructor
  case terms => rfl
  case slices => rfl
  case totals => exact fun cpu => Pair.get_both 0 cpu
  case settings => rw [made]; rfl
  case idle => rw [made]; exact fun cpu => Pair.get_both _ cpu
  case lookup => exact world.lookup_enlistedBoth unused
  case others => exact fun number other => Table.get_set_ne _ other _

/-- Whatever the settings, the registry and the world are, building is all or nothing.

Proof: by cases on what stands in the way: the settings, the first user of the name, or nothing. In
each case the result is known, and the fields of the conclusion can be read off it. -/
theorem allOrNothing (config : SliceConfig) (registry : Nat) (world : World H) :
    AllOrNothing config registry world := by
  cases checked : config.check with
  | error cause =>
    have ended : watching config registry world = _ := watching_of_rejected world checked
    constructor <;> simp [ended, checked, eq_comm]
  | ok valid =>
    by_cases free : ∀ cpu, world.hub.lookup registry cpu Detector.name = none
    · obtain ⟨after, ended, built⟩ := watching_of_free world checked free
      have nobody : ∀ cpu, ¬ world.hub.FirstUser registry Detector.name cpu :=
        fun cpu first => first.used (free cpu)
      constructor
      case rejected => simp [ended, checked]
      case refused => simp [ended, nobody]
      case accepted => simp [ended, checked, free]
      case untouched => simp [ended]
      case built =>
        rw [ended]
        rintro _ ⟨⟩
        exact built
    · obtain ⟨cpu, used⟩ := not_forall.mp free
      obtain ⟨first, user⟩ := Hub.FirstUser.exists_of_used used
      have ended : watching config registry world = (.error (.poller ⟨first, Detector.name⟩),
          world.record (.refused registry first Detector.name)) :=
        watching_of_used world checked user
      constructor
      case rejected => simp [ended, checked]
      case refused =>
        rintro ⟨place, name⟩
        rw [ended]
        simp only [Except.error.injEq, BuildFault.poller.injEq, Duplicate.mk.injEq, checked,
          true_and]
        constructor
        · rintro ⟨rfl, rfl⟩
          exact ⟨rfl, user⟩
        · rintro ⟨rfl, other⟩
          exact ⟨user.eq other, rfl⟩
      case accepted => simp [ended, free]
      case untouched =>
        rw [ended]
        exact fun _ _ => rfl
      case built => simp [ended]

/-- So it is decided by the name of detectors whether accepted settings lead to a scheduler. -/
theorem watching_of_lookup (accepted : config.check = .ok ()) {cpu : Cpu}
    (gone : world.hub.lookup registry cpu Detector.name = none) :
    (world.hub.lookup registry cpu.other Detector.name = none →
      ∃ scheduler, (watching config registry world).1 = .ok scheduler) ∧
    (world.hub.lookup registry cpu.other Detector.name ≠ none →
      (watching config registry world).1 = .error (.poller ⟨cpu.other, Detector.name⟩)) := by
  have ends : AllOrNothing config registry world := allOrNothing config registry world
  constructor
  · intro free
    refine ends.accepted.mpr ⟨accepted, ?_⟩
    intro seen
    rcases Cpu.eq_or_eq_other seen cpu with rfl | rfl
    · exact gone
    · exact free
  · intro used
    refine (ends.refused ⟨cpu.other, Detector.name⟩).mpr ⟨accepted, rfl, .of_alone used ?_⟩
    rw [Cpu.other_other]
    exact gone

end Ends

/-- How accepted settings fare at a moment, by the entries since an earlier one. Once the name of
detectors has been removed for both processors, there is room. A detector that was attached at the
earlier moment leaves no room as long as it has not been removed for one of the processors, and if
it has been removed for the other one, it is the first one that is in the way. -/
structure FollowsName (config : SliceConfig) (registry : Nat) (start moment : World H)
    (recent : List (Entry H.Note)) : Prop where
  room : (∀ cpu, latest? registry cpu Detector.name recent = some none) →
    ∃ scheduler, (watching config registry moment).1 = .ok scheduler
  stays : ∀ (before : World H) poll number, before.attach registry poll = (.ok number, start) →
    ∀ cpu, (∀ entry ∈ recent, entry.tells? registry cpu Detector.name ≠ some none) →
      moment.hub.lookup registry cpu Detector.name = some (.detector number) ∧
      (∃ first, (watching config registry moment).1 =
        .error (.poller ⟨first, Detector.name⟩)) ∧
      (latest? registry cpu.other Detector.name recent = some none →
        (watching config registry moment).1 = .error (.poller ⟨cpu, Detector.name⟩))

/-- Whether there is room for a detector follows the registrations of its name, from a moment at
which they were in order.

Proof: what is found under the name is the latest thing that the journal says about it. If that was
a removal, the name is free. If nothing was said, the detector that was attached still stands there.
-/
theorem followsName {config : SliceConfig} {registry : Nat} {start moment : World H}
    {recent : List (Entry H.Note)} (valid : config.check = .ok ())
    (accounts : World.Accounts start moment recent) (ordered : World.Ordered start recent) :
    FollowsName config registry start moment recent := by
  have ends : AllOrNothing config registry moment := allOrNothing config registry moment
  have removed : ∀ cpu, latest? registry cpu Detector.name recent = some none →
      moment.hub.lookup registry cpu Detector.name = none := by
    intro cpu latest
    rw [accounts.view, latest]
    rfl
  constructor
  case room => exact fun gone => ends.accepted.mpr ⟨valid, fun cpu => removed cpu (gone cpu)⟩
  case stays =>
    intro before poll number attached cpu stays
    have stood : start.hub.lookup registry cpu Detector.name = some (.detector number) :=
      World.lookup_of_attach attached cpu
    have orderly :
        Orderly registry cpu Detector.name (start.hub.lookup registry cpu Detector.name) recent :=
      ordered registry cpu Detector.name
    rw [stood] at orderly
    have stands : moment.hub.lookup registry cpu Detector.name = some (.detector number) := by
      rw [accounts.view, latest?_eq_none_of_orderly orderly stays, stood]
      rfl
    have used : moment.hub.lookup registry cpu Detector.name ≠ none := by
      rw [stands]
      exact Option.some_ne_none _
    refine ⟨stands, ?_, ?_⟩
    · obtain ⟨first, user⟩ := Hub.FirstUser.exists_of_used used
      exact ⟨first, (ends.refused ⟨first, Detector.name⟩).mpr ⟨valid, rfl, user⟩⟩
    · intro gone
      exact (ends.refused ⟨cpu, Detector.name⟩).mpr ⟨valid, rfl, .of_alone used (removed _ gone)⟩

/-- What it is good for that a detector which is to wake once wakes for a processor. The name of
detectors is free for this processor then, and stands as before for the other one. So there is room
for a new detector exactly if the other processor has been left before. -/
structure MakesRoom (config : SliceConfig) (registry : Nat) (cpu : Cpu) (asleep woken : World H) :
    Prop where
  left : woken.hub.lookup registry cpu Detector.name = none
  other : woken.hub.lookup registry cpu.other Detector.name =
    asleep.hub.lookup registry cpu.other Detector.name
  room : asleep.hub.lookup registry cpu.other Detector.name = none →
    ∃ scheduler, (watching config registry woken).1 = .ok scheduler
  waits : asleep.hub.lookup registry cpu.other Detector.name ≠ none →
    (watching config registry woken).1 = .error (.poller ⟨cpu.other, Detector.name⟩)

/-- A detector that is to wake once makes room when it wakes. -/
theorem makesRoom {config : SliceConfig} (valid : config.check = .ok ()) (world : World H)
    {number : Nat} {cpu : Cpu} {event : Event}
    (once : (world.hub.detector number).config.oneShot = true)
    (wakes : (world.hub.detector number).reaction cpu event = .woken) :
    MakesRoom config (world.hub.detector number).home cpu world
      (world.signal number cpu event) := by
  have left : (world.signal number cpu event).hub.lookup (world.hub.detector number).home cpu
      Detector.name = none := by
    rw [World.lookup_signal, if_pos ⟨⟨wakes, once⟩, rfl, rfl, rfl⟩]
  have other : (world.signal number cpu event).hub.lookup (world.hub.detector number).home
      cpu.other Detector.name =
        world.hub.lookup (world.hub.detector number).home cpu.other Detector.name := by
    rw [World.lookup_signal, if_neg fun here => Cpu.other_ne cpu here.2.2.1]
  obtain ⟨accepted, refused⟩ := watching_of_lookup (world.signal number cpu event) valid left
  rw [other] at accepted refused
  exact ⟨left, other, accepted, refused⟩

end Scheduler

namespace Machine

variable {ε : Type}

/-- Building a scheduler with a poll detector is all or nothing, for any settings, any registry and
any world. In particular take accepted settings, and any moment of any course. If the name of
detectors has been removed for both processors since some earlier moment, and not used since, a
scheduler is built. If a detector was attached then and has not been removed for one of the
processors, none is built, whatever became of the other one. A detector that is to wake once removes
itself for one processor at a time, so after its first wake-up there is no room for another one, and
after its second one there is.

Proof: the first part is a case analysis on the world. For the second one, whatever happens in a
course is recounted by the journal, in order, and the name of detectors is looked up there. A
detector that wakes removes its own name, and nothing else. -/
theorem building_all_or_nothing (setting : Setting H) (depth : Nat) :
    (∀ config registry (world : World H), Scheduler.AllOrNothing config registry world) ∧
    ∀ config : SliceConfig, config.check = .ok () →
      (∀ registry (start : Machine H ε) (moves : List (Move H ε)),
        ∀ moment ∈ start.moments setting depth moves, ∃ recent,
          moment.journal = recent ++ start.world.journal ∧
            Scheduler.FollowsName config registry start.world moment recent) ∧
      ∀ (world : World H) number cpu event,
        (world.hub.detector number).config.oneShot = true →
        (world.hub.detector number).reaction cpu event = .woken →
          Scheduler.MakesRoom config (world.hub.detector number).home cpu world
            (world.signal number cpu event) := by
  refine ⟨Scheduler.allOrNothing, fun config valid => ⟨?_, ?_⟩⟩
  · intro registry start moves moment inside
    obtain ⟨recent, accounts, ordered⟩ := Follows.moments World.Recounts.steady setting depth start
      moves (World.Recounts.passes _) moment inside
    exact ⟨recent, accounts.journal, Scheduler.followsName valid accounts ordered⟩
  · intro world number cpu event once wakes
    exact Scheduler.makesRoom valid world once wakes

/-- The surroundings fire an event for the slave in the first registry. -/
def fireSlave (event : Event) : Move ⟨Unit, Unit⟩ Unit :=
  .act (.request (.fire 0 .slave event) fun _ => .ret ())

/-- A detector that is to wake once has woken for the master, and then it wakes for the slave. -/
theorem building_all_or_nothing_after_wakes :
    let start := equipped (.initial ())
    let once := play .still 1 [fireMaster .startPolling, fireMaster .comm] start
    let asleep := (once.move .still 1 (fireSlave .startPolling)).world
    (Scheduler.watching .standard 0 once.world).1 = .error (.poller ⟨.slave, Detector.name⟩) ∧
      ∃ scheduler,
        (Scheduler.watching .standard 0 (asleep.signal 0 .slave .comm)).1 = .ok scheduler := by
  intro start once asleep
  obtain ⟨follows, wakes⟩ :=
    (building_all_or_nothing (H := ⟨Unit, Unit⟩) (ε := Unit) .still 1).2 .standard (by decide)
  constructor
  · obtain ⟨recent, journal, named⟩ := follows 0 start _ once.world (play_mem_moments _ _ _ start)
    obtain rfl : once.world.journal.take 9 = recent := List.append_cancel_right journal
    exact (named.stays (.initial ()) ⟨true, [.comm]⟩ 0 rfl .slave (by decide)).2.2 rfl
  · have home : (asleep.hub.detector 0).home = 0 := by decide +kernel
    have gone : asleep.hub.lookup 0 .master Detector.name = none := by decide +kernel
    have makes : Scheduler.MakesRoom SliceConfig.standard (asleep.hub.detector 0).home .slave asleep
        (asleep.signal 0 .slave .comm) :=
      wakes asleep 0 .slave .comm (by decide +kernel) (by decide +kernel)
    rw [home] at makes
    exact makes.room gone

end Machine

end Sh2Pair
