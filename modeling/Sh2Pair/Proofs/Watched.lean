import Sh2Pair.Proofs.Accounting
import Sh2Pair.Proofs.Ledger
import Sh2Pair.Proofs.Orders
import Sh2Pair.Proofs.Strides
import Sh2Pair.Proofs.Transparency

/-!
# Registries that nobody but a detector watches

A registry on which the small core fires may have no listeners at all, or a detector that was
attached to it as the only one. In both cases every fire comes back, and each instruction leaves
what its stride says: the context, the memory, and the hub after the announcement.

Three kinds of schedulers begin like this: one without a detector, one with a detector of its own,
and one without for whose registry a detector was attached all the same.
-/

namespace Sh2Pair

namespace Hub

/-- A registry has no listener but a given detector, if one is given. The detector need not be
registered any more. -/
def Watched (registry : Nat) (watcher : Option Nat) (hub : Hub) : Prop :=
  ∀ cpu, (hub.roster registry cpu).listeners = [] ∨
    ∃ number, watcher = some number ∧ (hub.roster registry cpu).listeners = [.detector number]

/-- A given detector takes a processor to be polling. -/
def polls (hub : Hub) (watcher : Option Nat) (cpu : Cpu) : Bool :=
  match watcher with
  | some number => (hub.detector number).polling cpu
  | none => false

variable {registry : Nat} {watcher : Option Nat} {hub : Hub}

/-- A fire on a registry without listeners does nothing. -/
theorem fired_of_nobody {cpu : Cpu} (nobody : (hub.roster registry cpu).listeners = [])
    (event : Event) : hub.fired registry cpu event = hub := by
  rw [fired, nobody, List.foldl_nil]

/-- A fire on a registry with one detector tells it. -/
theorem fired_of_one {cpu : Cpu} {number : Nat}
    (one : (hub.roster registry cpu).listeners = [.detector number]) (event : Event) :
    hub.fired registry cpu event = hub.signal number cpu event := by
  rw [fired, one, List.foldl_cons, List.foldl_nil]
  rfl

/-- What a fire does is what the watching detector does, if it is registered. -/
theorem Watched.fired_eq_heard {number : Nat} (watched : hub.Watched registry (some number))
    (cpu : Cpu) (event : Event) :
    hub.fired registry cpu event = hub.heard registry number cpu event := by
  rcases watched cpu with nobody | ⟨seen, same, one⟩
  · rw [fired_of_nobody nobody, heard, if_pos nobody]
  · cases same
    rw [fired_of_one one, heard, if_neg (by rw [one]; simp)]

/-- A fire leaves the detector the only listener, or takes it out of the registry. -/
theorem Watched.fired (watched : hub.Watched registry watcher) (cpu : Cpu) (event : Event) :
    (hub.fired registry cpu event).Watched registry watcher := by
  intro place
  rcases watched cpu with nobody | ⟨number, _, one⟩
  · rw [fired_of_nobody nobody]
    exact watched place
  · rw [fired_of_one one]
    have fewer : ((hub.signal number cpu event).roster registry place).listeners.Sublist
        (hub.roster registry place).listeners := hub.roster_signal number registry cpu place event
    rcases watched place with none | ⟨seen, same, alone⟩
    · rw [none] at fewer
      exact .inl (List.sublist_nil.mp fewer)
    · rw [alone] at fewer
      exact (List.sublist_singleton.mp fewer).imp_right fun still => ⟨seen, same, still⟩

/-- A fire for one processor says nothing about the other. -/
theorem Watched.polls_fired_other (watched : hub.Watched registry watcher) {cpu place : Cpu}
    (other : place ≠ cpu) (event : Event) :
    (hub.fired registry cpu event).polls watcher place = hub.polls watcher place := by
  cases watcher with
  | none => rfl
  | some number =>
    rw [watched.fired_eq_heard]
    exact hub.polling_heard_other registry number other event

/-- A processor that polls after an event other than a report did so before. -/
theorem Watched.polls_of_fired (watched : hub.Watched registry watcher) {cpu place : Cpu}
    {event : Event} (noReport : event ≠ .startPolling)
    (polls : (hub.fired registry cpu event).polls watcher place = true) :
    hub.polls watcher place = true := by
  cases watcher with
  | none => exact polls
  | some number =>
    rw [watched.fired_eq_heard] at polls
    exact polling_of_heard noReport polls

end Hub

variable {H : Host}

/-- A fire on a watched registry comes back, and does to the hub what the registrations say. -/
theorem World.fire_of_watched (setting : Setting H) (depth : Nat) (world : World H)
    {registry : Nat} {watcher : Option Nat} (watched : world.hub.Watched registry watcher)
    (cpu : Cpu) (event : Event) :
    ∃ after, world.fire (setting.deliver depth) setting.arrange registry cpu event =
        (.done (world.hub.roster registry cpu).size, after) ∧
      after.hub = world.hub.fired registry cpu event ∧ world.journal <:+ after.journal := by
  have order : (setting.arrange world.fires (world.hub.roster registry cpu).listeners).Perm
      (world.hub.roster registry cpu).listeners :=
    setting.arrange_perm world.fires (world.hub.roster registry cpu).listeners
  have grown : world.journal <:+
      (world.fire (setting.deliver depth) setting.arrange registry cpu event).2.journal :=
    Later.steady.grows (Later.steady.fire (Later.steady.deliver setting depth)
      setting.arrange_perm world registry cpu event)
  rw [fire_eq] at grown ⊢
  rcases watched cpu with nobody | ⟨number, _, one⟩
  · rw [nobody] at order grown ⊢
    rw [List.perm_nil.mp order] at grown ⊢
    rw [Hub.fired_of_nobody nobody]
    exact ⟨_, rfl, rfl, grown⟩
  · rw [one] at order grown ⊢
    rw [List.perm_singleton.mp order] at grown ⊢
    rw [Hub.fired_of_one one]
    simp only [callEach, setting.deliver_detector] at grown ⊢
    exact ⟨_, rfl, hub_signal _ number cpu event, grown⟩

namespace Micro

/-- The hub after an instruction has announced its event, if it has one. -/
def Stride.tell (registry : Nat) (stride : Stride) (hub : Hub) : Hub :=
  match stride.announced with
  | none => hub
  | some (cpu, event) => hub.fired registry cpu event

/-- A stride notes its remarks, and changes nothing else before it announces something. -/
theorem Stride.noted_eq (stride : Stride) (bus : Bus Ram) (world : World H) :
    stride.noted bus world =
      { world with
        journal := ((stride.notes bus).map Entry.remark).reverse ++ world.journal } := by
  simp only [noted]
  generalize stride.notes bus = notes
  induction notes generalizing world with
  | nil => rfl
  | cons note later inductionHypothesis =>
    rw [List.foldl_cons, inductionHypothesis, World.journal_record, List.map_cons,
      List.reverse_cons, List.append_assoc]
    rfl

variable {registry : Nat} {watcher : Option Nat}

/-- A hub that is watched is so after an announcement. -/
theorem Stride.watched_tell (stride : Stride) {hub : Hub} (watched : hub.Watched registry watcher) :
    (stride.tell registry hub).Watched registry watcher := by
  rw [tell]
  split
  · exact watched
  · exact watched.fired _ _

/-- Where a registry is watched by a detector at most, the announcement of an instruction comes
back. -/
theorem Stride.announce_of_watched (stride : Stride) (setting : Setting H) (depth : Nat)
    (left : Bus Ram) (noted : World H) (watched : noted.hub.Watched registry watcher) :
    ∃ after, stride.announce (setting.deliver depth) setting.arrange registry left noted =
        (stride.outcome, (stride.context, left), after) ∧
      after.hub = stride.tell registry noted.hub ∧ noted.journal <:+ after.journal := by
  simp only [announce, tell]
  cases stride.announced with
  | none => exact ⟨noted, rfl, rfl, List.suffix_rfl⟩
  | some announcement =>
    obtain ⟨cpu, event⟩ := announcement
    obtain ⟨after, fired, hub, grown⟩ := noted.fire_of_watched setting depth watched cpu event
    simp only [fired]
    exact ⟨after, rfl, hub, grown⟩

/-- So the instruction leaves what its stride says, with its remarks in the journal. -/
theorem step_of_watched (setting : Setting H) (depth : Nat) (context : Context) (bus : Bus Ram)
    (world : World H) (watched : world.hub.Watched registry watcher) :
    ∃ after, setting.run depth (step registry) (context, bus) world =
        ((stride (word bus) context).outcome,
          ((stride (word bus) context).context, (stride (word bus) context).put bus), after) ∧
      after.hub = (stride (word bus) context).tell registry world.hub ∧
      (((stride (word bus) context).notes bus).map Entry.remark).reverse ++ world.journal <:+
        after.journal := by
  have noted : (stride (word bus) context).noted bus world =
      ⟨world.hub,
        (((stride (word bus) context).notes bus).map Entry.remark).reverse ++ world.journal,
        world.fires, world.host⟩ :=
    (stride (word bus) context).noted_eq bus world
  have still : ((stride (word bus) context).noted bus world).hub = world.hub := by rw [noted]
  obtain ⟨after, announced, hub, grown⟩ := (stride (word bus) context).announce_of_watched setting
    depth ((stride (word bus) context).put bus) _ (still.symm ▸ watched)
  rw [still] at hub
  rw [noted] at grown
  exact ⟨after, step_run.trans announced, hub, grown⟩

end Micro

/-- The settings with the order of turns reversed. -/
def SliceConfig.turned (config : SliceConfig) : SliceConfig :=
  { config with masterFirst := !config.masterFirst }

/-- With the order of turns reversed, the other processor runs first. -/
theorem SliceConfig.firstCpu_turned (config : SliceConfig) :
    config.turned.firstCpu = config.firstCpu.other := by
  rw [firstCpu, firstCpu, turned]
  cases config.masterFirst with
  | true => rfl
  | false => rfl

namespace Scheduler

/-- A scheduler that begins on a registry which nobody watches, or a detector that was just attached
to it, and the world in which it begins. -/
inductive Begins (config : SliceConfig) (registry : Nat) (world : World H) :
    Option Nat → Scheduler → World H → Prop where
  /-- There is no detector. -/
  | alone {scheduler : Scheduler} (made : plain config registry = .ok scheduler) :
      Begins config registry world none scheduler world
  /-- The detector is the scheduler's own. -/
  | watching {number : Nat} {scheduler : Scheduler} {built : World H}
      (made : Scheduler.watching config registry world = (.ok scheduler, built))
      (own : scheduler.poller = some number) :
      Begins config registry world (some number) scheduler built
  /-- The detector is somebody else's. -/
  | beside {number : Nat} {scheduler : Scheduler} {built : World H} {poll : PollConfig}
      (made : plain config registry = .ok scheduler)
      (attached : world.attach registry poll = (.ok number, built)) :
      Begins config registry world (some number) scheduler built

/-- What is known where a scheduler begins: it has counted nothing, it has the watching detector or
none, the detector is registered for both processors and is as it was made, and nobody else is
registered. -/
structure Begun (config : SliceConfig) (registry : Nat) (watcher : Option Nat)
    (scheduler : Scheduler) (built : World H) : Prop where
  accepted : config.check = .ok ()
  scheduler : ∃ poller, scheduler = fresh config registry poller ∧
    (poller = none ∨ poller = watcher)
  entries : ∀ cpu, (built.hub.roster registry cpu).entries =
    (watcher.map fun number => ⟨Detector.name, .detector number⟩).toList
  detector : ∀ number, watcher = some number →
    ∃ poll, built.hub.detector number = .fresh poll registry

end Scheduler

/-- A detector that is attached to an empty registry is all that is registered there. -/
theorem World.entries_of_attach {world built : World H} {registry number : Nat}
    {config : PollConfig} (alone : ∀ cpu, (world.hub.roster registry cpu).entries = [])
    (attached : world.attach registry config = (.ok number, built)) (cpu : Cpu) :
    (built.hub.roster registry cpu).entries = [⟨Detector.name, .detector number⟩] := by
  have free : ∀ cpu, (world.hub.roster registry cpu).has Detector.name = false := by
    intro cpu
    simp only [Roster.has, alone cpu, List.any_nil]
  rw [world.attach_free config free] at attached
  cases attached
  change ((world.enlistedBoth registry Detector.name (.detector world.hub.detectors.size)
    free).hub.roster registry cpu).entries = _
  cases cpu with
  | master => simp [enlistedBoth, Hub.roster_setRoster, Roster.insert, alone]
  | slave => simp [enlistedBoth, Hub.roster_setRoster, Roster.insert, alone]

namespace Scheduler

variable {config : SliceConfig} {registry : Nat} {world built : World H} {watcher : Option Nat}
  {scheduler : Scheduler}

/-- A scheduler without a detector is made for settings that are accepted only. -/
theorem check_of_plain (made : plain config registry = .ok scheduler) : config.check = .ok () := by
  cases accepted : config.check with
  | ok valid => rfl
  | error cause =>
    rw [plain, accepted] at made
    cases made

/-- Where a scheduler begins on a registry in which nobody was registered, this is known. -/
theorem Begins.begun (begins : Begins config registry world watcher scheduler built)
    (alone : ∀ cpu, (world.hub.roster registry cpu).entries = []) :
    Begun config registry watcher scheduler built := by
  cases begins with
  | alone made =>
    exact ⟨check_of_plain made, ⟨none, eq_fresh_of_plain made, .inl rfl⟩, alone, nofun⟩
  | @watching number _ _ made own =>
    obtain ⟨accepted, _⟩ := fresh_of_made (.inr ⟨world, made⟩)
    obtain ⟨seen, attached, same⟩ := attach_of_watching made
    obtain rfl : seen = number := Option.some.inj ((congrArg poller same).symm.trans own)
    refine ⟨accepted, ⟨some seen, same, .inr rfl⟩, World.entries_of_attach alone attached, ?_⟩
    rintro _ ⟨⟩
    exact ⟨config.poll, (World.detector_of_attach attached).2.2⟩
  | @beside number _ _ poll made attached =>
    refine ⟨check_of_plain made, ⟨none, eq_fresh_of_plain made, .inl rfl⟩,
      World.entries_of_attach alone attached, ?_⟩
    rintro _ ⟨⟩
    exact ⟨poll, (World.detector_of_attach attached).2.2⟩

/-- Beside a scheduler there could be one with the order of turns reversed.

Proof: by the way in which the scheduler began. Turning the settings around keeps them acceptable,
and attaching a detector does not look at the order of turns. -/
theorem Begins.turned (begins : Begins config registry world watcher scheduler built) :
    Begins config.turned registry world watcher
      (fresh config.turned registry scheduler.poller) built := by
  have plainly : ∀ {scheduler : Scheduler}, plain config registry = .ok scheduler →
      scheduler.poller = none ∧
        plain config.turned registry = .ok (fresh config.turned registry none) := by
    intro scheduler made
    have valid : config.check = .ok () := check_of_plain made
    have accepted : config.turned.check = .ok () := valid
    rw [eq_fresh_of_plain made]
    exact ⟨rfl, by simp only [plain, accepted]⟩
  cases begins with
  | alone made =>
    obtain ⟨none, likewise⟩ := plainly made
    rw [none]
    exact .alone likewise
  | @watching number _ _ made own =>
    have accepted : config.turned.check = .ok () := (fresh_of_made (.inr ⟨world, made⟩)).1
    obtain ⟨seen, attached, same⟩ := attach_of_watching made
    obtain rfl : seen = number := Option.some.inj ((congrArg poller same).symm.trans own)
    have attachedToo : world.attach registry config.turned.poll = (.ok seen, built) := attached
    rw [own]
    exact .watching (by simp only [Scheduler.watching, accepted, attachedToo]) rfl
  | beside made attached =>
    obtain ⟨none, likewise⟩ := plainly made
    rw [none]
    exact .beside likewise attached

/-- The registry is watched by that detector at most. -/
theorem Begun.watched (begun : Begun config registry watcher scheduler built) :
    built.hub.Watched registry watcher := by
  intro cpu
  rw [Roster.listeners, begun.entries]
  cases watcher with
  | none => exact .inl rfl
  | some number => exact .inr ⟨number, rfl, rfl⟩

/-- Nobody polls yet. -/
theorem Begun.polls (begun : Begun config registry watcher scheduler built) (cpu : Cpu) :
    built.hub.polls watcher cpu = false := by
  cases watcher with
  | none => rfl
  | some number =>
    obtain ⟨poll, fresh⟩ := begun.detector number rfl
    rw [Hub.polls, fresh, Detector.polling, Detector.fresh, Pair.get_both]
    rfl

end Scheduler

end Sh2Pair
