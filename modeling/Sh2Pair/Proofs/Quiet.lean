import Sh2Pair.Firing
import Sh2Pair.Proofs.Steady

/-!
# Registries with a detector and nobody else

Where a detector is the only listener there is, no fire runs outside code. A fire always comes
back, and what it does to the hub depends on nothing but the hub: not on the journal, not on the
number of the fire, and not on the depth that is left. So a program that does no more than fire
on such a registry runs alike in any two worlds whose hubs agree.
-/

namespace Sh2Pair

namespace Hub

/-- The hub after a detector has been told about an event. -/
def signal (hub : Hub) (number : Nat) (cpu : Cpu) (event : Event) : Hub :=
  let detector := hub.detector number
  let told := hub.modifyDetector number (·.receive cpu event)
  if detector.reaction cpu event = .woken ∧ detector.config.oneShot = true ∧
      (hub.roster detector.home cpu).has Detector.name = true then
    told.setRoster detector.home cpu ((hub.roster detector.home cpu).erase Detector.name)
  else told

/-- The hub after an event has been fired on a registry in which a detector is the only
listener. -/
def heard (hub : Hub) (registry number : Nat) (cpu : Cpu) (event : Event) : Hub :=
  if (hub.roster registry cpu).listeners = [] then hub else hub.signal number cpu event

/-- There is a detector, and a registry has no other listener. The detector need not be
registered any more. -/
structure Lone (registry number : Nat) (hub : Hub) : Prop where
  present : number < hub.detectors.size
  listeners : ∀ cpu, (hub.roster registry cpu).listeners = [] ∨
    (hub.roster registry cpu).listeners = [.detector number]

variable {registry number : Nat} {hub : Hub}

/-- A detector that is told about an event has received it. -/
theorem detector_signal (hub : Hub) (number : Nat) (cpu : Cpu) (event : Event) :
    (hub.signal number cpu event).detector number = (hub.detector number).receive cpu event := by
  have told : (hub.modifyDetector number fun x => x.receive cpu event).detector number =
      (hub.detector number).receive cpu event :=
    (hub.detector_modifyDetector number number (·.receive cpu event)).trans (if_pos rfl)
  simp only [signal]
  split
  · exact told
  · exact told

/-- Telling a detector takes listeners away at most. -/
theorem roster_signal (hub : Hub) (number seen : Nat) (cpu place : Cpu) (event : Event) :
    ((hub.signal number cpu event).roster seen place).listeners.Sublist
      (hub.roster seen place).listeners := by
  simp only [signal]
  split
  · rw [roster_setRoster]
    split
    · rename_i here
      obtain ⟨rfl, rfl⟩ := here
      exact List.filter_sublist.map _
    · exact List.Sublist.refl _
  · exact List.Sublist.refl _

/-- A fire leaves the detector the only listener, or takes it out of the registry. -/
theorem Lone.heard (lone : Lone registry number hub) (cpu : Cpu) (event : Event) :
    Lone registry number (hub.heard registry number cpu event) := by
  simp only [Hub.heard]
  split
  · exact lone
  · refine ⟨?_, ?_⟩
    · simp only [signal]
      split
      · exact Nat.lt_of_lt_of_le lone.present (Table.size_le_size_set ..)
      · exact Nat.lt_of_lt_of_le lone.present (Table.size_le_size_set ..)
    · intro place
      have fewer : ((hub.signal number cpu event).roster registry place).listeners.Sublist
          (hub.roster registry place).listeners := hub.roster_signal number registry cpu place event
      rcases lone.listeners place with none | one
      · rw [none] at fewer
        exact .inl (List.sublist_nil.mp fewer)
      · rw [one] at fewer
        exact List.sublist_singleton.mp fewer

/-- A fire for one processor says nothing about the other. -/
theorem polling_heard_other (hub : Hub) (registry number : Nat) {cpu place : Cpu}
    (other : place ≠ cpu) (event : Event) :
    ((hub.heard registry number cpu event).detector number).polling place =
      (hub.detector number).polling place := by
  simp only [Hub.heard]
  split
  · rfl
  · rw [detector_signal]
    exact congrArg Watch.polling ((Pair.get_set ..).trans (if_neg other))

/-- A processor that polls after an event other than a report did so before. -/
theorem polling_of_heard {cpu place : Cpu} {event : Event} (noReport : event ≠ .startPolling)
    (polls : ((hub.heard registry number cpu event).detector number).polling place = true) :
    (hub.detector number).polling place = true := by
  by_cases here : place = cpu
  · subst here
    simp only [Hub.heard] at polls
    split at polls
    · exact polls
    · rw [detector_signal, Detector.polling, Detector.receive, Pair.modify, Pair.get_set_self,
        Watch.receive] at polls
      cases reacted : ((hub.detector number).watches.get place).reaction
          (hub.detector number).config event with
      | ignored => rwa [reacted] at polls
      | started =>
        exact absurd ((Watch.reaction_eq_started_iff _ _ event).mp reacted).1 noReport
      | woken =>
        rw [reacted] at polls
        cases polls
  · rwa [hub.polling_heard_other registry number here] at polls

/-- What a detector ignores leaves it as it is. -/
theorem modifyDetector_of_ignored (present : number < hub.detectors.size) {cpu : Cpu}
    {event : Event} (ignored : (hub.detector number).reaction cpu event = .ignored) :
    hub.modifyDetector number (·.receive cpu event) = hub := by
  have watch : ((hub.detector number).watches.get cpu).receive (hub.detector number).config event =
      (hub.detector number).watches.get cpu := congrArg (Watch.after _) ignored
  have same : (hub.detector number).receive cpu event = hub.detector number := by
    rw [Detector.receive, Pair.modify, watch, Pair.set_get]
  rw [modifyDetector, Table.modify, ← detector, same]
  exact congrArg (Hub.mk hub.registries) (Table.set_get _ present)

/-- A report about a processor that polls already changes nothing. -/
theorem heard_report_of_polling (present : number < hub.detectors.size) {cpu : Cpu}
    (polls : (hub.detector number).polling cpu = true) :
    hub.heard registry number cpu .startPolling = hub := by
  have ignored : (hub.detector number).reaction cpu .startPolling = .ignored := by
    rw [Detector.polling] at polls
    rw [Detector.reaction, Watch.reaction, if_pos rfl, if_pos polls]
  simp only [Hub.heard, signal, ignored]
  split
  · rfl
  · rw [if_neg (fun woken => Reaction.noConfusion woken.1)]
    exact modifyDetector_of_ignored present ignored

end Hub

variable {H : Host} {registry number : Nat}

/-- Telling a detector in a world tells it in the hub. -/
theorem World.hub_signal (world : World H) (number : Nat) (cpu : Cpu) (event : Event) :
    (world.signal number cpu event).hub = world.hub.signal number cpu event := by
  rcases world.signal_cases number cpu event with
    ⟨reacted, after⟩ | ⟨reacted, after⟩ | ⟨reacted, stays, after⟩ | ⟨reacted, once, used, after⟩
  · rw [after, Hub.signal, if_neg (by simp [reacted])]
    rfl
  · rw [after, Hub.signal, if_neg (by simp [reacted])]
    rfl
  · rw [after, Hub.signal, if_neg]
    · rfl
    · rintro ⟨_, once, used⟩
      rcases stays with often | free
      · exact Bool.noConfusion (often.symm.trans once)
      · exact Bool.noConfusion (free.symm.trans used)
  · rw [after, Hub.signal, if_pos ⟨reacted, once, used⟩]
    rfl

/-- A detector is told without running outside code, at any depth. -/
theorem Setting.deliver_detector (setting : Setting H) (depth number : Nat) (cpu : Cpu)
    (event : Event) (world : World H) :
    setting.deliver depth (.detector number) cpu event world =
      (.done (), world.signal number cpu event) := by
  cases depth <;> rfl

/-- A fire on a registry with no listener but a detector comes back, and does to the hub what
the detector does. -/
theorem World.fire_of_lone (setting : Setting H) (depth : Nat) (world : World H)
    (lone : world.hub.Lone registry number) (cpu : Cpu) (event : Event) :
    ∃ after, world.fire (setting.deliver depth) setting.arrange registry cpu event =
        (.done (world.hub.roster registry cpu).size, after) ∧
      after.hub = world.hub.heard registry number cpu event := by
  have order : (setting.arrange world.fires (world.hub.roster registry cpu).listeners).Perm
      (world.hub.roster registry cpu).listeners :=
    setting.arrange_perm world.fires (world.hub.roster registry cpu).listeners
  rw [fire_eq]
  rcases lone.listeners cpu with none | one
  · rw [none] at order ⊢
    rw [List.perm_nil.mp order, Hub.heard, if_pos none]
    exact ⟨_, rfl, rfl⟩
  · rw [one] at order ⊢
    rw [List.perm_singleton.mp order, Hub.heard, if_neg (by rw [one]; simp)]
    simp only [callEach, setting.deliver_detector]
    exact ⟨_, rfl, hub_signal _ number cpu event⟩

namespace Program

variable {σ α β : Type}

/-- A program that asks for nothing but fires on one registry, and looks at nothing but its own
state. -/
def OnlyFires (registry : Nat) : Program H σ α → Prop
  | .ret _ => True
  | .panic _ => True
  | .look next => ∀ state, (next state).OnlyFires registry
  | .change _ next => next.OnlyFires registry
  | .ask _ => False
  | .alter _ _ => False
  | .remark _ next => next.OnlyFires registry
  | .request wanted next =>
    (∃ cpu event, wanted = .fire registry cpu event) ∧ ∀ reply, (next reply).OnlyFires registry

/-- A program asks for fires only if its first part does, and its second part whatever the first one
returns. -/
theorem OnlyFires.bind {program : Program H σ α} {rest : α → Program H σ β}
    (first : program.OnlyFires registry) (second : ∀ value, (rest value).OnlyFires registry) :
    (program.bind rest).OnlyFires registry := by
  induction program with
  | ret value => exact second value
  | panic cause => trivial
  | look next inductionHypothesis => exact fun state => inductionHypothesis state (first state)
  | change f next inductionHypothesis => exact inductionHypothesis first
  | ask next inductionHypothesis => exact first.elim
  | alter f next inductionHypothesis => exact first.elim
  | remark content next inductionHypothesis => exact inductionHypothesis first
  | request wanted next inductionHypothesis =>
    exact ⟨first.1, fun reply => inductionHypothesis reply (first.2 reply)⟩

/-- How a program ended in one world is how it ended in another, as far as it can tell and as far
as the hub goes. The depth was not used up. -/
structure Agree (registry number : Nat) (left right : Outcome α × σ × World H) : Prop where
  outcome : left.1 = right.1
  state : left.2.1 = right.2.1
  hub : left.2.2.hub = right.2.2.hub
  settled : left.1 ≠ .exhausted
  lone : left.2.2.hub.Lone registry number

/-- Programs that only fire run alike where hubs agree and a detector is the only listener.

Proof: by induction on the program. A fire calls the detector or nobody, so it does the same to
equal hubs, and the detector stays the only listener. -/
theorem OnlyFires.agree {program : Program H σ α} (only : program.OnlyFires registry)
    (setting : Setting H) (depth : Nat) (state : σ) {left right : World H}
    (same : left.hub = right.hub) (lone : left.hub.Lone registry number) :
    Agree registry number (setting.run depth program state left)
      (setting.run depth program state right) := by
  simp only [Setting.run]
  induction program generalizing state left right with
  | ret value => exact ⟨rfl, rfl, same, Outcome.done_ne_exhausted value, lone⟩
  | panic cause => exact ⟨rfl, rfl, same, Outcome.panicked_ne_exhausted cause, lone⟩
  | look next inductionHypothesis => exact inductionHypothesis state (only state) state same lone
  | change f next inductionHypothesis => exact inductionHypothesis only (f state) same lone
  | ask next inductionHypothesis => exact only.elim
  | alter f next inductionHypothesis => exact only.elim
  | remark content next inductionHypothesis => exact inductionHypothesis only state same lone
  | request wanted next inductionHypothesis =>
    obtain ⟨⟨cpu, event, fires⟩, rest⟩ := only
    subst fires
    obtain ⟨leftAfter, leftFired, leftHub⟩ := left.fire_of_lone setting depth lone cpu event
    obtain ⟨rightAfter, rightFired, rightHub⟩ :=
      right.fire_of_lone setting depth (same ▸ lone) cpu event
    simp only [Program.run, World.answer, leftFired, rightFired, ← same]
    have after : leftAfter.hub = rightAfter.hub := by rw [leftHub, rightHub, same]
    exact inductionHypothesis _ (rest _) state after (leftHub ▸ lone.heard cpu event)

end Program

end Sh2Pair
