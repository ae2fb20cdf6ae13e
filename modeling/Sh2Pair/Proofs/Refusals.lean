import Sh2Pair.Proofs.Log

/-!
# Refusals and the log

A registration that finds its name in use comes back with an error. The errors of a run are those
that its program gets, and those that the listeners get which it calls, to whatever depth. Each of
them has a record in the log, and nothing else has one of the kind: the log tells of the refusals in
the order in which they came back.
-/

namespace Sh2Pair

variable {H : Host}

/-- The error with which a request comes back, if it does. -/
def Request.refusal? : (wanted : Request) → Outcome wanted.Reply → Option Duplicate
  | .register .., .done (.error duplicate) => some duplicate
  | .registerBoth .., .done (.error duplicate) => some duplicate
  | .attach .., .done (.error duplicate) => some duplicate
  | _, _ => none

/-- The refusals that a log tells of. -/
def refused (records : List LogRecord) : List Duplicate := records.filterMap LogRecord.refusal?

/-- The refusals inside telling a listener about an event. -/
abbrev Rebuffs (H : Host) := Listener → Cpu → Event → World H → List Duplicate

namespace World

/-- The refusals inside the calls of a fire, up to the first call that does not come back. -/
def callRefusals (deliver : Delivery H) (rebuffs : Rebuffs H) (fire : Nat) (cpu : Cpu)
    (event : Event) : List Listener → World H → List Duplicate
  | [], _ => []
  | listener :: later, world =>
    let calling := world.record (.called fire listener cpu event)
    let rest :=
      match deliver listener cpu event calling with
      | (.done (), after) =>
        callRefusals deliver rebuffs fire cpu event later (after.record (.returned fire))
      | _ => []
    rebuffs listener cpu event calling ++ rest

/-- The refusals inside a fire. -/
def fireRefusals (deliver : Delivery H) (rebuffs : Rebuffs H)
    (arrange : Nat → List Listener → List Listener) (world : World H) (registry : Nat)
    (cpu : Cpu) (event : Event) : List Duplicate :=
  callRefusals deliver rebuffs world.fires cpu event
    (arrange world.fires (world.hub.roster registry cpu).listeners)
    (world.begun registry cpu event)

/-- The refusals inside the answer to a request. -/
def answerRefusals (deliver : Delivery H) (rebuffs : Rebuffs H)
    (arrange : Nat → List Listener → List Listener) (world : World H) :
    Request → List Duplicate
  | .fire registry cpu event => world.fireRefusals deliver rebuffs arrange registry cpu event
  | .fireBoth registry event =>
    let rest :=
      match world.fire deliver arrange registry .master event with
      | (.done _, middle) => middle.fireRefusals deliver rebuffs arrange registry .slave event
      | _ => []
    world.fireRefusals deliver rebuffs arrange registry .master event ++ rest
  | .notify listener cpu event =>
    rebuffs listener cpu event (world.record (.notified listener cpu event))
  | _ => []

end World

/-- The refusals in a run of a program, its own ones and those inside the calls that it causes. -/
def Program.refusals {σ α : Type} (deliver : Delivery H) (rebuffs : Rebuffs H)
    (arrange : Nat → List Listener → List Listener) :
    Program H σ α → σ → World H → List Duplicate
  | .ret _, _, _ => []
  | .panic _, _, _ => []
  | .look next, state, world => (next state).refusals deliver rebuffs arrange state world
  | .change f next, state, world => next.refusals deliver rebuffs arrange (f state) world
  | .ask next, state, world => (next world.host).refusals deliver rebuffs arrange state world
  | .alter f next, state, world =>
    next.refusals deliver rebuffs arrange state { world with host := f world.host }
  | .remark content next, state, world =>
    next.refusals deliver rebuffs arrange state (world.record (.remark content))
  | .request wanted next, state, world =>
    let rest :=
      match world.answer deliver arrange wanted with
      | (.done reply, after) => (next reply).refusals deliver rebuffs arrange state after
      | _ => []
    world.answerRefusals deliver rebuffs arrange wanted ++
      (wanted.refusal? (world.answer deliver arrange wanted).1).toList ++ rest

/-- The refusals inside telling a listener, with calls nesting to a depth at most. -/
def Setting.rebuffs (setting : Setting H) : Nat → Rebuffs H
  | 0, _, _, _, _ => []
  | depth + 1, listener, cpu, event, world =>
    match listener with
    | .detector _ => []
    | .hosted number =>
      (setting.behave number cpu event).refusals (setting.deliver depth) (setting.rebuffs depth)
        setting.arrange () world

/-- The refusals in a run of a program, with calls nesting to a depth at most. -/
def Setting.refusals (setting : Setting H) (depth : Nat) {σ α : Type} (program : Program H σ α)
    (state : σ) (world : World H) : List Duplicate :=
  program.refusals (setting.deliver depth) (setting.rebuffs depth) setting.arrange state world

namespace World

/-- The refusals that the log of a world tells of. -/
def refused (world : World H) : List Duplicate := Sh2Pair.refused (log world.journal)

/-- A later world has refused some more. -/
def Refuses (before after : World H) (refusals : List Duplicate) : Prop :=
  after.refused = before.refused ++ refusals

namespace Refuses

/-- Where nothing happens, nothing is refused. -/
theorem refl (world : World H) : Refuses world world [] := (List.append_nil _).symm

/-- What two stretches refuse, one after the other, is what both together refuse. -/
theorem trans {start middle finish : World H} {early late : List Duplicate}
    (first : Refuses start middle early) (second : Refuses middle finish late) :
    Refuses start finish (early ++ late) := by
  rw [Refuses, second, first, List.append_assoc]

/-- One entry, with the refusal that its record tells of, if it does. -/
theorem of_entry {before after : World H} {refusals : List Duplicate} (entry : Entry H.Note)
    (journal : after.journal = entry :: before.journal)
    (told : Sh2Pair.refused (log [entry]) = refusals) : Refuses before after refusals := by
  have split : log (entry :: before.journal) = log before.journal ++ log [entry] :=
    log_append [entry] before.journal
  rw [Refuses, refused, refused, journal, split, ← told, Sh2Pair.refused, List.filterMap_append]
  rfl

/-- One more entry that tells of no refusal. -/
theorem quiet {before after : World H} {refusals : List Duplicate}
    (kept : Refuses before after refusals) (entry : Entry H.Note)
    (mute : Sh2Pair.refused (log [entry]) = []) :
    Refuses before (after.record entry) refusals := by
  have noted : Refuses after (after.record entry) [] := of_entry entry rfl mute
  exact List.append_nil refusals ▸ trans kept noted

/-- A detector that is told about an event refuses nothing. -/
theorem signal (world : World H) (number : Nat) (cpu : Cpu) (event : Event) :
    Refuses world (world.signal number cpu event) [] := by
  have informed : Refuses world (world.informed number cpu event) [] := refl world
  rcases world.signal_cases number cpu event with
    ⟨_, after⟩ | ⟨_, after⟩ | ⟨_, _, after⟩ | ⟨_, _, _, after⟩
  · exact after ▸ informed
  · exact after ▸ quiet informed (.pollStarted number cpu) rfl
  · exact after ▸ quiet informed (.pollEnded number cpu event) rfl
  · have ended :
        world.Refuses ((world.informed number cpu event).record (.pollEnded number cpu event)) [] :=
      quiet informed (.pollEnded number cpu event) rfl
    exact after ▸ quiet ended (.removed _ cpu Detector.name) rfl

/-- A registration tells of its refusal, if it is refused. -/
theorem register (world : World H) (registry : Nat) (cpu : Cpu) (name : String)
    (listener : Listener) :
    Refuses world (world.register registry cpu name listener).2
      ((Request.register registry cpu name listener).refusal?
        (.done (world.register registry cpu name listener).1)).toList := by
  cases occupied : (world.hub.roster registry cpu).has name with
  | false =>
    rw [world.register_free listener occupied]
    exact of_entry _ rfl rfl
  | true =>
    rw [world.register_used listener occupied]
    exact of_entry _ rfl rfl

/-- A registration for both processors tells of its refusal, if it is refused. -/
theorem registerBoth (world : World H) (registry : Nat) (name : String) (listener : Listener) :
    Refuses world (world.registerBoth registry name listener).2
      ((Request.registerBoth registry name listener).refusal?
        (.done (world.registerBoth registry name listener).1)).toList := by
  rcases world.registerBoth_cases registry name listener with ⟨free, added⟩ | ⟨cpu, _, refused⟩
  · rw [added]
    exact of_entry _ rfl rfl
  · rw [refused]
    exact of_entry _ rfl rfl

/-- Attaching a detector tells of its refusal, if it is refused. -/
theorem attach (world : World H) (registry : Nat) (config : PollConfig) :
    Refuses world (world.attach registry config).2
      ((Request.attach registry config).refusal?
        (.done (world.attach registry config).1)).toList := by
  rcases world.attach_cases registry config with ⟨free, made⟩ | ⟨cpu, _, refused⟩
  · rw [made]
    exact of_entry _ rfl rfl
  · rw [refused]
    exact of_entry _ rfl rfl

/-- A removal refuses nothing. -/
theorem remove (world : World H) (registry : Nat) (cpu : Cpu) (name : String) :
    Refuses world (world.remove registry cpu name).2 [] := by
  cases occupied : (world.hub.roster registry cpu).has name with
  | false =>
    rw [world.remove_free occupied]
    exact refl world
  | true =>
    rw [world.remove_used occupied]
    exact of_entry _ rfl rfl

end Refuses

/-- What telling listeners refuses is told by the log. -/
def DeliversRefusing (deliver : Delivery H) (rebuffs : Rebuffs H) : Prop :=
  ∀ listener cpu event world,
    Refuses world (deliver listener cpu event world).2 (rebuffs listener cpu event world)

section Runs

variable {deliver : Delivery H} {rebuffs : Rebuffs H}
  (delivered : DeliversRefusing deliver rebuffs) {arrange : Nat → List Listener → List Listener}

include delivered

/-- The induction is on the listeners still to be called. -/
theorem refuses_callEach (fire : Nat) (cpu : Cpu) (event : Event) (pending : List Listener)
    (world : World H) :
    Refuses world (callEach deliver fire cpu event pending world).2
      (callRefusals deliver rebuffs fire cpu event pending world) := by
  induction pending generalizing world with
  | nil => exact .refl world
  | cons listener later inductionHypothesis =>
    have calling : Refuses world (world.record (.called fire listener cpu event)) [] :=
      .of_entry _ rfl rfl
    have called : Refuses world
        (deliver listener cpu event (world.record (.called fire listener cpu event))).2
        ([] ++ rebuffs listener cpu event (world.record (.called fire listener cpu event))) :=
      Refuses.trans calling (delivered listener cpu event _)
    simp only [callEach, callRefusals]
    generalize deliver listener cpu event (world.record (.called fire listener cpu event)) = result
      at called ⊢
    obtain ⟨outcome, after⟩ := result
    cases outcome with
    | done value =>
      exact .trans (.quiet called (.returned fire) rfl) (inductionHypothesis _)
    | panicked cause => exact (List.append_nil _).symm ▸ called
    | exhausted => exact (List.append_nil _).symm ▸ called

/-- A fire tells of the refusals to those that it called. -/
theorem refuses_fire (world : World H) (registry : Nat) (cpu : Cpu) (event : Event) :
    Refuses world (world.fire deliver arrange registry cpu event).2
      (world.fireRefusals deliver rebuffs arrange registry cpu event) := by
  have begun : Refuses world (world.begun registry cpu event) [] := .of_entry _ rfl rfl
  rw [fire_eq]
  exact .trans begun (refuses_callEach delivered ..)

/-- A fire for both processors tells of the refusals to those that it called, for the master and
then for the slave. -/
theorem refuses_fireBoth (world : World H) (registry : Nat) (event : Event) :
    Refuses world (world.fireBoth deliver arrange registry event).2
      (world.answerRefusals deliver rebuffs arrange (.fireBoth registry event)) := by
  have first : Refuses world (world.fire deliver arrange registry .master event).2 _ :=
    refuses_fire delivered world registry .master event
  simp only [fireBoth, answerRefusals]
  generalize world.fire deliver arrange registry .master event = result at first ⊢
  obtain ⟨outcome, middle⟩ := result
  cases outcome with
  | done count => exact .trans first (refuses_fire delivered middle registry .slave event)
  | panicked cause => exact (List.append_nil _).symm ▸ first
  | exhausted => exact (List.append_nil _).symm ▸ first

/-- A request comes back with its error after everything that its answer causes.

Proof: one case per request. The requests that register something refuse in their own name, the
fires only in that of their listeners. -/
theorem refuses_answer (world : World H) (wanted : Request) :
    Refuses world (world.answer deliver arrange wanted).2
      (world.answerRefusals deliver rebuffs arrange wanted ++
        (wanted.refusal? (world.answer deliver arrange wanted).1).toList) := by
  cases wanted with
  | register registry cpu name listener => exact .register world registry cpu name listener
  | registerBoth registry name listener => exact .registerBoth world registry name listener
  | attach registry config => exact .attach world registry config
  | remove registry cpu name => exact .remove world registry cpu name
  | removeBoth registry name =>
    exact .trans (.remove world registry .master name) (.remove _ registry .slave name)
  | fire registry cpu event =>
    exact (List.append_nil _).symm ▸ refuses_fire delivered world registry cpu event
  | fireBoth registry event =>
    exact (List.append_nil _).symm ▸ refuses_fireBoth delivered world registry event
  | notify listener cpu event =>
    have noted : Refuses world (world.record (.notified listener cpu event)) [] :=
      .of_entry _ rfl rfl
    exact (List.append_nil _).symm ▸ .trans noted (delivered listener cpu event _)
  | clear detector cpu => exact .of_entry _ rfl rfl
  | openRegistry => exact .of_entry _ rfl rfl
  | retire registry => exact .of_entry _ rfl rfl
  | survey => exact .refl world

/-- The log tells of the refusals in a run, in their order.

Proof: by induction on the program. The refusals of a request come first, and then those of the rest
of the program, if it is answered. -/
theorem refuses_program {σ α : Type} (program : Program H σ α) (state : σ) (world : World H) :
    Refuses world (program.run deliver arrange state world).2.2
      (program.refusals deliver rebuffs arrange state world) := by
  induction program generalizing state world with
  | ret value => exact .refl world
  | panic cause => exact .refl world
  | look next inductionHypothesis => exact inductionHypothesis state state world
  | change f next inductionHypothesis => exact inductionHypothesis (f state) world
  | ask next inductionHypothesis => exact inductionHypothesis world.host state world
  | alter f next inductionHypothesis => exact inductionHypothesis state _
  | remark content next inductionHypothesis =>
    have noted : Refuses world (world.record (.remark content)) [] := by
      cases content <;> exact .of_entry _ rfl rfl
    exact .trans noted (inductionHypothesis state _)
  | request wanted next inductionHypothesis =>
    have answered : Refuses world (world.answer deliver arrange wanted).2 _ :=
      refuses_answer delivered world wanted
    simp only [Program.run, Program.refusals]
    generalize world.answer deliver arrange wanted = result at answered ⊢
    obtain ⟨outcome, after⟩ := result
    cases outcome with
    | done reply => exact .trans answered (inductionHypothesis reply state after)
    | panicked cause => exact (List.append_nil _).symm ▸ answered
    | exhausted => exact (List.append_nil _).symm ▸ answered

end Runs

/-- So it does at every depth: a listener runs a program whose calls go one level less deep. -/
theorem refuses_deliver (setting : Setting H) (depth : Nat) :
    DeliversRefusing (setting.deliver depth) (setting.rebuffs depth) := by
  induction depth with
  | zero =>
    intro listener cpu event world
    cases listener with
    | detector number => exact .signal world number cpu event
    | hosted number => exact .refl world
  | succ depth inductionHypothesis =>
    intro listener cpu event world
    cases listener with
    | detector number => exact .signal world number cpu event
    | hosted number =>
      exact refuses_program inductionHypothesis (setting.behave number cpu event) () world

/-- The log of a run in a setting tells of its refusals. -/
theorem refuses_run (setting : Setting H) (depth : Nat) {σ α : Type} (program : Program H σ α)
    (state : σ) (world : World H) :
    Refuses world (setting.run depth program state world).2.2
      (setting.refusals depth program state world) :=
  refuses_program (refuses_deliver setting depth) program state world

end World

end Sh2Pair
