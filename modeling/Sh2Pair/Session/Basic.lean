import Sh2Pair.Session.Chronicle
import Sh2Pair.Session.Perform

/-!
# Sessions

A session begins with one registry, which is the current one, and with nothing else. It performs
its steps one after the other and gives a result for each. A step that panics leaves everything
as the panic left it, and the session goes on.
-/

namespace Sh2Pair

open Session

/-- The state between two steps. -/
structure Session where
  bench : Bench
  /-- The schedulers, in the order of their numbers. -/
  schedulers : List Scheduler
  world : World Session.host

namespace Session

/-- The cast of a session. -/
def cast (session : Session) : Cast := session.world.host

/-- A session before its first step. -/
def initial : Session :=
  let (registry, world) := (World.initial (Cast.initial 0) : World Session.host).openRegistry
  ⟨.empty, [], { world with host := Cast.initial registry }⟩

/-- Changes the cast of a session. -/
def modifyCast (session : Session) (change : Cast → Cast) : Session :=
  { session with world := { session.world with host := change session.cast } }

/-- Runs a program in the world of the session. -/
def run {α : Type} (session : Session) (program : Program Session.host Unit α) :
    Outcome α × Session :=
  match setting.run depth program () session.world with
  | (outcome, (), world) => (outcome, { session with world })

/-- Ends what was under way: nothing refers to its registries any more. -/
def settle (session : Session) : Session :=
  let session := session.modifyCast fun cast => { cast with busy := [] }
  (session.run retireLost).2

/-- What a scheduler shows. -/
def view (session : Session) (scheduler : Scheduler) : SchedulerView where
  slices := scheduler.slices
  totals := scheduler.totals
  poller := scheduler.poller.map fun number => (session.world.hub.detector number).watches
  current := scheduler.registry = session.cast.current

/-- The answer of a program, and the panic that ended it, if one did. -/
def answerOf : Outcome Answer → Answer × Option Panic
  | .done answer => (answer, none)
  | .panicked cause => (.panicked cause, some cause)
  | .exhausted => (.unusable, none)

/-- Gives the result of a step and clears the journal for the next one. -/
def conclude (session : Session) (answer : Answer) (panic : Option Panic)
    (after : Cpu → Context) : Result × Session :=
  let result := chronicle answer panic after session.world.journal
  (result, { session with world := { session.world with journal := [] } })

/-- Contexts for a step in which no processor runs. -/
def noContexts (cpu : Cpu) : Context := .fresh cpu false

/-- Gives the result of a step in which no processor ran. -/
def concludePlain (session : Session) (answer : Answer) : Result × Session :=
  session.conclude answer none noContexts

/-- Performs an event step. -/
def performEventStep (session : Session) (step : EventStep) : Result × Session :=
  let (outcome, session) := session.run (performEvent none step)
  let (answer, panic) := answerOf outcome
  session.settle.conclude answer panic noContexts

/-- Performs a bench step. -/
def performBenchStep (session : Session) (step : BenchStep) : Result × Session :=
  let effect : Effect Note := session.bench.perform none step
  let session := { session with bench := effect.bench }
  let (_, session) := session.run (leaveAll effect.remarks)
  session.concludePlain effect.answer

/-- Makes a scheduler for the current registry. -/
def makeScheduler (session : Session) (config : String) (watching : Bool) : Result × Session :=
  match SliceConfig.ofText config with
  | .error fault => session.concludePlain (.unreadable fault)
  | .ok config =>
    let registry := session.cast.current
    let (built, world) :=
      if watching then Scheduler.watching config registry session.world
      else (Scheduler.plain config registry, session.world)
    let session := { session with world }
    match built with
    | .error fault => session.concludePlain (.notBuilt fault)
    | .ok scheduler =>
      let number := session.schedulers.length
      let session := { session with schedulers := session.schedulers ++ [scheduler] }
      let session := session.modifyCast fun cast => { cast with kept := registry :: cast.kept }
      session.concludePlain (.natural number)

/-- Puts the contexts of a slice back on the bench. -/
def returnContexts (session : Session) (names : Pair String) (contexts : Pair Context) :
    Session :=
  let bench := (session.bench.put names.master contexts.master).put names.slave contexts.slave
  { session with bench }

/-- Runs slices with an executor on a rig, and concludes with how they ended. The rig is given
back to the bench by `store`. -/
def runMachine {ε α : Type} (session : Session) (number : Nat) (scheduler : Scheduler)
    (names : Pair String) (contexts : Pair Context) (rig : ε)
    (drive : Machine Session.host ε → Outcome (Except Misplaced α) × Machine Session.host ε)
    (ending : α → SliceEnd) (store : ε → Bench → Bench) : Result × Session :=
  match drive ⟨scheduler, contexts, rig, session.world⟩ with
  | (outcome, machine) =>
    let session : Session :=
      { bench := store machine.rig session.bench
        schedulers := session.schedulers.set number machine.scheduler
        world := machine.world }
    let session := (session.returnContexts names machine.contexts).settle
    let view := session.view machine.scheduler
    let conclude (ending : SliceEnd) (panic : Option Panic) : Result × Session :=
      session.conclude (.slice ending view) panic machine.contexts.get
    match outcome with
    | .done (.ok value) => conclude (ending value) none
    | .done (.error cause) => conclude (.misplaced cause) none
    | .panicked cause => conclude (.panicked cause) (some cause)
    | .exhausted => session.concludePlain .unusable

/-- Runs slices of a scheduler on two contexts of the bench: `drive` runs them with a given
executor. -/
def runSlices {α : Type} (session : Session) (number : Nat) (names : Pair String)
    (executing : Executing)
    (drive : {ε : Type} → Executor Session.host ε → Machine Session.host ε →
      Outcome (Except Misplaced α) × Machine Session.host ε)
    (ending : α → SliceEnd) : Result × Session :=
  match session.schedulers[number]?, session.bench.context? names.master,
      session.bench.context? names.slave with
  | some scheduler, some master, some slave =>
    let contexts : Pair Context := ⟨master, slave⟩
    let session := { session with bench := (session.bench.take names.master).take names.slave }
    match executing with
    | .burn cycles =>
      session.runMachine number scheduler names contexts session.bench
        (drive (burnBudget cycles)) ending fun rig _ => rig
    | .script actions =>
      session.runMachine number scheduler names contexts session.bench
        (drive (followScript actions)) ending fun rig _ => rig
    | .micro =>
      match session.bench.bus with
      | some ⟨.flat ram, forward⟩ =>
        let registry := session.cast.current
        let session := session.modifyCast fun cast => { cast with busy := registry :: cast.busy }
        session.runMachine number scheduler names contexts (wire ram forward.isSome)
          (drive (runMicro registry)) ending
          fun rig bench => { bench with bus := some (wire (.flat rig.memory) forward.isSome) }
      | _ =>
        (session.returnContexts names contexts).concludePlain .unusable
  | _, _, _ => session.concludePlain .unusable

/-- Performs a step. -/
def perform (session : Session) : Step → Result × Session
  | .bench step => session.performBenchStep step
  | .event step => session.performEventStep step
  | .makeScheduler config watching => session.makeScheduler config watching
  | .makeContexts number names =>
    match session.schedulers[number]? with
    | some scheduler =>
      (session.returnContexts names scheduler.config.contexts).concludePlain .ok
    | none => session.concludePlain .unusable
  | .scheduler number =>
    match session.schedulers[number]? with
    | some scheduler => session.concludePlain (.scheduler (session.view scheduler))
    | none => session.concludePlain .unusable
  | .slice number names executing =>
    session.runSlices number names executing
      (fun executor machine => machine.slice setting depth executor) .report
  | .slices number count names executing =>
    session.runSlices number names executing
      (fun executor machine => Machine.slices setting depth executor count machine)
      (fun _ => .complete)

/-- Performs steps one after the other. -/
def performAll : List Step → Session → List Result
  | [], _ => []
  | step :: later, session =>
    let (result, session) := session.perform step
    result :: performAll later session

/-- The results of a session. -/
def play (steps : List Step) : List Result := performAll steps initial

end Session

end Sh2Pair
