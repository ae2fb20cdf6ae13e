import Sh2Pair.Micro
import Sh2Pair.Session.Bench
import Sh2Pair.Session.Cast

/-!
# What steps do

The programs behind the event steps of a session, behind the calls of scripted listeners, and
behind the runs of executors. Each program notes in the journal where a call, an action or a run
begins and ends.
-/

namespace Sh2Pair.Session

open Program

variable {σ : Type}

/-- Performs programs until one of them ends everything. -/
def inOrder {α : Type} (perform : α → Program host σ Unit) : List α → Program host σ Unit
  | [] => .ret ()
  | first :: later => do
    perform first
    inOrder perform later

/-- Retires the registries that nothing refers to any more. -/
def retireLost : Program host σ Unit := do
  let cast : Cast ← hostState
  updateHost fun (cast : Cast) => { cast with alive := cast.alive.filter cast.refers }
  inOrder (fun registry => demand (.retire registry)) cast.lost

/-- Runs a program that refers to a registry meanwhile. -/
def referring {α : Type} (registry : Nat) (program : Program host σ α) :
    Program host σ α := do
  updateHost fun (cast : Cast) => { cast with busy := registry :: cast.busy }
  let value ← program
  updateHost fun (cast : Cast) => { cast with busy := cast.busy.tail }
  retireLost
  .ret value

/-- Goes on with the processor that a step means, if it can be told. -/
def withParty (concerned : Option Cpu) (party : Party) (next : Cpu → Program host σ Answer) :
    Program host σ Answer :=
  match party.resolve? concerned with
  | some cpu => next cpu
  | none => .ret .unusable

/-- Goes on with the listener that a step means, if it is there. -/
def withListener (who : Who) (next : Listener → Program host σ Answer) :
    Program host σ Answer := do
  let cast : Cast ← hostState
  let hub : Hub ← demand .survey
  match cast.listener? hub who with
  | some listener => next listener
  | none => .ret .unusable

/-- Goes on with the detector of a number, if it is there. -/
def withDetector (number : Nat) (next : Detector → Program host σ Answer) :
    Program host σ Answer := do
  let hub : Hub ← demand .survey
  if number < hub.detectors.size then next (hub.detector number) else .ret .unusable

/-- The answer of a registration. -/
def registrationAnswer : Except Duplicate Unit → Answer
  | .ok () => .ok
  | .error duplicate => .duplicate duplicate

/-- Performs an event step, for the processor concerned if there is one. -/
def performEvent (concerned : Option Cpu) : EventStep → Program host σ Answer
  | .renewRegistry => do
    let number : Nat ← demand .openRegistry
    updateHost fun (cast : Cast) =>
      { cast with current := number, alive := number :: cast.alive }
    retireLost
    .ret .ok
  | .declare tag events limit actions => do
    updateHost fun (cast : Cast) => cast.declare ⟨tag, events, limit, actions, 0⟩
    .ret .ok
  | .register party name who =>
    withParty concerned party fun cpu => withListener who fun listener => do
      let cast : Cast ← hostState
      let reply : Except Duplicate Unit ← demand (.register cast.current cpu name listener)
      .ret (registrationAnswer reply)
  | .registerBoth name who =>
    withListener who fun listener => do
      let cast : Cast ← hostState
      let reply : Except Duplicate Unit ← demand (.registerBoth cast.current name listener)
      .ret (registrationAnswer reply)
  | .remove party name =>
    withParty concerned party fun cpu => do
      let cast : Cast ← hostState
      let removed : Bool ← demand (.remove cast.current cpu name)
      .ret (.flag removed)
  | .removeBoth name => do
    let cast : Cast ← hostState
    let removed : Nat ← demand (.removeBoth cast.current name)
    .ret (.natural removed)
  | .fire party event =>
    withParty concerned party fun cpu => do
      let cast : Cast ← hostState
      let called : Nat ← referring cast.current (demand (.fire cast.current cpu event))
      .ret (.natural called)
  | .fireBoth event => do
    let cast : Cast ← hostState
    let called : Nat ← referring cast.current (demand (.fireBoth cast.current event))
    .ret (.natural called)
  | .isRegistered party name =>
    withParty concerned party fun cpu => do
      let cast : Cast ← hostState
      let hub : Hub ← demand .survey
      .ret (.flag ((hub.roster cast.current cpu).has name))
  | .count party =>
    withParty concerned party fun cpu => do
      let cast : Cast ← hostState
      let hub : Hub ← demand .survey
      .ret (.natural (hub.roster cast.current cpu).size)
  | .names party =>
    withParty concerned party fun cpu => do
      let cast : Cast ← hostState
      let hub : Hub ← demand .survey
      .ret (.texts (hub.roster cast.current cpu).names)
  | .calls tag => do
    let cast : Cast ← hostState
    .ret (.natural (cast.callsOf tag))
  | .outline spread => do
    let cast : Cast ← hostState
    let hub : Hub ← demand .survey
    let outline := (hub.registry cast.current).outline
    .ret (.text (if spread then outline.spread else outline.compact))
  | .notify who party event =>
    withParty concerned party fun cpu => withListener who fun listener => do
      let _ : Unit ← demand (.notify listener cpu event)
      .ret .ok
  | .panic text => .panic (.raised text)
  | .attach config =>
    match PollConfig.ofText config with
    | .error fault => .ret (.unreadable fault)
    | .ok config => do
      let cast : Cast ← hostState
      let reply : Except Duplicate Nat ← demand (.attach cast.current config)
      match reply with
      | .ok number => .ret (.natural number)
      | .error duplicate => .ret (.duplicate duplicate)
  | .watches detector => withDetector detector fun found => .ret (.watches found.watches)
  | .clear detector party =>
    withParty concerned party fun cpu => withDetector detector fun found => do
      let _ : Unit ← demand (.clear detector cpu)
      .ret (.watches (found.clear cpu).watches)
  | .settings detector => withDetector detector fun found => .ret (.settings found.config)

/-- Performs an action, between notes. -/
def noted (action : Program host σ Answer) : Program host σ Unit := do
  note Note.actionBegan
  let answer ← action
  note (Note.actionEnded answer)

/-- What the scripted listener of a number does when it is called. -/
def call (number : Nat) (cpu : Cpu) (event : Event) : Program host Unit Unit := do
  let cast : Cast ← hostState
  let script := cast.scripts.get number
  updateHost fun (cast : Cast) => cast.countCall script.tag
  note (Note.callBegan script.tag (cast.callsOf script.tag + 1) cpu event)
  if script.acts event then
    updateHost fun (cast : Cast) =>
      cast.modifyScript number fun script => { script with acted := script.acted + 1 }
    inOrder (fun action => noted (performEvent (some cpu) action)) script.actions
  note Note.callEnded

/-- Scripted listeners, called in the order of their registrations. -/
def setting : Setting host where
  behave := call
  arrange _ listeners := listeners
  arrange_perm _ listeners := .refl listeners

/-- How deeply calls may nest in a session. -/
def depth : Nat := 1048576

/-- Leaves remarks in the journal. -/
def leaveAll (remarks : List (Remark Note)) : Program host σ Unit :=
  inOrder (fun remark => leave (H := host) remark) remarks

/-- Performs a bench step in a turn. -/
def performBench (step : BenchStep) : Program host (Context × Bench) Answer :=
  .look fun (context, bench) =>
    let effect : Effect Note :=
      { bench with running := some context }.perform (some context.cpu) step
    .change (fun _ => (effect.bench.running.getD context, { effect.bench with running := none }))
      do
        leaveAll effect.remarks
        .ret effect.answer

/-- Performs an action of a scripted executor. -/
def performAction (action : Action) : Program host (Context × Bench) Unit :=
  .look fun (context, _) =>
    noted (match action with
      | .bench step => performBench step
      | .event step => performEvent (some context.cpu) step)

/-- Notes where a run begins and ends. -/
def notedRun {ε : Type} (scripted : Bool) (run : Executor host ε) :
    Program host (Context × ε) Unit := do
  let (context, _) ← own
  note (Note.runBegan context.cpu context.cycles context.ran scripted)
  run
  let (context, _) ← own
  note (Note.runEnded context.pc context.ran)

/-- Follows the script of the processor that runs. -/
def followScript (actions : Pair (List Action)) : Executor host Bench :=
  notedRun true (.look fun (context, _) => inOrder performAction (actions.get context.cpu))

/-- Consumes cycles in equal amounts as long as there are some left, at most a number of
times. -/
def burnDown (cycles : Int32) : Nat → Context → Context
  | 0, context => context
  | bound + 1, context =>
    if context.left.toInt ≤ 0 then context
    else burnDown cycles bound ({ context with pc := context.pc + 2 }.burn cycles)

/-- Consumes the budget in equal amounts. -/
def burnBudget (cycles : Int32) : Executor host Bench :=
  notedRun false (update fun (context, bench) =>
    (burnDown cycles context.remaining context, bench))

/-- Runs the small core, which refers to a registry meanwhile. -/
def runMicro (registry : Nat) : Executor host (Bus Ram) :=
  notedRun false (Micro.run registry)

end Sh2Pair.Session
