import Sh2Pair.Session.Cast

/-!
# Chronicles

The journal of a step is a flat list; its notes say where calls, actions and runs begin and end.
A chronicle puts the lines of the log, the calls and the runs where they belong: each into the
innermost action, run or step that was under way. What a panic left open is closed with it.
-/

namespace Sh2Pair.Session

/-- What can be under way. -/
inductive Scope where
  | step
  | call (tag : String) (number : Nat) (cpu : Cpu) (event : Event)
  | action
  | run (cpu : Cpu) (cycles ran : Int32) (scripted : Bool)

/-- Something under way, with what happened in it so far, the latest first. -/
structure Chapter where
  scope : Scope
  log : List (List Char)
  calls : List Call
  runs : List Run
  did : List Result

namespace Chapter

/-- Something that has just begun. -/
def opening (scope : Scope) : Chapter := ⟨scope, [], [], [], []⟩

/-- The result of an action or a step with an answer. -/
def toResult (chapter : Chapter) (answer : Answer) : Result :=
  .mk answer chapter.log.reverse (Call.sorted chapter.calls) chapter.runs.reverse

/-- Adds something that has ended to what was under way around it: a call, an action with an
answer, or a run with the program counter and the cycles it left. -/
def absorb (outer inner : Chapter) (answer : Answer) (panic : Option Panic) (pc : UInt32)
    (ranAfter : Int32) : Chapter :=
  match inner.scope with
  | .call tag number cpu event =>
    { outer with calls := .mk tag number cpu event inner.did.reverse :: outer.calls }
  | .run cpu cycles ran scripted =>
    let did := if scripted then some inner.did.reverse else none
    let calls := Call.sorted inner.calls
    { outer with
      runs := .mk cpu cycles ran did panic inner.log.reverse calls pc ranAfter :: outer.runs }
  | _ => { outer with did := inner.toResult answer :: outer.did }

end Chapter

/-- What is under way, the innermost first. -/
abbrev Chapters := List Chapter

namespace Chapters

/-- Ends the innermost thing under way. -/
def close (chapters : Chapters) (answer : Answer) (panic : Option Panic) (pc : UInt32)
    (ran : Int32) : Chapters :=
  match chapters with
  | inner :: outer :: later => outer.absorb inner answer panic pc ran :: later
  | chapters => chapters

/-- Adds a line to the log of the innermost thing under way. -/
def addLine (chapters : Chapters) (line : List Char) : Chapters :=
  match chapters with
  | inner :: later => { inner with log := line :: inner.log } :: later
  | [] => []

/-- Goes on by one entry of the journal. -/
def add (chapters : Chapters) (entry : Entry Note) : Chapters :=
  match entry with
  | .remark (.note note) =>
    match note with
    | .callBegan tag number cpu event => .opening (.call tag number cpu event) :: chapters
    | .callEnded => chapters.close .ok none 0 0
    | .actionBegan => .opening .action :: chapters
    | .actionEnded answer => chapters.close answer none 0 0
    | .runBegan cpu cycles ran scripted => .opening (.run cpu cycles ran scripted) :: chapters
    | .runEnded pc ran => chapters.close .ok none pc ran
  | entry =>
    match entry.line? with
    | some line => chapters.addLine line
    | none => chapters

/-- Closes everything but the step itself with a panic. A run is closed with what its context
shows afterwards. -/
def abandon (cause : Panic) (after : Cpu → Context) : Nat → Chapters → Chapters
  | 0, chapters => chapters
  | bound + 1, chapters =>
    let context :=
      match chapters with
      | ⟨.run cpu .., _, _, _, _⟩ :: _ => after cpu
      | _ => after .master
    abandon cause after bound
      (chapters.close (.panicked cause) (some cause) context.pc context.ran)

end Chapters

/-- The result of a step, from its answer and its journal, the latest entry first. If the step
ended in a panic, what was under way then is closed with it; `after` gives the contexts that it
left. -/
def chronicle (answer : Answer) (panic : Option Panic) (after : Cpu → Context)
    (journal : List (Entry Note)) : Result :=
  let chapters : Chapters :=
    journal.foldr (fun entry chapters => Chapters.add chapters entry) [.opening .step]
  let chapters : Chapters :=
    match panic with
    | some cause => Chapters.abandon cause after chapters.length chapters
    | none => chapters
  match chapters with
  | chapter :: _ => chapter.toResult answer
  | [] => .mk answer [] [] []

end Sh2Pair.Session
