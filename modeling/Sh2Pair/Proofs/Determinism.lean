import Sh2Pair.Proofs.Core
import Sh2Pair.Proofs.Course
import Sh2Pair.Proofs.Lockstep
import Sh2Pair.Proofs.Orders
import Sh2Pair.Scheduler.Machine

/-!
# The order of calls does not show

How a fire arranges its snapshot is left open. Where outside listeners are passive, nobody can find
out: take one machine and let it do the same things under two arrangements, and all answers agree,
and so do the registries, the detectors, the contexts, the memory, the counts, and what each outside
listener was told. What may differ is the order of calls inside a fire, as the journal shows it, and
what the outside listeners make of it among themselves.

Two worlds are in concord if they agree as far as this goes. Each request keeps worlds in concord,
and so does each program that does not look at the state of the host, each turn and each slice.
-/

namespace Sh2Pair

variable {H : Host}

namespace World

/-- Two worlds agree in their registries and detectors, and in what each outside listener was
told. -/
structure Concordant (left right : World H) : Prop where
  hub : left.hub = right.hub
  heard : ∀ number, left.hearing number = right.hearing number

variable {left right : World H}

/-- A world is in concord with itself. -/
theorem Concordant.refl (world : World H) : Concordant world world := ⟨rfl, fun _ => rfl⟩

/-- An entry in both journals keeps two worlds in concord. -/
theorem Concordant.record (concordant : Concordant left right) (entry : Entry H.Note) :
    Concordant (left.record entry) (right.record entry) := by
  refine ⟨concordant.hub, fun number => ?_⟩
  rw [hearing_record, hearing_record, concordant.heard]

/-- A change to the hub, and an entry in the journal, that depend on nothing but the hub. -/
theorem Concordant.enter (concordant : Concordant left right) (change : Hub → Hub)
    (entry : Hub → Entry H.Note) :
    Concordant ({ left with hub := change left.hub }.record (entry left.hub))
      ({ right with hub := change right.hub }.record (entry right.hub)) := by
  have changed : Concordant { left with hub := change left.hub }
      { right with hub := change right.hub } :=
    ⟨congrArg change concordant.hub, concordant.heard⟩
  rw [concordant.hub] at changed ⊢
  exact changed.record _

/-- A registration is answered alike in two worlds in concord, and keeps them so. -/
theorem Concordant.register (concordant : Concordant left right) (registry : Nat) (cpu : Cpu)
    (name : String) (listener : Listener) :
    (left.register registry cpu name listener).1 = (right.register registry cpu name listener).1 ∧
      Concordant (left.register registry cpu name listener).2
        (right.register registry cpu name listener).2 := by
  obtain ⟨hub, journal, fires, host⟩ := left
  obtain ⟨_, otherJournal, otherFires, otherHost⟩ := right
  obtain ⟨rfl, heard⟩ := concordant
  by_cases free : (hub.roster registry cpu).has name = false
  · rw [register_free _ listener free, register_free _ listener free]
    exact ⟨rfl, rfl, heard⟩
  · have used : (hub.roster registry cpu).has name = true := Bool.of_not_eq_false free
    rw [register_used _ listener used, register_used _ listener used]
    exact ⟨rfl, rfl, heard⟩

/-- A registration for both processors is answered alike in two worlds in concord, and keeps them
so. -/
theorem Concordant.registerBoth (concordant : Concordant left right) (registry : Nat)
    (name : String) (listener : Listener) :
    (left.registerBoth registry name listener).1 = (right.registerBoth registry name listener).1 ∧
      Concordant (left.registerBoth registry name listener).2
        (right.registerBoth registry name listener).2 := by
  obtain ⟨hub, journal, fires, host⟩ := left
  obtain ⟨_, otherJournal, otherFires, otherHost⟩ := right
  obtain ⟨rfl, heard⟩ := concordant
  simp only [World.registerBoth]
  by_cases master : (hub.roster registry .master).has name = false
  · by_cases slave : (hub.roster registry .slave).has name = false
    · rw [dif_pos master, dif_pos slave, dif_pos master, dif_pos slave]
      exact ⟨rfl, rfl, heard⟩
    · rw [dif_pos master, dif_neg slave, dif_pos master, dif_neg slave]
      exact ⟨rfl, rfl, heard⟩
  · rw [dif_neg master, dif_neg master]
    exact ⟨rfl, rfl, heard⟩

/-- A removal is answered alike in two worlds in concord, and keeps them so. -/
theorem Concordant.remove (concordant : Concordant left right) (registry : Nat) (cpu : Cpu)
    (name : String) :
    (left.remove registry cpu name).1 = (right.remove registry cpu name).1 ∧
      Concordant (left.remove registry cpu name).2 (right.remove registry cpu name).2 := by
  obtain ⟨hub, journal, fires, host⟩ := left
  obtain ⟨_, otherJournal, otherFires, otherHost⟩ := right
  obtain ⟨rfl, heard⟩ := concordant
  by_cases used : (hub.roster registry cpu).has name = true
  · rw [remove_used _ used, remove_used _ used]
    exact ⟨rfl, rfl, heard⟩
  · have free : (hub.roster registry cpu).has name = false := Bool.of_not_eq_true used
    rw [remove_free _ free, remove_free _ free]
    exact ⟨rfl, rfl, heard⟩

/-- A removal for both processors is answered alike in two worlds in concord, and keeps them so. -/
theorem Concordant.removeBoth (concordant : Concordant left right) (registry : Nat)
    (name : String) :
    (left.removeBoth registry name).1 = (right.removeBoth registry name).1 ∧
      Concordant (left.removeBoth registry name).2 (right.removeBoth registry name).2 := by
  obtain ⟨first, middle⟩ := concordant.remove registry .master name
  obtain ⟨second, last⟩ := middle.remove registry .slave name
  refine ⟨?_, last⟩
  simp only [World.removeBoth, first, second]

/-- A detector is attached alike in two worlds in concord, which stay so. -/
theorem Concordant.attach (concordant : Concordant left right) (registry : Nat)
    (config : PollConfig) :
    (left.attach registry config).1 = (right.attach registry config).1 ∧
      Concordant (left.attach registry config).2 (right.attach registry config).2 := by
  obtain ⟨answer, after⟩ := concordant.registerBoth registry Detector.name
    (.detector left.hub.detectors.size)
  simp only [World.attach, ← concordant.hub]
  generalize left.registerBoth registry Detector.name (.detector left.hub.detectors.size) = first
    at answer after
  generalize right.registerBoth registry Detector.name (.detector left.hub.detectors.size) = second
    at answer after
  obtain ⟨result, first⟩ := first
  obtain ⟨_, second⟩ := second
  cases answer
  cases result with
  | ok value => exact ⟨rfl, by dsimp only; rw [after.hub], after.heard⟩
  | error duplicate => exact ⟨rfl, after⟩

end World

/-- A program that does not look at the state of the host. -/
def Program.Blind {σ α : Type} : Program H σ α → Prop
  | .ret _ => True
  | .panic _ => True
  | .look next => ∀ state, (next state).Blind
  | .change _ next => next.Blind
  | .ask _ => False
  | .alter _ next => next.Blind
  | .remark _ next => next.Blind
  | .request _ next => ∀ reply, (next reply).Blind

/-- A program that does no more than fire is blind. -/
theorem Program.OnlyFires.blind {σ α : Type} {registry : Nat} {program : Program H σ α}
    (only : program.OnlyFires registry) : program.Blind := by
  induction program with
  | ret value => trivial
  | panic cause => trivial
  | look next inductionHypothesis => exact fun state => inductionHypothesis state (only state)
  | change f next inductionHypothesis => exact inductionHypothesis only
  | ask next inductionHypothesis => exact only
  | alter f next inductionHypothesis => exact only.elim
  | remark content next inductionHypothesis => exact inductionHypothesis only
  | request wanted next inductionHypothesis =>
    exact fun reply => inductionHypothesis reply (only.2 reply)

section Arrangements

variable {first second : Setting H} (behaves : first.behave = second.behave)
  (passive : first.Passive) (depth : Nat) {left right : World H}

include behaves in
/-- Listeners that behave like passive ones are passive, whatever the arrangement. -/
theorem Setting.Passive.of_behave (passive : first.Passive) : second.Passive := by
  rw [Passive, ← behaves]
  exact passive

include behaves passive

/-- A fire comes back in both worlds, whatever the two arrangements make of it. -/
theorem World.Concordant.fire (concordant : Concordant left right) (registry : Nat) (cpu : Cpu)
    (event : Event) :
    Outcome.Lockstep Eq Concordant
      (left.fire (first.deliver (depth + 1)) first.arrange registry cpu event)
      (right.fire (second.deliver (depth + 1)) second.arrange registry cpu event) := by
  obtain ⟨after, fired, hub, hearing⟩ := passive.fire depth left registry cpu event
  obtain ⟨other, followed, hubToo, hearingToo⟩ :=
    (passive.of_behave behaves).fire depth right registry cpu event
  rw [fired, followed]
  refine .done (by rw [concordant.hub]) ⟨?_, fun number => ?_⟩
  · rw [hub, hubToo, concordant.hub]
  · rw [hearing, hearingToo, concordant.hub, concordant.heard]

/-- A fire for both processors is two of them, and the counts agree. -/
theorem World.Concordant.fireBoth (concordant : Concordant left right) (registry : Nat)
    (event : Event) :
    Outcome.Lockstep Eq Concordant
      (left.fireBoth (first.deliver (depth + 1)) first.arrange registry event)
      (right.fireBoth (second.deliver (depth + 1)) second.arrange registry event) := by
  simp only [World.fireBoth]
  have begins : Outcome.Lockstep Eq Concordant
      (left.fire (first.deliver (depth + 1)) first.arrange registry Cpu.master event)
      (right.fire (second.deliver (depth + 1)) second.arrange registry Cpu.master event) :=
    concordant.fire behaves passive depth registry .master event
  generalize left.fire (first.deliver (depth + 1)) first.arrange registry .master event = one
    at begins ⊢
  generalize right.fire (second.deliver (depth + 1)) second.arrange registry .master event =
    other at begins ⊢
  cases begins with
  | panicked kept => exact .panicked kept
  | @done called answered middle shadow related kept =>
    have ends : Outcome.Lockstep Eq Concordant
        (middle.fire (first.deliver (depth + 1)) first.arrange registry Cpu.slave event)
        (shadow.fire (second.deliver (depth + 1)) second.arrange registry Cpu.slave event) :=
      kept.fire behaves passive depth registry .slave event
    dsimp only
    generalize middle.fire (first.deliver (depth + 1)) first.arrange registry .slave event = one
      at ends ⊢
    generalize shadow.fire (second.deliver (depth + 1)) second.arrange registry .slave event =
      other at ends ⊢
    cases ends with
    | panicked kept => exact .panicked kept
    | done relatedToo kept => exact .done (congrArg₂ _ related relatedToo) kept

/-- So does every other request, and the answers agree.

Proof: one case per request. The requests that change a registry or a detector do the same to equal
hubs. Fires, for one processor or for both, have lemmas of their own. A listener that is notified is
passive, so it leaves behind what can be told from the hub and from what the listener has heard. -/
theorem World.Concordant.answer (concordant : Concordant left right) (wanted : Request) :
    Outcome.Lockstep Eq Concordant
      (left.answer (first.deliver (depth + 1)) first.arrange wanted)
      (right.answer (second.deliver (depth + 1)) second.arrange wanted) := by
  cases wanted with
  | register registry cpu name listener =>
    obtain ⟨same, after⟩ := concordant.register registry cpu name listener
    exact .done same after
  | registerBoth registry name listener =>
    obtain ⟨same, after⟩ := concordant.registerBoth registry name listener
    exact .done same after
  | remove registry cpu name =>
    obtain ⟨same, after⟩ := concordant.remove registry cpu name
    exact .done same after
  | removeBoth registry name =>
    obtain ⟨same, after⟩ := concordant.removeBoth registry name
    exact .done same after
  | fire registry cpu event => exact concordant.fire behaves passive depth registry cpu event
  | fireBoth registry event =>
    exact concordant.fireBoth behaves passive depth registry event
  | notify listener cpu event =>
    have begun : (left.record (.notified listener cpu event)).Concordant
        (right.record (.notified listener cpu event)) :=
      concordant.record (.notified listener cpu event)
    obtain ⟨after, told, hub, hearing⟩ := passive.deliver depth listener cpu event
      (left.record (.notified listener cpu event))
    obtain ⟨other, followed, hubToo, hearingToo⟩ := (passive.of_behave behaves).deliver depth
      listener cpu event (right.record (.notified listener cpu event))
    simp only [World.answer, told, followed]
    refine .done rfl ⟨?_, fun number => ?_⟩
    · rw [hub, hubToo, begun.hub]
    · rw [hearing, hearingToo, begun.heard]
  | attach registry config =>
    obtain ⟨same, after⟩ := concordant.attach registry config
    exact .done same after
  | clear detector cpu =>
    exact .done rfl (concordant.enter (·.modifyDetector detector (·.clear cpu))
      fun hub => .pollCleared detector cpu ((hub.detector detector).polling cpu))
  | openRegistry =>
    exact .done (congrArg (fun hub => hub.registries.size) concordant.hub) (concordant.enter
      (fun hub => { hub with registries := hub.registries.push .empty })
      fun hub => .opened hub.registries.size)
  | retire registry =>
    exact .done rfl (concordant.enter
      (fun hub => { hub with registries := hub.registries.set registry .empty })
      fun _ => .retired registry)
  | survey => exact .done concordant.hub concordant

/-- A program that does not look at the state of the host cannot tell worlds in concord apart.

Proof: by induction on the program. The answers to a request agree, so the rest of the program goes
on alike. Looking at the host is the one step that could tell the worlds apart, and a blind program
does not take it. -/
theorem World.Concordant.run {σ α : Type} {program : Program H σ α} (blind : program.Blind)
    (state : σ) (concordant : Concordant left right) :
    Outcome.Lockstep Eq (fun one other => one.1 = other.1 ∧ Concordant one.2 other.2)
      (first.run (depth + 1) program state left) (second.run (depth + 1) program state right) := by
  simp only [Setting.run]
  induction program generalizing state left right with
  | ret value => exact .done rfl ⟨rfl, concordant⟩
  | panic cause => exact .panicked ⟨rfl, concordant⟩
  | look next inductionHypothesis => exact inductionHypothesis state (blind state) state concordant
  | change f next inductionHypothesis => exact inductionHypothesis blind (f state) concordant
  | ask next inductionHypothesis => exact blind.elim
  | alter f next inductionHypothesis =>
    exact inductionHypothesis blind state ⟨concordant.hub, concordant.heard⟩
  | remark content next inductionHypothesis =>
    exact inductionHypothesis blind state (concordant.record (.remark content))
  | request wanted next inductionHypothesis =>
    have answers : Outcome.Lockstep Eq Concordant
        (left.answer (first.deliver (depth + 1)) first.arrange wanted)
        (right.answer (second.deliver (depth + 1)) second.arrange wanted) :=
      concordant.answer behaves passive depth wanted
    simp only [Program.run]
    generalize left.answer (first.deliver (depth + 1)) first.arrange wanted = one at answers ⊢
    generalize right.answer (second.deliver (depth + 1)) second.arrange wanted = other
      at answers ⊢
    cases answers with
    | @done reply same middle shadow related kept =>
      subst related
      exact inductionHypothesis reply (blind reply) state kept
    | panicked kept => exact .panicked ⟨rfl, kept⟩

end Arrangements

namespace Machine

variable {ε : Type}

/-- Two machines that agree in everything but the order of calls. -/
structure Concordant (left right : Machine H ε) : Prop where
  scheduler : left.scheduler = right.scheduler
  contexts : left.contexts = right.contexts
  rig : left.rig = right.rig
  world : left.world.Concordant right.world

/-- A machine is in concord with itself. -/
theorem Concordant.refl (machine : Machine H ε) : Concordant machine machine :=
  ⟨rfl, rfl, rfl, .refl machine.world⟩

/-- Machines in concord have the same misplaced context, if any. -/
theorem Concordant.misplaced? {left right : Machine H ε} (concordant : Concordant left right) :
    left.misplaced? = right.misplaced? := by
  simp only [Machine.misplaced?, concordant.contexts]

/-- The end of a turn keeps machines in concord. -/
theorem Concordant.close {left right : Machine H ε} (concordant : Concordant left right)
    (cpu : Cpu) : Concordant (left.close cpu) (right.close cpu) := by
  refine ⟨concordant.scheduler, concordant.contexts, concordant.rig, ?_⟩
  simp only [Machine.close, concordant.contexts]
  split
  · exact (concordant.world.record _).record _
  · exact concordant.world.record _

section Arrangements

variable {first second : Setting H} (behaves : first.behave = second.behave)
  (passive : first.Passive) (depth : Nat) {executor : Executor H ε} (blind : executor.Blind)
  {left right : Machine H ε}

include behaves passive blind

/-- An executor that only fires does the same in machines in concord.

Proof: the executor begins at the same desk and does not look at the host. -/
theorem Concordant.execute (concordant : Concordant left right) (cpu : Cpu) :
    Outcome.Lockstep Eq Concordant (left.execute first (depth + 1) executor cpu)
      (right.execute second (depth + 1) executor cpu) := by
  have ran : Outcome.Lockstep Eq (fun one other => one.1 = other.1 ∧ one.2.Concordant other.2)
      (first.run (depth + 1) executor (left.contexts.get cpu, left.rig)
        (left.world.record (.turnBegan cpu)))
      (second.run (depth + 1) executor (left.contexts.get cpu, left.rig)
        (right.world.record (.turnBegan cpu))) :=
    (concordant.world.record (.turnBegan cpu)).run behaves passive depth blind
      (left.contexts.get cpu, left.rig)
  simp only [Machine.execute, ← concordant.contexts, ← concordant.rig]
  generalize first.run (depth + 1) executor (left.contexts.get cpu, left.rig)
    (left.world.record (.turnBegan cpu)) = one at ran ⊢
  generalize second.run (depth + 1) executor (left.contexts.get cpu, left.rig)
    (right.world.record (.turnBegan cpu)) = other at ran ⊢
  cases ran with
  | done related kept =>
    obtain ⟨desk, world⟩ := kept
    exact .done rfl ⟨concordant.scheduler,
      congrArg (fun desk => left.contexts.set cpu desk.1) desk, congrArg Prod.snd desk, world⟩
  | panicked kept =>
    obtain ⟨desk, world⟩ := kept
    exact .panicked ⟨concordant.scheduler,
      congrArg (fun desk => left.contexts.set cpu desk.1) desk, congrArg Prod.snd desk, world⟩

/-- A turn comes to the same in machines in concord, and keeps them so. -/
theorem Concordant.turn (concordant : Concordant left right) (cpu : Cpu) :
    Outcome.Lockstep Eq Concordant (left.turn first (depth + 1) executor cpu)
      (right.turn second (depth + 1) executor cpu) := by
  have granted : Concordant (left.grant cpu) (right.grant cpu) := by
    refine ⟨concordant.scheduler, ?_, concordant.rig, concordant.world⟩
    simp only [Machine.grant, concordant.contexts, concordant.scheduler]
  have skips : (left.grant cpu).skips cpu = (right.grant cpu).skips cpu := by
    rw [Machine.skips, Machine.skips, granted.scheduler, granted.world.hub]
  simp only [Machine.turn]
  by_cases passes : (left.grant cpu).skips cpu = true
  · rw [if_pos passes, if_pos (skips ▸ passes)]
    simp only [Machine.pass, Machine.settle, granted.contexts, granted.scheduler, granted.rig]
    exact .done rfl ⟨rfl, rfl, rfl, granted.world.record _⟩
  · rw [if_neg passes, if_neg (skips ▸ passes)]
    refine (granted.execute behaves passive depth blind cpu).andThen ?_
    intro _ _ before after _ _ kept
    have closed : (before.close cpu).Concordant (after.close cpu) := kept.close cpu
    simp only [Machine.settle, closed.contexts, closed.scheduler]
    exact .done rfl ⟨rfl, rfl, closed.rig, closed.world⟩

/-- A slice comes to the same in machines in concord, and keeps them so. -/
theorem Concordant.slice (concordant : Concordant left right) :
    Outcome.Lockstep Eq Concordant (left.slice first (depth + 1) executor)
      (right.slice second (depth + 1) executor) := by
  simp only [Machine.slice, ← concordant.misplaced?]
  cases left.misplaced? with
  | some misplaced => exact .done rfl concordant
  | none =>
    simp only [← concordant.scheduler]
    refine (concordant.turn behaves passive depth blind _).andThen ?_
    intro turn _ middle shadow _ same kept
    subst same
    refine (kept.turn behaves passive depth blind _).andThen ?_
    intro last _ finish shade _ same kept
    subst same
    refine .done rfl ⟨?_, kept.contexts, kept.rig, kept.world⟩
    dsimp only
    rw [kept.scheduler]

/-- Any number of slices come to the same in machines in concord, and keep them so. -/
theorem Concordant.slices (concordant : Concordant left right) (count : Nat) :
    Outcome.Lockstep Eq Concordant (left.slices first (depth + 1) executor count)
      (right.slices second (depth + 1) executor count) := by
  induction count generalizing left right with
  | zero => exact .done rfl concordant
  | succ count inductionHypothesis =>
    refine (concordant.slice behaves passive depth blind).andThen ?_
    intro result _ middle shadow _ same kept
    subst same
    cases result with
    | ok report => exact inductionHypothesis kept
    | error misplaced => exact .done rfl kept

end Arrangements

/-- One thing that is asked of a machine on which the small core runs. -/
inductive Deed where
  /-- Whatever can be asked of the library: registering, removing, firing and the like. -/
  | request (wanted : Request)
  | slice
  | slices (count : Nat)

/-- What is answered to a deed. -/
inductive Answer where
  | reply (wanted : Request) (outcome : Outcome wanted.Reply)
  | report (outcome : Outcome (Except Misplaced Report))
  | served (outcome : Outcome (Except Misplaced Unit))

/-- An answer was given before the depth was used up. -/
def Answer.Settled : Answer → Prop
  | .reply _ outcome => outcome ≠ .exhausted
  | .report outcome => outcome ≠ .exhausted
  | .served outcome => outcome ≠ .exhausted

/-- A deed, and its answer. The core fires on one registry. -/
def perform (setting : Setting H) (depth registry : Nat) (machine : Machine H (Bus Ram)) :
    Deed → Answer × Machine H (Bus Ram)
  | .request wanted =>
    match machine.world.answer (setting.deliver depth) setting.arrange wanted with
    | (outcome, world) => (.reply wanted outcome, { machine with world })
  | .slice => Prod.map .report id (machine.slice setting depth (Micro.run registry))
  | .slices count => Prod.map .served id (machine.slices setting depth (Micro.run registry) count)

/-- All answers to a list of deeds, and the machine after them. -/
def performAll (setting : Setting H) (depth registry : Nat) :
    List Deed → Machine H (Bus Ram) → List Answer × Machine H (Bus Ram)
  | [], machine => ([], machine)
  | deed :: later, machine =>
    match machine.perform setting depth registry deed with
    | (answer, middle) =>
      Prod.map (answer :: ·) id (performAll setting depth registry later middle)

section Arrangements

variable {first second : Setting H} (behaves : first.behave = second.behave)
  (passive : first.Passive) (depth registry : Nat) {left right : Machine H (Bus Ram)}

include behaves passive

/-- A deed is answered alike in machines in concord, and keeps them so.

Proof: one case per deed. Requests are answered alike, and the core is blind, so its slices end
alike. -/
theorem Concordant.perform (concordant : Concordant left right) (deed : Deed) :
    (left.perform first (depth + 1) registry deed).1 =
        (right.perform second (depth + 1) registry deed).1 ∧
      (left.perform first (depth + 1) registry deed).1.Settled ∧
      Concordant (left.perform first (depth + 1) registry deed).2
        (right.perform second (depth + 1) registry deed).2 := by
  have blind : (Micro.run registry : Executor H (Bus Ram)).Blind := Micro.onlyFires_run.blind
  cases deed with
  | request wanted =>
    have answers : Outcome.Lockstep Eq World.Concordant
        (left.world.answer (first.deliver (depth + 1)) first.arrange wanted)
        (right.world.answer (second.deliver (depth + 1)) second.arrange wanted) :=
      concordant.world.answer behaves passive depth wanted
    exact ⟨congrArg (Answer.reply wanted) answers.outcome, answers.settled,
      concordant.scheduler, concordant.contexts, concordant.rig, answers.kept⟩
  | slice =>
    have ran : Outcome.Lockstep Eq Concordant (left.slice first (depth + 1) (Micro.run registry))
        (right.slice second (depth + 1) (Micro.run registry)) :=
      concordant.slice behaves passive depth blind
    exact ⟨congrArg Answer.report ran.outcome, ran.settled, ran.kept⟩
  | slices count =>
    have ran : Outcome.Lockstep Eq Concordant
        (left.slices first (depth + 1) (Micro.run registry) count)
        (right.slices second (depth + 1) (Micro.run registry) count) :=
      concordant.slices behaves passive depth blind count
    exact ⟨congrArg Answer.served ran.outcome, ran.settled, ran.kept⟩

/-- Deeds are answered alike in machines in concord, no answer is missing for depth, and the
machines stay in concord. -/
theorem Concordant.performAll (concordant : Concordant left right) (deeds : List Deed) :
    (left.performAll first (depth + 1) registry deeds).1 =
        (right.performAll second (depth + 1) registry deeds).1 ∧
      (∀ answer ∈ (left.performAll first (depth + 1) registry deeds).1, answer.Settled) ∧
      Concordant (left.performAll first (depth + 1) registry deeds).2
        (right.performAll second (depth + 1) registry deeds).2 := by
  induction deeds generalizing left right with
  | nil => exact ⟨rfl, fun _ inside => absurd inside List.not_mem_nil, concordant⟩
  | cons deed later inductionHypothesis =>
    obtain ⟨answer, settled, middle⟩ := concordant.perform behaves passive depth registry deed
    obtain ⟨answers, allSettled, last⟩ := inductionHypothesis middle
    exact ⟨congrArg₂ _ answer answers, List.forall_mem_cons.mpr ⟨settled, allSettled⟩, last⟩

end Arrangements

/-- The order in which fires call their listeners does not show. Take two settings in which outside
listeners behave alike and are passive, and which differ in nothing but the orders in which fires
call their snapshots. Let one machine do the same things in both: register and remove listeners,
detectors among them, under whatever names, attach and clear detectors, fire, and run slices of the
small core. All answers agree, and none of them is missing because the depth is used up. The
registries and detectors agree after it, and so do the contexts, the memory, and the counts of the
scheduler. Each outside listener was told the same events in the same order.

Proof: a machine is in concord with itself, and every deed keeps two machines in concord: they agree
in all that a blind program can look at. The order of calls is lost because passive listeners that
are told about one event can be told in any order. -/
theorem performAll_eq_of_arrangement (first second : Setting H)
    (behaves : first.behave = second.behave) (passive : first.Passive) (depth registry : Nat)
    (deeds : List Deed) (machine : Machine H (Bus Ram)) :
    let left := machine.performAll first (depth + 1) registry deeds
    let right := machine.performAll second (depth + 1) registry deeds
    left.1 = right.1 ∧ (∀ answer ∈ left.1, answer.Settled) ∧
      left.2.world.hub = right.2.world.hub ∧
      left.2.contexts = right.2.contexts ∧ left.2.rig = right.2.rig ∧
      left.2.scheduler = right.2.scheduler ∧
      ∀ number, left.2.world.hearing number = right.2.world.hearing number := by
  intro left right
  obtain ⟨answers, settled, last⟩ :=
    (Concordant.refl machine).performAll behaves passive depth registry deeds
  exact ⟨answers, settled, last.world.hub, last.contexts, last.rig, last.scheduler,
    last.world.heard⟩

/-- The setting in which outside listeners do nothing and a fire calls its snapshot backwards. -/
def reversed : Setting H where
  behave _ _ _ := .ret ()
  arrange _ listeners := listeners.reverse
  arrange_perm _ listeners := listeners.reverse_perm

/-- A machine whose processors both spin from the beginning, with a registry that is empty. -/
def spinners : Machine ⟨Unit, Unit⟩ (Bus Ram) :=
  ⟨.fresh .standard 0 none, SliceConfig.standard.contexts,
    .plain ⟨0, #[0xaf, 0xfe, 0x00, 0x09], []⟩, .initial ()⟩

/-- A detector is registered under two names for the master, beside an outside listener. The master
polls, is woken, and polls again. -/
def woken : List Deed := [
  .request (.attach 0 ⟨true, [.comm]⟩), .request (.register 0 .master "again" (.detector 0)),
  .request (.register 0 .master "ear" (.hosted 0)), .slice,
  .request (.fire 0 .master .comm), .slices 1]

/-- In one setting the outside listener is called last, and in the other one first. It is told about
both polls, and about the event in between, at which the detector leaves the registry under one of
its names. -/
theorem performAll_eq_of_arrangement_reversed :
    (spinners.performAll .still 1 0 woken).1 = (spinners.performAll reversed 1 0 woken).1 ∧
      (spinners.performAll .still 1 0 woken).2.world.hearing 0 =
        [(.master, .startPolling), (.master, .comm), (.master, .startPolling)] ∧
      (spinners.performAll reversed 1 0 woken).2.world.hearing 0 =
        [(.master, .startPolling), (.master, .comm), (.master, .startPolling)] ∧
      ((spinners.performAll reversed 1 0 woken).2.world.hub.roster 0 .master).listeners =
        [.detector 0, .hosted 0] := by
  obtain ⟨answers, _, _, _, _, _, heard⟩ := performAll_eq_of_arrangement .still reversed rfl
    (fun _ _ _ => trivial) 0 0 woken spinners
  have told : (spinners.performAll .still 1 0 woken).2.world.hearing 0 =
      [(.master, .startPolling), (.master, .comm), (.master, .startPolling)] := by decide +kernel
  exact ⟨answers, told, (heard 0).symm.trans told, by decide +kernel⟩

end Machine

end Sh2Pair
