import Mathlib.Data.Set.Image
import Sh2Pair.Micro
import Sh2Pair.Proofs.Slices
import Sh2Pair.Scheduler.Machine
import Sh2Pair.Session.Step

/-!
# Handling contexts

A context keeps its processor, its letter and its debug flag to itself. Whoever uses contexts can
make them, copy them, put one in the place of another, write the open fields, and call the
operations. This holds for executors and listeners as well. They may do this in any order and
depending on anything, they may keep contexts of their own in between, and an executor may replace
the whole context of its turn.

What can be had in this way from given contexts is an inductive closure. A program handles contexts
if everything it leaves in a state can be had from what it has seen. A set that contains every new
context and that no deed leads out of is therefore not left by a run of such a program, and by no
turn of a scheduler either. The proof is an induction over the program inside an induction on the
depth of calls, since listeners are programs, too.
-/

namespace Sh2Pair

/-- Something that is done to a context without a part in its control state. -/
inductive Touch where
  | setReg (number : Nat) (value : UInt32)
  | grant (cycles : Int32)
  /-- Attaches devices, or takes them away. -/
  | devices (value : Option Device)
  | opcode (value : UInt16)
  | delayPc (value : UInt32)
  | cycles (value : Int32)
  | ran (value : Int32)
  | fetched (value : Fetched)
  /-- Fetches the instruction at the program counter. -/
  | fetch
  /-- Fetches the instruction of a delay slot. -/
  | fetchSlot (pc : UInt32)

namespace Touch

variable {M : Type} [Store M]

/-- A context and the bus it fetches from, after something was done to the context. -/
def apply (touch : Touch) (context : Context) (bus : Bus M) : Context × Bus M :=
  match touch with
  | .setReg number value => (context.setReg number value, bus)
  | .grant budget => (context.grant budget, bus)
  | .devices value => ({ context with devices := value }, bus)
  | .opcode value => ({ context with opcode := value }, bus)
  | .delayPc value => ({ context with delayPc := value }, bus)
  | .cycles value => ({ context with cycles := value }, bus)
  | .ran value => ({ context with ran := value }, bus)
  | .fetched value => ({ context with fetched := value }, bus)
  | .fetch => (bus.fetch context).2
  | .fetchSlot pc => (bus.fetchSlot context pc).2

/-- The context after several things were done to it. -/
def applyAll (context : Context) (bus : Bus M) : List Touch → Context
  | [] => context
  | touch :: touches =>
    let (context, bus) := touch.apply context bus
    applyAll context bus touches

end Touch

/-- Anything that can be done to a context one has. -/
inductive Deed where
  /-- Something that has no part in the control state. -/
  | light (touch : Touch)
  | write (assignment : Session.Assignment)
  /-- Writes all data registers at once. -/
  | registers (values : Vector UInt32 16)
  | reset (pc stack : UInt32)
  /-- Goes on with a copy. -/
  | copy

/-- A context and the bus it fetches from, after something was done to the context. -/
def Deed.apply {M : Type} [Store M] (deed : Deed) (context : Context) (bus : Bus M) :
    Context × Bus M :=
  match deed with
  | .light touch => touch.apply context bus
  | .write assignment => (assignment.apply context, bus)
  | .registers values => ({ context with regs := values }, bus)
  | .reset pc stack => (context.reset pc stack, bus)
  | .copy => (context.copy, bus)

/-- What can be had from given contexts: these contexts, new ones, and whatever deeds make of what
can be had. A context that can be had can be put in the place of any other. -/
inductive Had (given : Set Context) : Context → Prop where
  | given {context : Context} (inside : context ∈ given) : Had given context
  | fresh (cpu : Cpu) (debug : Bool) : Had given (.fresh cpu debug)
  | done {context : Context} (had : Had given context) {M : Type} [Store M] (deed : Deed)
      (bus : Bus M) : Had given (deed.apply context bus).1

/-- A context can be had from itself. -/
theorem Had.self (context : Context) : Had {context} context := .given rfl

/-- A bus over no memory, for deeds that ask for none. -/
def Bus.nowhere : Bus Ram := .plain (.zeroed 0 0)

/-- A set of contexts that contains every new one, and that no deed leads out of. -/
structure Closed (good : Set Context) : Prop where
  fresh : ∀ cpu debug, .fresh cpu debug ∈ good
  done : ∀ {context}, context ∈ good → ∀ {M : Type} [Store M] (deed : Deed) (bus : Bus M),
    (deed.apply context bus).1 ∈ good

/-- What can be had from contexts of such a set is in the set. -/
theorem Closed.had {good given : Set Context} (closed : Closed good) (inside : given ⊆ good)
    {context : Context} (had : Had given context) : context ∈ good := by
  induction had with
  | given member => exact inside member
  | fresh cpu debug => exact closed.fresh cpu debug
  | done had deed bus inductionHypothesis => exact closed.done inductionHypothesis deed bus

/-- From more contexts, more can be had. -/
theorem Had.mono {given more : Set Context} (fewer : given ⊆ more) {context : Context}
    (had : Had given context) : Had more context := by
  induction had with
  | given member => exact .given (fewer member)
  | fresh cpu debug => exact .fresh cpu debug
  | done had deed bus inductionHypothesis => exact inductionHypothesis.done deed bus

/-- Where contexts are kept: in the own state of a program, and in the state of the host. -/
structure Shelves (H : Host) (σ : Type) where
  own : σ → Set Context
  host : H.State → Set Context

variable {H : Host} {σ α β : Type}

namespace Program

/-- A program handles contexts. It has seen some, and it sees those in a state when it looks at the
state. Whatever a change of a state leaves there can be had from the contexts it has seen and those
that were there. -/
def Handles (shelves : Shelves H σ) : Program H σ α → Set Context → Prop
  | .ret _, _ => True
  | .panic _, _ => True
  | .look next, seen => ∀ state, (next state).Handles shelves (seen ∪ shelves.own state)
  | .change f next, seen =>
    (∀ state, ∀ context ∈ shelves.own (f state), Had (seen ∪ shelves.own state) context) ∧
      next.Handles shelves seen
  | .ask next, seen => ∀ state, (next state).Handles shelves (seen ∪ shelves.host state)
  | .alter f next, seen =>
    (∀ state, ∀ context ∈ shelves.host (f state), Had (seen ∪ shelves.host state) context) ∧
      next.Handles shelves seen
  | .remark _ next, seen => next.Handles shelves seen
  | .request _ next, seen => ∀ reply, (next reply).Handles shelves seen

/-- A program that handles contexts also does so when it has seen more.

Proof: by induction on the program. More contexts to take from allow for everything that fewer do.
-/
theorem Handles.mono {shelves : Shelves H σ} {program : Program H σ α} {seen more : Set Context}
    (handles : program.Handles shelves seen) (fewer : seen ⊆ more) :
    program.Handles shelves more := by
  induction program generalizing seen more with
  | ret value => trivial
  | panic cause => trivial
  | look next inductionHypothesis =>
    exact fun state =>
      inductionHypothesis state (handles state) (Set.union_subset_union_left _ fewer)
  | change f next inductionHypothesis =>
    exact ⟨fun state context inside =>
      (handles.1 state context inside).mono (Set.union_subset_union_left _ fewer),
      inductionHypothesis handles.2 fewer⟩
  | ask next inductionHypothesis =>
    exact fun state =>
      inductionHypothesis state (handles state) (Set.union_subset_union_left _ fewer)
  | alter f next inductionHypothesis =>
    exact ⟨fun state context inside =>
      (handles.1 state context inside).mono (Set.union_subset_union_left _ fewer),
      inductionHypothesis handles.2 fewer⟩
  | remark content next inductionHypothesis => exact inductionHypothesis handles fewer
  | request wanted next inductionHypothesis =>
    exact fun reply => inductionHypothesis reply (handles reply) fewer

/-- Programs that handle contexts can be put one behind the other.

Proof: by induction on the first program. What it has seen only adds to what the second one may take
from. -/
theorem Handles.bind {shelves : Shelves H σ} {program : Program H σ α}
    {rest : α → Program H σ β} {seen : Set Context} (handles : program.Handles shelves seen)
    (others : ∀ value, (rest value).Handles shelves seen) :
    (program.bind rest).Handles shelves seen := by
  induction program generalizing seen with
  | ret value => exact others value
  | panic cause => trivial
  | look next inductionHypothesis =>
    exact fun state => inductionHypothesis state (handles state) fun value =>
      (others value).mono Set.subset_union_left
  | change f next inductionHypothesis =>
    exact ⟨handles.1, inductionHypothesis handles.2 others⟩
  | ask next inductionHypothesis =>
    exact fun state => inductionHypothesis state (handles state) fun value =>
      (others value).mono Set.subset_union_left
  | alter f next inductionHypothesis =>
    exact ⟨handles.1, inductionHypothesis handles.2 others⟩
  | remark content next inductionHypothesis => exact inductionHypothesis handles others
  | request wanted next inductionHypothesis =>
    exact fun reply => inductionHypothesis reply (handles reply) others

end Program

/-- Where the contexts of listeners are kept: a listener has no state of its own. -/
def Shelves.outside (host : H.State → Set Context) : Shelves H Unit := ⟨fun _ => ∅, host⟩

/-- All outside listeners handle contexts. -/
def Setting.Handles (setting : Setting H) (host : H.State → Set Context) : Prop :=
  ∀ number cpu event, (setting.behave number cpu event).Handles (.outside host) ∅

namespace World

/-- Registering a listener leaves the host alone. -/
theorem host_register (world : World H) (registry : Nat) (cpu : Cpu) (name : String)
    (listener : Listener) : (world.register registry cpu name listener).2.host = world.host := by
  simp only [register]
  split <;> rfl

/-- So does registering one for both processors. -/
theorem host_registerBoth (world : World H) (registry : Nat) (name : String)
    (listener : Listener) : (world.registerBoth registry name listener).2.host = world.host := by
  simp only [registerBoth]
  split
  · split <;> rfl
  · rfl

/-- So does a removal. -/
theorem host_remove (world : World H) (registry : Nat) (cpu : Cpu) (name : String) :
    (world.remove registry cpu name).2.host = world.host := by
  simp only [remove]
  split <;> rfl

/-- So does making a detector. -/
theorem host_attach (world : World H) (registry : Nat) (config : PollConfig) :
    (world.attach registry config).2.host = world.host := by
  have registered : (world.registerBoth registry Detector.name
      (.detector world.hub.detectors.size)).2.host = world.host := host_registerBoth ..
  simp only [attach]
  split
  · rename_i made
    rw [made] at registered
    exact registered
  · rename_i refused
    rw [refused] at registered
    exact registered

/-- So does telling a detector about an event. -/
theorem host_signal (world : World H) (number : Nat) (cpu : Cpu) (event : Event) :
    (world.signal number cpu event).host = world.host := by
  simp only [signal]
  split
  · rfl
  · rfl
  · split
    · exact host_remove ..
    · rfl

end World

section Runs

variable {good : Set Context} (closed : Closed good) {host : H.State → Set Context}
  {deliver : Delivery H} {arrange : Nat → List Listener → List Listener}

/-- Telling listeners leaves only such contexts with the host. -/
def Delivery.KeepsTo (host : H.State → Set Context) (good : Set Context) (deliver : Delivery H) :
    Prop :=
  ∀ listener cpu event world, host world.host ⊆ good →
    host (deliver listener cpu event world).2.host ⊆ good

variable (delivered : deliver.KeepsTo host good)

include delivered

namespace World

/-- Calling the listeners of a fire leaves only such contexts with the host. -/
theorem callEach_keepsTo (fire : Nat) (cpu : Cpu) (event : Event) (pending : List Listener)
    (world : World H) (kept : host world.host ⊆ good) :
    host (callEach deliver fire cpu event pending world).2.host ⊆ good := by
  induction pending generalizing world with
  | nil => exact kept
  | cons listener later inductionHypothesis =>
    have called : host (deliver listener cpu event
        (world.record (.called fire listener cpu event))).2.host ⊆ good :=
      delivered listener cpu event _ kept
    simp only [callEach]
    generalize deliver listener cpu event (world.record _) = result at called ⊢
    obtain ⟨outcome, after⟩ := result
    cases outcome with
    | done value => exact inductionHypothesis _ called
    | panicked cause => exact called
    | exhausted => exact called

/-- So does a fire. -/
theorem fire_keepsTo (world : World H) (registry : Nat) (cpu : Cpu) (event : Event)
    (kept : host world.host ⊆ good) :
    host (world.fire deliver arrange registry cpu event).2.host ⊆ good :=
  callEach_keepsTo delivered _ cpu event _ _ kept

/-- So does the answer to any request.

Proof: one case per request. Only fires and notifications run anything of the host's, and these are
deliveries. -/
theorem answer_keepsTo (world : World H) (wanted : Request) (kept : host world.host ⊆ good) :
    host (world.answer deliver arrange wanted).2.host ⊆ good := by
  cases wanted with
  | register registry cpu name listener =>
    exact (congrArg host (host_register world registry cpu name listener)).trans_subset kept
  | registerBoth registry name listener =>
    exact (congrArg host (host_registerBoth world registry name listener)).trans_subset kept
  | remove registry cpu name =>
    exact (congrArg host (host_remove world registry cpu name)).trans_subset kept
  | removeBoth registry name =>
    exact (congrArg host ((host_remove ..).trans (host_remove ..))).trans_subset kept
  | fire registry cpu event => exact fire_keepsTo delivered world registry cpu event kept
  | fireBoth registry event =>
    have first : host (world.fire deliver arrange registry .master event).2.host ⊆ good :=
      fire_keepsTo delivered world registry .master event kept
    simp only [answer, fireBoth]
    generalize world.fire deliver arrange registry .master event = result at first ⊢
    obtain ⟨outcome, middle⟩ := result
    cases outcome with
    | done count => exact fire_keepsTo delivered middle registry .slave event first
    | panicked cause => exact first
    | exhausted => exact first
  | notify listener cpu event => exact delivered listener cpu event _ kept
  | attach registry config =>
    exact (congrArg host (host_attach world registry config)).trans_subset kept
  | clear detector cpu => exact kept
  | openRegistry => exact kept
  | retire registry => exact kept
  | survey => exact kept

end World

include closed

/-- A run of a program that handles contexts leaves only such contexts, in its own state and with
the host, if it began with only such contexts and has seen no others.

Proof: by induction on the program. What it puts anywhere is made of what it has seen so far, and
that is good because good contexts are closed under what it may do. -/
theorem Program.Handles.run {own : σ → Set Context} {program : Program H σ α}
    {seen : Set Context} (handles : program.Handles ⟨own, host⟩ seen) (known : seen ⊆ good)
    {state : σ} (owned : own state ⊆ good) {world : World H} (kept : host world.host ⊆ good) :
    own (program.run deliver arrange state world).2.1 ⊆ good ∧
      host (program.run deliver arrange state world).2.2.host ⊆ good := by
  induction program generalizing seen state world with
  | ret value => exact ⟨owned, kept⟩
  | panic cause => exact ⟨owned, kept⟩
  | look next inductionHypothesis =>
    exact inductionHypothesis state (handles state) (Set.union_subset known owned) owned kept
  | change f next inductionHypothesis =>
    have changed : own (f state) ⊆ good := fun context inside =>
      closed.had (Set.union_subset known owned) (handles.1 state context inside)
    exact inductionHypothesis handles.2 known changed kept
  | ask next inductionHypothesis =>
    exact inductionHypothesis world.host (handles world.host) (Set.union_subset known kept) owned
      kept
  | alter f next inductionHypothesis =>
    have altered : host (f world.host) ⊆ good := fun context inside =>
      closed.had (Set.union_subset known kept) (handles.1 world.host context inside)
    exact inductionHypothesis handles.2 known owned altered
  | remark content next inductionHypothesis => exact inductionHypothesis handles known owned kept
  | request wanted next inductionHypothesis =>
    have answered : host (world.answer deliver arrange wanted).2.host ⊆ good :=
      world.answer_keepsTo delivered wanted kept
    simp only [Program.run]
    generalize world.answer deliver arrange wanted = result at answered ⊢
    obtain ⟨outcome, middle⟩ := result
    cases outcome with
    | done reply => exact inductionHypothesis reply (handles reply) known owned answered
    | panicked cause => exact ⟨owned, answered⟩
    | exhausted => exact ⟨owned, answered⟩

end Runs

/-- Telling a listener leaves only such contexts with the host, at every depth, if all listeners
handle contexts.

Proof: by induction on the depth. A detector runs no program, and an outside listener runs one whose
deliveries come from one level below. -/
theorem Setting.Handles.deliver {good : Set Context} (closed : Closed good)
    {host : H.State → Set Context} {setting : Setting H} (handles : setting.Handles host)
    (depth : Nat) : (setting.deliver depth).KeepsTo host good := by
  induction depth with
  | zero =>
    intro listener cpu event world kept
    cases listener with
    | detector number =>
      exact (congrArg host (world.host_signal number cpu event)).trans_subset kept
    | hosted number => exact kept
  | succ depth inductionHypothesis =>
    intro listener cpu event world kept
    cases listener with
    | detector number =>
      exact (congrArg host (world.host_signal number cpu event)).trans_subset kept
    | hosted number =>
      exact ((handles number cpu event).run closed inductionHypothesis (Set.empty_subset good)
        (Set.empty_subset good) kept).2

namespace Machine

variable {ε : Type}

/-- An executor handles the context of its turn, and those that are kept on the rig and by the
host. -/
def ExecutorHandles (rig : ε → Set Context) (host : H.State → Set Context)
    (executor : Executor H ε) : Prop :=
  executor.Handles ⟨fun desk => insert desk.1 (rig desk.2), host⟩ ∅

/-- All contexts that a machine has: those of the processors, those on the rig, and those that the
host keeps. -/
def present (rig : ε → Set Context) (host : H.State → Set Context) (machine : Machine H ε) :
    Set Context :=
  Set.range machine.contexts.get ∪ rig machine.rig ∪ host machine.world.host

variable {rig : ε → Set Context} {host : H.State → Set Context} {good : Set Context}

/-- The contexts of a machine are in a set if those of each kind are. -/
theorem present_subset_iff {machine : Machine H ε} : machine.present rig host ⊆ good ↔
    (∀ cpu, machine.contexts.get cpu ∈ good) ∧ rig machine.rig ⊆ good ∧
      host machine.world.host ⊆ good := by
  rw [present, Set.union_subset_iff, Set.union_subset_iff, Set.range_subset_iff, and_assoc]

/-- A context that is put in its place joins the others. -/
theorem get_set_mem {contexts : Pair Context} (kept : ∀ cpu, contexts.get cpu ∈ good) {cpu : Cpu}
    {context : Context} (joins : context ∈ good) (place : Cpu) :
    (contexts.set cpu context).get place ∈ good := by
  rw [Pair.get_set]
  split
  · exact joins
  · exact kept place

/-- Entering the end of a turn and crediting its cycles touches no context. -/
theorem present_close (machine : Machine H ε) (cpu : Cpu) :
    ((machine.close cpu).settle cpu false).2.present rig host = machine.present rig host := by
  simp only [close, settle]
  split <;> rfl

variable (closed : Closed good) {setting : Setting H} (listeners : setting.Handles host)
  {executor : Executor H ε} (handles : ExecutorHandles rig host executor) (depth : Nat)

include closed listeners handles

/-- A turn of a scheduler leaves only contexts of a closed set, in either place, on the rig and with
the host, if it found only such contexts, and if executor and listeners handle contexts.

Proof: granting the budget and passing over a turn are deeds. Otherwise the executor runs, whatever
it does, on the context with the budget and on the rig; how it ends makes no difference, since what
follows touches no context. -/
theorem turn_present (machine : Machine H ε) (cpu : Cpu)
    (found : machine.present rig host ⊆ good) :
    (machine.turn setting depth executor cpu).2.present rig host ⊆ good := by
  obtain ⟨placed, shelved, kept⟩ := present_subset_iff.mp found
  let begun : Context := (machine.contexts.get cpu).grant machine.scheduler.config.cycles
  have granted : begun ∈ good :=
    closed.done (placed cpu) (.light (.grant machine.scheduler.config.cycles))
      .nowhere
  cases skips : machine.skips cpu with
  | true =>
    have passed : { begun with ran := machine.scheduler.config.cycles } ∈ good :=
      closed.done granted (.light (.ran machine.scheduler.config.cycles))
        .nowhere
    rw [turn_of_skips skips]
    exact present_subset_iff.mpr ⟨get_set_mem placed passed, shelved, kept⟩
  | false =>
    let ended := setting.run depth executor (begun, machine.rig)
      (machine.world.record (.turnBegan cpu))
    have owned : insert begun (rig machine.rig) ⊆ good := Set.insert_subset granted shelved
    have ran : insert ended.2.1.1 (rig ended.2.1.2) ⊆ good ∧ host ended.2.2.host ⊆ good :=
      Program.Handles.run closed (listeners.deliver closed depth) handles (Set.empty_subset good)
        owned kept
    obtain ⟨joins, others⟩ := Set.insert_subset_iff.mp ran.1
    have runs : ¬ (machine.grant cpu).skips cpu = true := Bool.eq_false_iff.mp skips
    have executed : (machine.grant cpu).execute setting depth executor cpu = (ended.1,
        { machine with
          contexts := machine.contexts.set cpu ended.2.1.1
          rig := ended.2.1.2
          world := ended.2.2 }) := by
      simp only [execute, grant, Pair.get_modify_self, Pair.set_modify]
      rfl
    have left : present rig host { machine with
        contexts := machine.contexts.set cpu ended.2.1.1
        rig := ended.2.1.2
        world := ended.2.2 } ⊆ good :=
      present_subset_iff.mpr ⟨get_set_mem placed joins, others, ran.2⟩
    simp only [turn, if_neg runs, executed]
    cases ended.1 with
    | done value => exact (present_close _ cpu).trans_subset left
    | panicked cause => exact left
    | exhausted => exact left

/-- So does a slice, whether it completes, finds a context in the wrong place, or ends early.

Proof: a slice is two turns, or one if that does not complete, and each of them keeps to good
contexts. -/
theorem slice_present (machine : Machine H ε) (found : machine.present rig host ⊆ good) :
    (machine.slice setting depth executor).2.present rig host ⊆ good := by
  simp only [slice]
  cases machine.misplaced? with
  | some misplaced => exact found
  | none =>
    have first : (machine.turn setting depth executor
        machine.scheduler.config.firstCpu).2.present rig host ⊆ good :=
      turn_present closed listeners handles depth machine _ found
    dsimp only
    generalize machine.turn setting depth executor machine.scheduler.config.firstCpu = result
      at first ⊢
    obtain ⟨outcome, middle⟩ := result
    cases outcome with
    | panicked cause => exact first
    | exhausted => exact first
    | done turn =>
      have second : (middle.turn setting depth executor
          machine.scheduler.config.firstCpu.other).2.present rig host ⊆ good :=
        turn_present closed listeners handles depth middle _ first
      dsimp only [Outcome.andThen]
      generalize middle.turn setting depth executor machine.scheduler.config.firstCpu.other = result
        at second ⊢
      obtain ⟨outcome, last⟩ := result
      cases outcome <;> exact second

/-- So do any number of slices. The induction is on this number; a slice that ends early leaves the
machine to nobody else. -/
theorem slices_present (count : Nat) (machine : Machine H ε)
    (found : machine.present rig host ⊆ good) :
    (machine.slices setting depth executor count).2.present rig host ⊆ good := by
  induction count generalizing machine with
  | zero => exact found
  | succ count inductionHypothesis =>
    have first : (machine.slice setting depth executor).2.present rig host ⊆ good :=
      slice_present closed listeners handles depth machine found
    simp only [slices]
    generalize machine.slice setting depth executor = result at first ⊢
    obtain ⟨outcome, middle⟩ := result
    cases outcome with
    | panicked cause => exact first
    | exhausted => exact first
    | done ended =>
      cases ended with
      | error misplaced => exact first
      | ok report => exact inductionHypothesis middle first

end Machine

namespace Micro

/-- The small core keeps no context but the one of its turn. -/
def shelves (host : H.State → Set Context) : Shelves H Desk :=
  ⟨fun desk => insert desk.1 ∅, host⟩

section Core

variable {host : H.State → Set Context} {seen : Set Context}

/-- Looking at the context changes nothing. -/
theorem handles_context : (context : Program H Desk Context).Handles (shelves host) seen :=
  fun _ => trivial

/-- The context may be changed by whatever deeds can do. -/
theorem handles_adjust {f : Context → Context} (had : ∀ context, Had {context} (f context)) :
    (adjust f : Program H Desk Unit).Handles (shelves host) seen := by
  refine ⟨fun desk context inside => ?_, trivial⟩
  rcases inside with rfl | absent
  · exact (had desk.1).mono fun own same => .inr (.inl same)
  · exact absent.elim

/-- In particular, a field may be written. -/
theorem handles_write (assignment : Session.Assignment) :
    (adjust fun context => assignment.apply context : Program H Desk Unit).Handles (shelves host)
      seen :=
  handles_adjust fun context => (Had.self context).done (.write assignment) .nowhere

/-- Fetching is a deed, on the bus of the desk. -/
theorem handles_fetch : (fetch : Program H Desk UInt16).Handles (shelves host) seen := by
  refine fun desk => ⟨fun changed context inside => ?_, trivial⟩
  have seenNow : desk.1 ∈ seen ∪ insert desk.1 ∅ ∪ insert changed.1 ∅ := .inl (.inr (.inl rfl))
  rcases inside with rfl | absent
  · exact (Had.given seenNow).done (.light .fetch) desk.2
  · exact absent.elim

/-- So is fetching for a delay slot. -/
theorem handles_fetchSlot (pc : UInt32) :
    (fetchSlot pc : Program H Desk UInt16).Handles (shelves host) seen := by
  refine fun desk => ⟨fun changed context inside => ?_, trivial⟩
  have seenNow : desk.1 ∈ seen ∪ insert desk.1 ∅ ∪ insert changed.1 ∅ := .inl (.inr (.inl rfl))
  rcases inside with rfl | absent
  · exact (Had.given seenNow).done (.light (.fetchSlot pc)) desk.2
  · exact absent.elim

/-- A store leaves the context as it was seen. -/
theorem handles_store (address value : UInt32) :
    (store address value : Program H Desk Unit).Handles (shelves host) seen := by
  refine fun desk => ⟨fun changed context inside => ?_, ?_⟩
  · rcases inside with rfl | absent
    · exact .given (.inl (.inr (.inl rfl)))
    · exact absent.elim
  · change Program.Handles _ (ite _ _ _) _
    split
    · trivial
    · trivial

/-- A fire is a request. -/
theorem handles_fire (registry : Nat) (cpu : Cpu) (event : Event) :
    (Program.fire registry cpu event : Program H Desk Nat).Handles (shelves host) seen :=
  fun _ => trivial

/-- Moving the program counter writes a field. -/
theorem handles_stepOver : (stepOver : Program H Desk Unit).Handles (shelves host) seen := by
  refine .bind handles_context fun start => ?_
  split
  · exact handles_write (.pc _)
  · trivial

/-- So does consuming cycles. -/
theorem handles_consume (cycles : Int32) :
    (consume cycles : Program H Desk Unit).Handles (shelves host) seen := by
  refine .bind handles_context fun start => ?_
  split
  · exact handles_write (.ran _)
  · trivial

/-- An instruction of one cycle ends with both. -/
theorem handles_advance :
    (stepOver.bind fun _ => consume 1 : Program H Desk Unit).Handles (shelves host) seen :=
  .bind handles_stepOver fun _ => handles_consume 1

/-- A branch writes fields and fetches. -/
theorem handles_executeBranch (registry : Nat) (distance : UInt32) :
    (executeBranch registry distance : Program H Desk Unit).Handles (shelves host) seen := by
  refine .bind handles_context fun start => ?_
  split
  · trivial
  · have delayed : ∀ context : Context, Had {context}
        { context with delayPc := start.pc + 4 + distance, delaySlot := true } := fun context =>
      ((Had.self context).done (.write (.delayPc (start.pc + 4 + distance)))
        .nowhere).done (.write (.delaySlot true)) .nowhere
    refine .bind (handles_adjust delayed) fun _ => .bind (handles_fetchSlot _) fun opcode => ?_
    split
    · trivial
    · refine .bind (handles_write (.delaySlot false)) fun _ => .bind (handles_consume 2) fun _ => ?_
      split
      · have spun : ∀ context : Context, Had {context}
            { context with ran := context.cycles, pc := start.pc + 4 + distance } := fun context =>
          ((Had.self context).done (.write (.ran context.cycles)) .nowhere).done
            (.write (.pc (start.pc + 4 + distance))) .nowhere
        exact .bind (handles_fire registry _ _) fun _ => handles_adjust spun
      · exact handles_write (.pc _)

/-- A store may fire behind the write. -/
theorem handles_executeStore (registry target source : Nat) :
    (executeStore registry target source : Program H Desk Unit).Handles (shelves host) seen := by
  refine .bind handles_context fun start => .bind (handles_store _ _) fun _ => ?_
  change Program.Handles _ (ite _ _ _) _
  split
  · exact .bind (handles_fire registry _ _) fun _ => handles_advance
  · exact handles_advance

/-- Every instruction handles its context. -/
theorem handles_step (registry : Nat) :
    (step registry : Program H Desk Unit).Handles (shelves host) seen := by
  refine .bind handles_fetch fun opcode => ?_
  split
  · exact handles_advance
  · have loaded : ∀ number value (context : Context), Had {context} (context.setReg number value) :=
      fun number value context =>
        (Had.self context).done (.light (.setReg number value)) .nowhere
    exact .bind (handles_adjust (loaded _ _)) fun _ => handles_advance
  · exact handles_executeStore registry _ _
  · exact handles_executeBranch registry _
  · exact .bind handles_context fun _ => trivial

/-- So does a loop of them, by induction on how many there may be. -/
theorem handles_steps (registry bound : Nat) :
    (steps registry bound : Program H Desk Unit).Handles (shelves host) seen := by
  induction bound generalizing seen with
  | zero => trivial
  | succ bound inductionHypothesis =>
    refine .bind handles_context fun start => ?_
    split
    · trivial
    · exact .bind (handles_step registry) fun _ => inductionHypothesis

end Core

/-- The small core is an executor that handles contexts. -/
theorem executorHandles_run (registry : Nat) (host : H.State → Set Context) :
    Machine.ExecutorHandles (fun _ => ∅) host (run registry) :=
  Program.Handles.bind handles_context fun _ => handles_steps registry _

end Micro

end Sh2Pair
