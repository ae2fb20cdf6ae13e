import Sh2Pair.Firing
import Sh2Pair.Proofs.Operations

/-!
# What every run keeps

A relation between worlds that holds across each single thing that can happen holds across every
run: of a fire with its whole tree of nested calls, of a program, of an executor. The relation
need not be an invariant of one world. It compares an earlier world with a later one, so it can
also say how the journal grew.

The step that needs care is a call. A fire calls the listeners that were registered when it
began, and by the time one of them is called it may have been removed. A call is therefore
judged from the world in which its fire began, and the journal tells what happened in between.
-/

namespace Sh2Pair

/-- Entries that stand for themselves: nothing but the journal changes with them. -/
def Entry.marks {ν : Type} : Entry ν → Bool
  | .returned _ => true
  | .refused _ _ _ => true
  | .turnBegan _ => true
  | .turnEnded _ _ => true
  | .stalled _ _ => true
  | .remark _ => true
  | .notified (.hosted _) _ _ => true
  | _ => false

namespace World

variable {H : Host}

/-- The world in which a fire has begun and has called nobody yet. -/
def begun (world : World H) (registry : Nat) (cpu : Cpu) (event : Event) : World H :=
  { world with fires := world.fires + 1 }.record
    (.fired world.fires registry cpu event (world.hub.roster registry cpu).listeners.length)

/-- A fire begins with the entry that counts its listeners. -/
@[simp] theorem journal_begun (world : World H) (registry : Nat) (cpu : Cpu) (event : Event) :
    (world.begun registry cpu event).journal =
      .fired world.fires registry cpu event (world.hub.roster registry cpu).listeners.length ::
        world.journal := rfl

/-- A fire begins and then calls the listeners of its snapshot, in some order. -/
theorem fire_eq (deliver : Delivery H) (arrange : Nat → List Listener → List Listener)
    (world : World H) (registry : Nat) (cpu : Cpu) (event : Event) :
    world.fire deliver arrange registry cpu event =
      Prod.map (Outcome.map fun _ => (world.hub.roster registry cpu).size) id
        (callEach deliver world.fires cpu event
          (arrange world.fires (world.hub.roster registry cpu).listeners)
          (world.begun registry cpu event)) := by
  rw [← Roster.length_listeners]
  rfl

/-- The world after a listener has been told about an event and before any outside code runs:
a detector reacts at once. -/
def told (world : World H) (listener : Listener) (cpu : Cpu) (event : Event) : World H :=
  match listener with
  | .detector number => world.signal number cpu event
  | .hosted _ => world

/-- Telling a detector only adds to the journal. -/
theorem signal_suffix (world : World H) (number : Nat) (cpu : Cpu) (event : Event) :
    world.journal <:+ (world.signal number cpu event).journal := by
  rcases world.signal_cases number cpu event with
    ⟨_, after⟩ | ⟨_, after⟩ | ⟨_, _, after⟩ | ⟨_, _, _, after⟩
  · exact after ▸ List.suffix_rfl
  · exact after ▸ List.suffix_cons ..
  · exact after ▸ List.suffix_cons ..
  · exact after ▸ (List.suffix_cons ..).trans (List.suffix_cons ..)

/-- Telling somebody adds to the journal and takes nothing away. -/
theorem told_suffix (world : World H) (listener : Listener) (cpu : Cpu) (event : Event) :
    world.journal <:+ (world.told listener cpu event).journal := by
  cases listener with
  | hosted number => exact List.suffix_rfl
  | detector number => exact world.signal_suffix number cpu event

/-- A relation between an earlier and a later world that holds across each single thing that
can happen. -/
structure Steady (keeps : World H → World H → Prop) : Prop where
  refl : ∀ world, keeps world world
  trans : ∀ {start middle finish},
    keeps start middle → keeps middle finish → keeps start finish
  /-- What happened stays in the journal. -/
  grows : ∀ {start finish}, keeps start finish → start.journal <:+ finish.journal
  host : ∀ world state, keeps world { world with host := state }
  mark : ∀ world entry, entry.marks = true → keeps world (world.record entry)
  enlist : ∀ world registry cpu name listener free,
    keeps world ((world.enlisted registry cpu name listener free).record
      (.registered registry cpu name listener))
  enlistBoth : ∀ world registry name listener free,
    keeps world ((world.enlistedBoth registry name listener free).record
      (.registeredBoth registry name listener))
  strike : ∀ world registry cpu name, (world.hub.roster registry cpu).has name = true →
    keeps world ((world.struck registry cpu name).record (.removed registry cpu name))
  furnish : ∀ world registry config free,
    keeps world (((world.enlistedBoth registry Detector.name
      (.detector world.hub.detectors.size) free).record
        (.registeredBoth registry Detector.name (.detector world.hub.detectors.size))).furnished
          registry config)
  clear : ∀ world number cpu, keeps world (world.clear number cpu)
  openRegistry : ∀ world, keeps world world.openRegistry.2
  retire : ∀ world registry, keeps world (world.retire registry)
  begin : ∀ world registry cpu event, keeps world (world.begun registry cpu event)
  /-- A detector is told outside of a fire. -/
  notify : ∀ world number cpu event,
    keeps world ((world.record (.notified (.detector number) cpu event)).signal number cpu event)
  /-- A fire that began in the world `origin` calls a listener that was registered then. -/
  call : ∀ {origin world registry cpu event listener},
    listener ∈ (origin.hub.roster registry cpu).listeners →
    (origin.begun registry cpu event).journal <:+ world.journal →
    keeps origin world →
    keeps origin
      ((world.record (.called origin.fires listener cpu event)).told listener cpu event)

/-- Telling listeners keeps to a relation from the moment at which outside code may run. -/
def DeliversWithin (keeps : World H → World H → Prop) (deliver : Delivery H) : Prop :=
  ∀ listener cpu event world,
    keeps (world.told listener cpu event) (deliver listener cpu event world).2

namespace Steady

variable {keeps : World H → World H → Prop} (steady : Steady keeps)

include steady

/-- One more entry that stands for itself changes nothing for a relation. -/
theorem marked {start finish : World H} (kept : keeps start finish) {entry : Entry H.Note}
    (mark : entry.marks = true) : keeps start (finish.record entry) :=
  steady.trans kept (steady.mark finish entry mark)

/-- A registration keeps what every step keeps. -/
theorem register (world : World H) (registry : Nat) (cpu : Cpu) (name : String)
    (listener : Listener) : keeps world (world.register registry cpu name listener).2 := by
  cases free : (world.hub.roster registry cpu).has name with
  | false =>
    rw [world.register_free listener free]
    exact steady.enlist ..
  | true =>
    rw [world.register_used listener free]
    exact steady.mark _ _ rfl

/-- A registration for both processors keeps what every step keeps. -/
theorem registerBoth (world : World H) (registry : Nat) (name : String) (listener : Listener) :
    keeps world (world.registerBoth registry name listener).2 := by
  rcases world.registerBoth_cases registry name listener with ⟨free, added⟩ | ⟨cpu, _, refused⟩
  · rw [added]
    exact steady.enlistBoth ..
  · rw [refused]
    exact steady.mark _ _ rfl

/-- A removal keeps what every step keeps. -/
theorem remove (world : World H) (registry : Nat) (cpu : Cpu) (name : String) :
    keeps world (world.remove registry cpu name).2 := by
  cases used : (world.hub.roster registry cpu).has name with
  | false =>
    rw [world.remove_free used]
    exact steady.refl world
  | true =>
    rw [world.remove_used used]
    exact steady.strike _ _ _ _ used

/-- A removal for both processors keeps what every step keeps. -/
theorem removeBoth (world : World H) (registry : Nat) (name : String) :
    keeps world (world.removeBoth registry name).2 :=
  steady.trans (steady.remove world registry .master name) (steady.remove _ registry .slave name)

/-- Attaching a detector keeps what every step keeps. -/
theorem attach (world : World H) (registry : Nat) (config : PollConfig) :
    keeps world (world.attach registry config).2 := by
  rcases world.attach_cases registry config with ⟨free, made⟩ | ⟨cpu, _, refused⟩
  · rw [made]
    exact steady.furnish ..
  · rw [refused]
    exact steady.mark _ _ rfl

/-- What one call of a fire comes to, with everything that happens inside it. The beginning of the
fire stays in the journal, since a call only adds to it. -/
theorem called {deliver : Delivery H} (delivered : DeliversWithin keeps deliver)
    {origin world : World H} {registry : Nat} {cpu : Cpu} {event : Event} {listener : Listener}
    (member : listener ∈ (origin.hub.roster registry cpu).listeners)
    (since : (origin.begun registry cpu event).journal <:+ world.journal)
    (kept : keeps origin world) :
    keeps origin (deliver listener cpu event
      (world.record (.called origin.fires listener cpu event))).2 ∧
    (origin.begun registry cpu event).journal <:+ (deliver listener cpu event
      (world.record (.called origin.fires listener cpu event))).2.journal := by
  have called : keeps origin
      ((world.record (.called origin.fires listener cpu event)).told listener cpu event) :=
    steady.call member since kept
  have ran :
      keeps ((world.record (.called origin.fires listener cpu event)).told listener cpu event)
        (deliver listener cpu event (world.record (.called origin.fires listener cpu event))).2 :=
    delivered listener cpu event
      (world.record (.called origin.fires listener cpu event))
  have telling : world.journal <:+ ((world.record (.called origin.fires listener cpu event)).told
      listener cpu event).journal :=
    (List.suffix_cons (Entry.called origin.fires listener cpu event) world.journal).trans
      (told_suffix (world.record _) listener cpu event)
  exact ⟨steady.trans called ran, (since.trans telling).trans (steady.grows ran)⟩

/-- A fire calls listeners of its snapshot only, so what holds across each call holds across the
fire. The induction is on the listeners still to be called. It carries that the journal still
contains the beginning of the fire, which nested fires cannot change. -/
theorem callEach {deliver : Delivery H} (delivered : DeliversWithin keeps deliver)
    {origin world : World H} {registry : Nat} {cpu : Cpu} {event : Event}
    (pending : List Listener)
    (snapshot : ∀ listener ∈ pending, listener ∈ (origin.hub.roster registry cpu).listeners)
    (since : (origin.begun registry cpu event).journal <:+ world.journal)
    (kept : keeps origin world) :
    keeps origin (World.callEach deliver origin.fires cpu event pending world).2 := by
  induction pending generalizing world with
  | nil => exact kept
  | cons listener later inductionHypothesis =>
    obtain ⟨reached, still⟩ :=
      steady.called delivered (snapshot listener (List.mem_cons_self ..)) since kept
    simp only [World.callEach]
    generalize deliver listener cpu event
      (world.record (.called origin.fires listener cpu event)) = result at reached still ⊢
    obtain ⟨outcome, after⟩ := result
    cases outcome with
    | done value =>
      exact inductionHypothesis (fun other inside => snapshot other (List.mem_cons_of_mem _ inside))
        (still.trans (List.suffix_cons ..)) (steady.marked reached rfl)
    | panicked cause => exact reached
    | exhausted => exact reached

end Steady

section Runs

variable {keeps : World H → World H → Prop} (steady : Steady keeps) {deliver : Delivery H}
  (delivered : DeliversWithin keeps deliver) {arrange : Nat → List Listener → List Listener}
  (permuted : ∀ fire listeners, (arrange fire listeners).Perm listeners)

include steady delivered permuted

/-- What holds across each single thing holds across a fire. -/
theorem Steady.fire (world : World H) (registry : Nat) (cpu : Cpu) (event : Event) :
    keeps world (world.fire deliver arrange registry cpu event).2 := by
  have snapshot : ∀ listener ∈ arrange world.fires (world.hub.roster registry cpu).listeners,
      listener ∈ (world.hub.roster registry cpu).listeners :=
    fun listener inside => (permuted _ _).mem_iff.mp inside
  exact steady.callEach delivered _ snapshot List.suffix_rfl (steady.begin world registry cpu event)

/-- A fire for both processors keeps what every step keeps. -/
theorem Steady.fireBoth (world : World H) (registry : Nat) (event : Event) :
    keeps world (world.fireBoth deliver arrange registry event).2 := by
  have first : keeps world (world.fire deliver arrange registry Cpu.master event).2 :=
    steady.fire delivered permuted world registry .master event
  simp only [World.fireBoth]
  generalize world.fire deliver arrange registry .master event = result at first ⊢
  obtain ⟨outcome, middle⟩ := result
  cases outcome with
  | done count =>
    exact steady.trans first (steady.fire delivered permuted middle registry .slave event)
  | panicked cause => exact first
  | exhausted => exact first

/-- What holds across each single thing holds across the answer to any request.

Proof: one case per request. A fire is the calls it makes, and every other request is a single step,
or two of them for both processors. -/
theorem Steady.answer (world : World H) (wanted : Request) :
    keeps world (world.answer deliver arrange wanted).2 := by
  cases wanted with
  | register registry cpu name listener => exact steady.register world registry cpu name listener
  | registerBoth registry name listener => exact steady.registerBoth world registry name listener
  | remove registry cpu name => exact steady.remove world registry cpu name
  | removeBoth registry name => exact steady.removeBoth world registry name
  | fire registry cpu event => exact steady.fire delivered permuted world registry cpu event
  | fireBoth registry event => exact steady.fireBoth delivered permuted world registry event
  | notify listener cpu event =>
    have ran : keeps ((world.record (.notified listener cpu event)).told listener cpu event)
        (deliver listener cpu event (world.record (.notified listener cpu event))).2 :=
      delivered listener cpu event (world.record (.notified listener cpu event))
    refine steady.trans ?_ ran
    cases listener with
    | detector number => exact steady.notify world number cpu event
    | hosted number => exact steady.mark world _ rfl
  | attach registry config => exact steady.attach world registry config
  | clear detector cpu => exact steady.clear world detector cpu
  | openRegistry => exact steady.openRegistry world
  | retire registry => exact steady.retire world registry
  | survey => exact steady.refl world

/-- What holds across each single thing holds across a run of any program, also one that
panics.

Proof: by induction on the program. Requests are the only steps that do more than a single thing. -/
theorem Steady.program {σ α : Type} (program : Program H σ α) (state : σ) (world : World H) :
    keeps world (program.run deliver arrange state world).2.2 := by
  induction program generalizing state world with
  | ret value => exact steady.refl world
  | panic cause => exact steady.refl world
  | look next inductionHypothesis => exact inductionHypothesis state state world
  | change f next inductionHypothesis => exact inductionHypothesis (f state) world
  | ask next inductionHypothesis => exact inductionHypothesis world.host state world
  | alter f next inductionHypothesis =>
    exact steady.trans (steady.host world (f world.host)) (inductionHypothesis state _)
  | remark content next inductionHypothesis =>
    exact steady.trans (steady.mark world _ rfl) (inductionHypothesis state _)
  | request wanted next inductionHypothesis =>
    have answered : keeps world (world.answer deliver arrange wanted).2 :=
      steady.answer delivered permuted world wanted
    simp only [Program.run]
    generalize world.answer deliver arrange wanted = result at answered ⊢
    obtain ⟨outcome, middle⟩ := result
    cases outcome with
    | done reply => exact steady.trans answered (inductionHypothesis reply state middle)
    | panicked cause => exact answered
    | exhausted => exact answered

end Runs

namespace Steady

variable {keeps : World H → World H → Prop} (steady : Steady keeps) (setting : Setting H)

include steady

/-- Telling a listener keeps to a relation at every depth: an outside listener runs a program
whose calls go one level less deep. -/
theorem deliver (depth : Nat) : DeliversWithin keeps (setting.deliver depth) := by
  induction depth with
  | zero =>
    intro listener cpu event world
    cases listener with
    | detector number => exact steady.refl _
    | hosted number => exact steady.refl _
  | succ depth inductionHypothesis =>
    intro listener cpu event world
    cases listener with
    | detector number => exact steady.refl _
    | hosted number =>
      exact steady.program inductionHypothesis setting.arrange_perm
        (setting.behave number cpu event) () world

/-- What holds across each single thing holds across a run in a setting. -/
theorem run {σ α : Type} (depth : Nat) (program : Program H σ α) (state : σ) (world : World H) :
    keeps world (setting.run depth program state world).2.2 :=
  steady.program (steady.deliver setting depth) setting.arrange_perm program state world

end Steady

end World

end Sh2Pair
