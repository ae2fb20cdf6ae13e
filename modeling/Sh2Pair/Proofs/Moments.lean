import Sh2Pair.Proofs.Course

/-!
# The moments of a run

A run passes through many worlds before it ends. Its moments are those in which something is about
to be decided: a program is in control and may ask for anything, or a fire is about to call the next
listener. The calls of a fire contribute the moments of the programs behind them, to whatever
depth, and a course contributes those of its programs and of the turns that are executed. Nothing
touches a registry between two moments but the one thing that the first of them decides.

What is steady holds up to each moment of a course, and not only up to its end.
-/

namespace Sh2Pair

variable {H : Host}

/-- The moments of telling a listener about an event. -/
abbrev Passage (H : Host) := Listener → Cpu → Event → World H → List (World H)

namespace World

/-- The moments of the calls of a fire, up to the first call that does not come back. -/
def callMoments (deliver : Delivery H) (passage : Passage H) (fire : Nat) (cpu : Cpu)
    (event : Event) : List Listener → World H → List (World H)
  | [], _ => []
  | listener :: later, world =>
    let calling := world.record (.called fire listener cpu event)
    let rest :=
      match deliver listener cpu event calling with
      | (.done (), after) =>
        callMoments deliver passage fire cpu event later (after.record (.returned fire))
      | _ => []
    world :: passage listener cpu event calling ++ rest

/-- The moments of a fire. -/
def fireMoments (deliver : Delivery H) (passage : Passage H)
    (arrange : Nat → List Listener → List Listener) (world : World H) (registry : Nat)
    (cpu : Cpu) (event : Event) : List (World H) :=
  callMoments deliver passage world.fires cpu event
    (arrange world.fires (world.hub.roster registry cpu).listeners)
    (world.begun registry cpu event)

/-- The moments inside the answer to a request. -/
def answerMoments (deliver : Delivery H) (passage : Passage H)
    (arrange : Nat → List Listener → List Listener) (world : World H) : Request → List (World H)
  | .fire registry cpu event => world.fireMoments deliver passage arrange registry cpu event
  | .fireBoth registry event =>
    let rest :=
      match world.fire deliver arrange registry .master event with
      | (.done _, middle) => middle.fireMoments deliver passage arrange registry .slave event
      | _ => []
    world.fireMoments deliver passage arrange registry .master event ++ rest
  | .notify listener cpu event =>
    passage listener cpu event (world.record (.notified listener cpu event))
  | _ => []

end World

/-- The moments of a run of a program. -/
def Program.moments {σ α : Type} (deliver : Delivery H) (passage : Passage H)
    (arrange : Nat → List Listener → List Listener) :
    Program H σ α → σ → World H → List (World H)
  | .ret _, _, world => [world]
  | .panic _, _, world => [world]
  | .look next, state, world => (next state).moments deliver passage arrange state world
  | .change f next, state, world => next.moments deliver passage arrange (f state) world
  | .ask next, state, world => (next world.host).moments deliver passage arrange state world
  | .alter f next, state, world =>
    next.moments deliver passage arrange state { world with host := f world.host }
  | .remark content next, state, world =>
    next.moments deliver passage arrange state (world.record (.remark content))
  | .request wanted next, state, world =>
    let rest :=
      match world.answer deliver arrange wanted with
      | (.done reply, after) => (next reply).moments deliver passage arrange state after
      | (_, after) => [after]
    world :: world.answerMoments deliver passage arrange wanted ++ rest

/-- The moments of telling a listener, with calls nesting to a depth at most. A detector reacts at
once, and an outside listener runs its program. -/
def Setting.passage (setting : Setting H) : Nat → Passage H
  | 0, _, _, _, _ => []
  | depth + 1, listener, cpu, event, world =>
    match listener with
    | .detector _ => []
    | .hosted number =>
      (setting.behave number cpu event).moments (setting.deliver depth) (setting.passage depth)
        setting.arrange () world

/-- The moments of a run of a program, with calls nesting to a depth at most. -/
def Setting.moments (setting : Setting H) (depth : Nat) {σ α : Type} (program : Program H σ α)
    (state : σ) (world : World H) : List (World H) :=
  program.moments (setting.deliver depth) (setting.passage depth) setting.arrange state world

namespace Machine

variable {ε : Type} (setting : Setting H) (depth : Nat)

/-- The moments of a turn, which has none if it is passed over. -/
def turnMoments (executor : Executor H ε) (machine : Machine H ε) (cpu : Cpu) : List (World H) :=
  let machine := machine.grant cpu
  if machine.skips cpu then []
  else setting.moments depth executor (machine.contexts.get cpu, machine.rig)
    (machine.world.record (.turnBegan cpu))

/-- The moments of a slice. -/
def sliceMoments (executor : Executor H ε) (machine : Machine H ε) : List (World H) :=
  match machine.misplaced? with
  | some _ => []
  | none =>
    let first := machine.scheduler.config.firstCpu
    let rest :=
      match machine.turn setting depth executor first with
      | (.done _, middle) => middle.turnMoments setting depth executor first.other
      | _ => []
    machine.turnMoments setting depth executor first ++ rest

/-- The moments of a move. -/
def moveMoments (machine : Machine H ε) : Move H ε → List (World H)
  | .act program => setting.moments depth program () machine.world
  | .place _ _ => []
  | .slice executor => machine.sliceMoments setting depth executor

/-- The moments of a course: those of its moves, and its end. -/
def moments : List (Move H ε) → Machine H ε → List (World H)
  | [], machine => [machine.world]
  | next :: later, machine =>
    machine.moveMoments setting depth next ++ moments later (machine.move setting depth next)

/-- The last moment of a course is its end. -/
theorem play_mem_moments (moves : List (Move H ε)) (machine : Machine H ε) :
    (machine.play setting depth moves).world ∈ machine.moments setting depth moves := by
  induction moves generalizing machine with
  | nil => simp [play, moments]
  | cons next later inductionHypothesis =>
    exact List.mem_append_right _ (inductionHypothesis _)

end Machine

namespace World

/-- Telling listeners keeps to a relation up to each moment inside, from the moment at which
outside code may run. -/
def PassageWithin (keeps : World H → World H → Prop) (passage : Passage H) : Prop :=
  ∀ listener cpu event world, ∀ moment ∈ passage listener cpu event world,
    keeps (world.told listener cpu event) moment

section Runs

variable {keeps : World H → World H → Prop} (steady : Steady keeps) {deliver : Delivery H}
  (delivered : DeliversWithin keeps deliver) {passage : Passage H}
  (passed : PassageWithin keeps passage)

include steady delivered passed

/-- What is steady holds up to each moment of the calls of a fire. The induction is on the listeners
still to be called, as for the end of the calls. -/
theorem Steady.callMoments {origin world : World H} {registry : Nat} {cpu : Cpu} {event : Event}
    (pending : List Listener)
    (snapshot : ∀ listener ∈ pending, listener ∈ (origin.hub.roster registry cpu).listeners)
    (since : (origin.begun registry cpu event).journal <:+ world.journal)
    (kept : keeps origin world) :
    ∀ moment ∈ World.callMoments deliver passage origin.fires cpu event pending world,
      keeps origin moment := by
  induction pending generalizing world with
  | nil =>
    intro moment inside
    cases inside
  | cons listener later inductionHypothesis =>
    have member : listener ∈ (origin.hub.roster registry cpu).listeners :=
      snapshot listener (List.mem_cons_self ..)
    obtain ⟨reached, still⟩ := steady.called delivered member since kept
    intro moment inside
    simp only [World.callMoments, List.cons_append, List.mem_cons, List.mem_append] at inside
    rcases inside with rfl | within | after
    · exact kept
    · exact steady.trans (steady.call member since kept) (passed listener cpu event _ moment within)
    · generalize deliver listener cpu event
        (world.record (.called origin.fires listener cpu event)) = result at reached still after
      obtain ⟨outcome, returned⟩ := result
      cases outcome with
      | done value =>
        exact inductionHypothesis
          (fun other inside => snapshot other (List.mem_cons_of_mem _ inside))
          (still.trans (List.suffix_cons ..)) (steady.marked reached rfl) moment after
      | panicked cause => cases after
      | exhausted => cases after

variable {arrange : Nat → List Listener → List Listener}
  (permuted : ∀ fire listeners, (arrange fire listeners).Perm listeners)

include permuted

/-- Whatever is kept by each step is kept at every moment of a fire. -/
theorem Steady.fireMoments (world : World H) (registry : Nat) (cpu : Cpu) (event : Event) :
    ∀ moment ∈ world.fireMoments deliver passage arrange registry cpu event,
      keeps world moment := by
  have snapshot : ∀ listener ∈ arrange world.fires (world.hub.roster registry cpu).listeners,
      listener ∈ (world.hub.roster registry cpu).listeners :=
    fun listener inside => (permuted _ _).mem_iff.mp inside
  exact steady.callMoments delivered passed _ snapshot List.suffix_rfl
    (steady.begin world registry cpu event)

/-- Whatever is kept by each step is kept at every moment of an answer.

Proof: one case per request. Only fires and notifications have moments, which are those of the calls
they make. -/
theorem Steady.answerMoments (world : World H) (wanted : Request) :
    ∀ moment ∈ world.answerMoments deliver passage arrange wanted, keeps world moment := by
  intro moment inside
  cases wanted with
  | fire registry cpu event =>
    exact steady.fireMoments delivered passed permuted world registry cpu event moment inside
  | fireBoth registry event =>
    rcases List.mem_append.mp inside with first | rest
    · exact steady.fireMoments delivered passed permuted world registry .master event moment first
    · have fired : keeps world (world.fire deliver arrange registry Cpu.master event).2 :=
        steady.fire delivered permuted world registry .master event
      generalize world.fire deliver arrange registry .master event = result at fired rest
      obtain ⟨outcome, middle⟩ := result
      cases outcome with
      | done count =>
        exact steady.trans fired (steady.fireMoments delivered passed permuted middle registry
          .slave event moment rest)
      | panicked cause => cases rest
      | exhausted => cases rest
  | notify listener cpu event =>
    refine steady.trans ?_ (passed listener cpu event _ moment inside)
    cases listener with
    | detector number => exact steady.notify world number cpu event
    | hosted number => exact steady.mark world _ rfl
  | _ => cases inside

/-- What is steady holds up to each moment of a run of a program.

Proof: by induction on the program. The moments of a request lie between the world in front of it
and the one that its answer leaves, from where the induction goes on. -/
theorem Steady.programMoments {σ α : Type} (program : Program H σ α) (state : σ)
    (world : World H) :
    ∀ moment ∈ program.moments deliver passage arrange state world, keeps world moment := by
  induction program generalizing state world with
  | ret value =>
    intro moment inside
    exact List.mem_singleton.mp inside ▸ steady.refl world
  | panic cause =>
    intro moment inside
    exact List.mem_singleton.mp inside ▸ steady.refl world
  | look next inductionHypothesis => exact inductionHypothesis state state world
  | change f next inductionHypothesis => exact inductionHypothesis (f state) world
  | ask next inductionHypothesis => exact inductionHypothesis world.host state world
  | alter f next inductionHypothesis =>
    intro moment inside
    exact steady.trans (steady.host world _) (inductionHypothesis state _ moment inside)
  | remark content next inductionHypothesis =>
    intro moment inside
    exact steady.trans (steady.mark world _ rfl) (inductionHypothesis state _ moment inside)
  | request wanted next inductionHypothesis =>
    intro moment inside
    simp only [Program.moments, List.cons_append, List.mem_cons, List.mem_append] at inside
    rcases inside with rfl | within | rest
    · exact steady.refl moment
    · exact steady.answerMoments delivered passed permuted world wanted moment within
    · have answered : keeps world (world.answer deliver arrange wanted).2 :=
        steady.answer delivered permuted world wanted
      generalize world.answer deliver arrange wanted = result at answered rest
      obtain ⟨outcome, middle⟩ := result
      cases outcome with
      | done reply =>
        exact steady.trans answered (inductionHypothesis reply state middle moment rest)
      | panicked cause => exact List.mem_singleton.mp rest ▸ answered
      | exhausted => exact List.mem_singleton.mp rest ▸ answered

end Runs

namespace Steady

variable {keeps : World H → World H → Prop} (steady : Steady keeps) (setting : Setting H)

include steady

/-- What is steady holds up to each moment of telling a listener, at every depth. -/
theorem passage (depth : Nat) : PassageWithin keeps (setting.passage depth) := by
  induction depth with
  | zero =>
    intro listener cpu event world moment inside
    cases inside
  | succ depth inductionHypothesis =>
    intro listener cpu event world moment inside
    cases listener with
    | detector number => cases inside
    | hosted number =>
      exact steady.programMoments (steady.deliver setting depth) inductionHypothesis
        setting.arrange_perm (setting.behave number cpu event) () world moment inside

/-- What is steady holds up to each moment of a run in a setting. -/
theorem moments {σ α : Type} (depth : Nat) (program : Program H σ α) (state : σ)
    (world : World H) : ∀ moment ∈ setting.moments depth program state world, keeps world moment :=
  steady.programMoments (steady.deliver setting depth) (steady.passage setting depth)
    setting.arrange_perm program state world

end Steady

end World

namespace Machine.Follows

variable {ε : Type} {keeps : World H → World H → Prop} (steady : World.Steady keeps)
  (setting : Setting H) (depth : Nat) (executor : Executor H ε) (machine : Machine H ε)

include steady

/-- Whatever is kept by each step is kept at every moment of a turn. -/
theorem turnMoments (cpu : Cpu) :
    ∀ moment ∈ machine.turnMoments setting depth executor cpu, keeps machine.world moment := by
  intro moment inside
  simp only [Machine.turnMoments] at inside
  split at inside
  · cases inside
  · exact steady.trans (steady.mark machine.world (.turnBegan cpu) rfl)
      (steady.moments setting depth executor _ _ moment inside)

/-- Whatever is kept by each step is kept at every moment of a slice, if it is kept by passing over
a turn.

Proof: the moments of a slice are those of its first turn and, if that completes, those of the
second one. -/
theorem sliceMoments (passes : PassesWithin keeps machine.scheduler.terms) :
    ∀ moment ∈ machine.sliceMoments setting depth executor, keeps machine.world moment := by
  intro moment inside
  simp only [Machine.sliceMoments] at inside
  cases placed : machine.misplaced? with
  | some misplaced =>
    rw [placed] at inside
    cases inside
  | none =>
    rw [placed] at inside
    rcases List.mem_append.mp inside with first | rest
    · exact turnMoments steady setting depth executor machine _ moment first
    · have turned : Follows keeps machine
          (machine.turn setting depth executor machine.scheduler.config.firstCpu).2 :=
        turn steady setting depth executor machine passes
          machine.scheduler.config.firstCpu
      generalize machine.turn setting depth executor machine.scheduler.config.firstCpu = result
        at turned rest
      obtain ⟨outcome, middle⟩ := result
      cases outcome with
      | done firstTurn =>
        exact steady.trans turned.kept
          (turnMoments steady setting depth executor middle _ moment rest)
      | panicked cause => cases rest
      | exhausted => cases rest

/-- What is steady holds up to each moment of a course. -/
theorem moments (moves : List (Move H ε)) (passes : PassesWithin keeps machine.scheduler.terms) :
    ∀ moment ∈ machine.moments setting depth moves, keeps machine.world moment := by
  induction moves generalizing machine with
  | nil =>
    intro moment inside
    exact List.mem_singleton.mp inside ▸ steady.refl machine.world
  | cons next later inductionHypothesis =>
    intro moment inside
    rcases List.mem_append.mp inside with now | afterwards
    · cases next with
      | act program => exact steady.moments setting depth program () machine.world moment now
      | place contexts rig => cases now
      | slice executor =>
        exact sliceMoments steady setting depth executor machine passes moment now
    · have moved : Follows keeps machine (machine.move setting depth next) :=
        move steady setting depth machine passes next
      exact steady.trans moved.kept
        (inductionHypothesis _ (moved.terms ▸ passes) moment afterwards)

end Machine.Follows

end Sh2Pair
