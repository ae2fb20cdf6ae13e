import Sh2Pair.Proofs.Budget

/-!
# What a run asks for

The requests of a run are those that the program itself makes, in order. What the listeners ask for
when they are called is not among them. The small core asks for fires only, one for each instruction
that announces something, so its requests are the events that it fires.

A run of the core goes on instruction by instruction as long as cycles are left. The bound of its
loop does not show in this, neither in what it comes to nor in what it asks for.
-/

namespace Sh2Pair

variable {H : Host}

namespace Program

variable {σ α β : Type} (deliver : Delivery H) (arrange : Nat → List Listener → List Listener)

/-- What a program asks for when it runs, in order. -/
def requests : Program H σ α → σ → World H → List Request
  | .ret _, _, _ => []
  | .panic _, _, _ => []
  | .look next, state, world => (next state).requests state world
  | .change f next, state, world => next.requests (f state) world
  | .ask next, state, world => (next world.host).requests state world
  | .alter f next, state, world => next.requests state { world with host := f world.host }
  | .remark content next, state, world => next.requests state (world.record (.remark content))
  | .request wanted next, state, world =>
    wanted ::
      match world.answer deliver arrange wanted with
      | (.done reply, world) => (next reply).requests state world
      | _ => []

variable {deliver arrange}

/-- What goes on after a program asks for something only if the program comes back.

Proof: by induction on the first program. If it does not come back, the second one does not begin.
-/
theorem requests_bind (program : Program H σ α) (rest : α → Program H σ β) (state : σ)
    (world : World H) :
    (program.bind rest).requests deliver arrange state world =
      program.requests deliver arrange state world ++
        match program.run deliver arrange state world with
        | (.done value, reached) => (rest value).requests deliver arrange reached.1 reached.2
        | _ => [] := by
  induction program generalizing state world with
  | ret value => rfl
  | panic cause => rfl
  | look next inductionHypothesis => exact inductionHypothesis state state world
  | change f next inductionHypothesis => exact inductionHypothesis (f state) world
  | ask next inductionHypothesis => exact inductionHypothesis world.host state world
  | alter f next inductionHypothesis => exact inductionHypothesis state _
  | remark content next inductionHypothesis => exact inductionHypothesis state _
  | request wanted next inductionHypothesis =>
    simp only [bind, requests, run]
    cases world.answer deliver arrange wanted with
    | mk outcome world =>
    cases outcome with
    | done reply => exact congrArg (wanted :: ·) (inductionHypothesis reply state world)
    | panicked cause => rfl
    | exhausted => rfl

/-- A program that makes no request is followed by the requests of what goes on. -/
theorem requests_bind_of_done {program : Program H σ α} {rest : α → Program H σ β} {state : σ}
    {world : World H} {value : α} {reached : σ × World H}
    (ran : program.run deliver arrange state world = (.done value, reached))
    (silent : program.requests deliver arrange state world = []) :
    (program.bind rest).requests deliver arrange state world =
      (rest value).requests deliver arrange reached.1 reached.2 := by
  rw [requests_bind, ran, silent]
  rfl

/-- If what goes on after a program makes no request, the program makes all of them. -/
theorem requests_bind_of_silent (program : Program H σ α) {rest : α → Program H σ β}
    (silent : ∀ value state world, (rest value).requests deliver arrange state world = [])
    (state : σ) (world : World H) :
    (program.bind rest).requests deliver arrange state world =
      program.requests deliver arrange state world := by
  rw [requests_bind]
  cases program.run deliver arrange state world with
  | mk outcome reached =>
  cases outcome with
  | done value =>
    dsimp only
    rw [silent, List.append_nil]
  | panicked cause => exact List.append_nil _
  | exhausted => exact List.append_nil _

end Program

/-- What a program asks for when it runs in a setting, with calls nesting to a depth at most. -/
def Setting.requests (setting : Setting H) (depth : Nat) {σ α : Type} (program : Program H σ α)
    (state : σ) (world : World H) : List Request :=
  program.requests (setting.deliver depth) setting.arrange state world

namespace Micro

section Instructions

variable {deliver : Delivery H} {arrange : Nat → List Listener → List Listener} {registry : Nat}
  {context : Context} {bus : Bus Ram}

/-- Stepping over an instruction makes no request. -/
theorem requests_stepOver (desk : Desk) (world : World H) :
    (stepOver : Program H Desk Unit).requests deliver arrange desk world = [] := by
  refine (Program.requests_bind_of_done context_run rfl).trans ?_
  dsimp only
  split
  · rfl
  · rfl

/-- Consuming cycles makes no request. -/
theorem requests_consume (cycles : Int32) (desk : Desk) (world : World H) :
    (consume cycles : Program H Desk Unit).requests deliver arrange desk world = [] := by
  refine (Program.requests_bind_of_done context_run rfl).trans ?_
  dsimp only
  split
  · rfl
  · rfl

/-- Going on to the next instruction makes no request. -/
theorem requests_advance (desk : Desk) (world : World H) :
    (stepOver.bind fun _ => consume 1 : Program H Desk Unit).requests deliver arrange desk world =
      [] :=
  (Program.requests_bind_of_silent stepOver (fun _ => requests_consume 1) desk world).trans
    (requests_stepOver desk world)

/-- A fire is asked for once, whatever it comes to. -/
theorem requests_fire {cpu : Cpu} {event : Event} {rest : Nat → Program H Desk Unit}
    (silent : ∀ count desk (world : World H),
      (rest count).requests deliver arrange desk world = []) (desk : Desk) (world : World H) :
    ((Program.fire registry cpu event : Program H Desk Nat).bind rest).requests deliver arrange desk
      world = [.fire registry cpu event] := by
  refine (Program.requests_bind_of_silent _ silent desk world).trans ?_
  change Program.requests deliver arrange
    (.request (.fire registry cpu event) fun count => .ret count : Program H Desk Nat) _ _ = _
  simp only [Program.requests]
  split
  · rfl
  · rfl

/-- The requests of an instruction that announces something, or nothing. -/
def told (registry : Nat) (announced : Option (Cpu × Event)) : List Request :=
  announced.toList.map fun told => .fire registry told.1 told.2

/-- A store makes no request. -/
theorem requests_store (address value : UInt32) (desk : Desk) (world : World H) :
    (store address value : Program H Desk Unit).requests deliver arrange desk world = [] := by
  change Program.requests deliver arrange (ite _ _ _) _ _ = _
  split
  · rfl
  · rfl

/-- An instruction that stores requests a fire exactly if it stores at the port. -/
theorem requests_executeStore (target source : Nat) (world : World H) :
    (executeStore registry target source : Program H Desk Unit).requests deliver arrange
        (context, bus) world =
      told registry
        (if context.reg target = commAddress then some (context.cpu.other, .comm) else none) := by
  let stride := Stride.pass context.pc (some (context.reg target, context.reg source)) none context
  refine (Program.requests_bind_of_done context_run rfl).trans ?_
  refine (Program.requests_bind_of_done (store_run stride rfl) (requests_store ..)).trans ?_
  change Program.requests _ _ (ite (context.reg target = commAddress) _ _) _ _ = _
  by_cases port : context.reg target = commAddress
  · rw [if_pos port, if_pos port]
    exact requests_fire (fun _ => requests_advance) _ _
  · rw [if_neg port, if_neg port]
    exact requests_advance _ _

/-- A branch whose slot is idle asks for a fire if it goes to itself and there is room for its
cycles. -/
theorem requests_jump (context : Context) (fetched : List UInt32) (target : UInt32)
    (world : World H) :
    ((consume 2).bind fun _ =>
      if target = context.pc then
        (Program.fire registry context.cpu .startPolling).bind fun _ =>
          adjust fun context => { context with ran := context.cycles, pc := target }
      else adjust ({ · with pc := target }) : Program H Desk Unit).requests deliver arrange
        (context, bus) world =
      told registry (Stride.jump fetched target context).announced := by
  cases spent : Cycles.checkedAdd? context.ran 2 with
  | none =>
    rw [Program.requests_bind, consume_overflows spent, requests_consume]
    simp only [Stride.jump, spent]
    rfl
  | some ran =>
    refine (Program.requests_bind_of_done (consume_run spent) (requests_consume ..)).trans ?_
    simp only [Stride.jump, spent]
    by_cases loops : target = context.pc
    · rw [if_pos loops, if_pos loops]
      exact requests_fire (fun _ _ _ => rfl) _ _
    · rw [if_neg loops, if_neg loops]
      rfl

/-- A branch requests a fire exactly if it is a branch to itself that could be carried out. -/
theorem requests_executeBranch (distance : UInt32) (world : World H) :
    (executeBranch registry distance : Program H Desk Unit).requests deliver arrange (context, bus)
        world =
      match following? context.pc with
      | none => []
      | some slot =>
        let taken := slotting context (context.pc + 4 + distance) (word bus slot)
        if word bus slot = idleOpcode then
          told registry (Stride.jump [context.pc, slot] (context.pc + 4 + distance)
            { taken with delaySlot := false }).announced
        else [] := by
  refine (Program.requests_bind_of_done context_run rfl).trans ?_
  dsimp only
  cases next : following? context.pc with
  | none => rfl
  | some slot =>
    change Program.requests _ _ ((fetchSlot slot).bind _ : Program H Desk Unit)
      ({ context with delayPc := context.pc + 4 + distance, delaySlot := true }, bus) world = _
    refine (Program.requests_bind_of_done (fetchSlot_run _) rfl).trans ?_
    dsimp only
    by_cases idle : word bus slot = idleOpcode
    · rw [if_neg (not_not.mpr idle), if_pos idle]
      exact requests_jump { slotting context (context.pc + 4 + distance) (word bus slot) with
        delaySlot := false } [context.pc, slot] (context.pc + 4 + distance) _
    · rw [if_pos idle, if_neg idle]
      rfl

/-- An instruction asks for what its stride announces.

Proof: one case per instruction. Only a store and a branch to itself ask for anything. -/
theorem requests_step (world : World H) :
    (step registry : Program H Desk Unit).requests deliver arrange (context, bus) world =
      told registry (stride (word bus) context).announced := by
  refine (Program.requests_bind_of_done fetch_run rfl).trans ?_
  simp only [stride]
  cases decoded : decode (word bus context.pc) with
  | idle => exact requests_advance _ _
  | load register value => exact requests_advance _ _
  | store target source => exact requests_executeStore target source _
  | branch distance =>
    refine (requests_executeBranch distance _).trans ?_
    change (match following? context.pc with | none => _ | some slot => _) = _
    cases next : following? context.pc with
    | none => rfl
    | some slot =>
      dsimp only
      by_cases idle : word bus slot = idleOpcode
      · rw [if_pos idle, if_pos idle]
        rfl
      · rw [if_neg idle, if_neg idle]
        rfl
  | unknown => rfl

end Instructions

section Runs

variable (setting : Setting H) (depth registry : Nat) (desk : Desk) (world : World H)

/-- A loop asks for what its instructions ask for, one after the other.

Proof: by induction on the bound. The loop goes on only if the instruction comes back. -/
theorem requests_steps (bound : Nat) :
    setting.requests depth (steps registry bound) desk world =
      (executed setting depth registry bound desk world).flatMap fun moment =>
        setting.requests depth (step registry) moment.1 moment.2 := by
  induction bound generalizing desk world with
  | zero => rfl
  | succ bound inductionHypothesis =>
    change Program.requests _ _ (ite (desk.1.left.toInt ≤ 0) _ _) _ _ = _
    rw [executed]
    by_cases spent : desk.1.left.toInt ≤ 0
    · rw [if_pos spent, if_pos spent]
      rfl
    · rw [if_neg spent, if_neg spent, List.flatMap_cons]
      refine (Program.requests_bind ..).trans (congrArg (_ ++ ·) ?_)
      simp only [Setting.run]
      cases (step registry).run (setting.deliver depth) setting.arrange desk world with
      | mk outcome reached =>
      cases outcome with
      | done value => exact inductionHypothesis reached.1 reached.2
      | panicked cause => rfl
      | exhausted => rfl

/-- A run requests what its instructions request, one after the other. -/
theorem requests_run : setting.requests depth (run registry) desk world =
    (instructions setting depth registry desk world).flatMap fun moment =>
      setting.requests depth (step registry) moment.1 moment.2 :=
  (Program.requests_bind_of_done context_run rfl).trans (requests_steps ..)

/-- A run that finds nothing left is over. -/
theorem run_of_spent (spent : desk.1.cycles.toInt ≤ desk.1.ran.toInt) :
    setting.run depth (run registry) desk world = (.done (), desk, world) ∧
      instructions setting depth registry desk world = [] ∧
      setting.requests depth (run registry) desk world = [] := by
  have nothing : desk.1.remaining = 0 := by
    rw [Context.remaining]
    omega
  rw [requests_run, run_eq_steps, instructions, nothing]
  exact ⟨rfl, rfl, rfl⟩

/-- A run that finds something left executes one instruction, and if that comes back, it goes on as
a run from there.

Proof: the bound of a run is what is left at its start. The instruction consumes one cycle at least,
so what the bound still allows is enough for a run from there. -/
theorem run_of_left (remains : desk.1.ran.toInt < desk.1.cycles.toInt) :
    setting.run depth (run registry) desk world =
        Outcome.andThen (setting.run depth (step registry) desk world) (fun _ reached =>
          setting.run depth (run registry) reached.1 reached.2) ∧
      instructions setting depth registry desk world =
        (desk, world) ::
          match setting.run depth (step registry) desk world with
          | (.done (), reached) => instructions setting depth registry reached.1 reached.2
          | _ => [] := by
  have unspent : ¬ desk.1.left.toInt ≤ 0 := by
    rw [Context.left_nonpos_iff]
    omega
  obtain ⟨bound, allowed⟩ : ∃ bound, desk.1.remaining = bound + 1 :=
    Nat.exists_eq_succ_of_ne_zero (Context.remaining_ne_zero_iff.mpr remains)
  rw [run_eq_steps, instructions, allowed, steps_succ_run, executed, if_neg unspent,
    if_neg unspent]
  rw [Context.remaining] at allowed
  cases ran : setting.run depth (step registry) desk world with
  | mk outcome reached =>
  cases outcome with
  | panicked cause => exact ⟨rfl, rfl⟩
  | exhausted => exact ⟨rfl, rfl⟩
  | done value =>
    obtain ⟨cycles, consumed⟩ := progress remains ran
    -- What the bound still allows is no less than what the run from there allows itself.
    have fewer : reached.1.1.remaining ≤ bound := by
      rw [Context.remaining, cycles]
      omega
    obtain ⟨same, listed⟩ :=
      @run_of_enough H setting depth registry bound reached.1 reached.2 fewer
    simp only [Outcome.andThen, same, listed, and_self]

/-- Where an instruction comes back, the run goes on from there. -/
theorem run_of_step (remains : desk.1.ran.toInt < desk.1.cycles.toInt) {reached : Desk × World H}
    (ran : setting.run depth (step registry) desk world = (.done (), reached)) :
    setting.run depth (run registry) desk world =
        setting.run depth (run registry) reached.1 reached.2 ∧
      instructions setting depth registry desk world =
        (desk, world) :: instructions setting depth registry reached.1 reached.2 ∧
      setting.requests depth (run registry) desk world =
        setting.requests depth (step registry) desk world ++
          setting.requests depth (run registry) reached.1 reached.2 := by
  obtain ⟨goesOn, listed⟩ := run_of_left setting depth registry desk world remains
  rw [ran] at goesOn listed
  refine ⟨goesOn, listed, ?_⟩
  rw [requests_run, requests_run, listed, List.flatMap_cons]

/-- A run that comes back does so after each of its instructions. -/
theorem step_of_run (remains : desk.1.ran.toInt < desk.1.cycles.toInt) {last : Desk × World H}
    (ended : setting.run depth (run registry) desk world = (.done (), last)) :
    ∃ reached, setting.run depth (step registry) desk world = (.done (), reached) := by
  rw [(run_of_left setting depth registry desk world remains).1] at ended
  obtain ⟨_, reached, stepped, _⟩ := Outcome.andThen_eq_done_iff.mp ended
  exact ⟨reached, stepped⟩

end Runs

end Micro

end Sh2Pair
