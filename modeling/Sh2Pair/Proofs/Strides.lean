import Sh2Pair.Proofs.Core
import Sh2Pair.Proofs.Footprints

/-!
# One instruction at a time

What an instruction of the small core comes to is decided by the context and by the words that it
fetches. A stride is all of it, told without the world: which words were fetched, what is stored
where, which event is announced to whom, the context that is left, and the panic, if there is one.

`step_run` says that the core executes exactly its strides, whatever the listeners do. A store is
made before the event is announced. If the announcement does not come back, the instruction stays
where it is, with everything done that came before.

A stride depends on the words that it fetches only. It works on the general registers, the program
counter, the state of a delayed branch, the cycles and the fetch holder. The identity of a context,
its other control registers and its devices stay as they are in every run, however it ends. The
announcement of a stride, if there is one, is `comm` for the other processor or a report of polling
for its own, and then its context stands on a branch to itself from now on.
-/

namespace Sh2Pair

/-- The fields of a context that no instruction of the small core changes: the identity, the control
registers other than the program counter, and the devices. -/
def Context.fixed (context : Context) : (Cpu × Char × Bool) ×
    (UInt32 × UInt32 × UInt32 × UInt32 × UInt32 × UInt32) × Option Device :=
  ((context.cpu, context.letter, context.debug),
    (context.gbr, context.vbr, context.sr, context.mach, context.macl, context.pr),
    context.devices)

namespace Micro

/-- What one instruction comes to. -/
structure Stride where
  /-- The addresses of the words that it fetches, in order. -/
  fetched : List UInt32
  /-- The address that it stores at, and what it stores there. -/
  stored : Option (UInt32 × UInt32)
  /-- The processor that it announces an event to, and the event. -/
  announced : Option (Cpu × Event)
  /-- The context while the event is announced. -/
  held : Context
  /-- The context that is left. -/
  context : Context
  fault : Option Panic

/-- Moves behind an instruction of one cycle. -/
def advance (context : Context) : Context × Option Panic :=
  match following? context.pc with
  | none => (context, some .overflow)
  | some pc =>
    match Cycles.checkedAdd? context.ran 1 with
    | none => ({ context with pc := pc }, some .overflow)
    | some ran => ({ context with pc := pc, ran := ran }, none)

namespace Stride

/-- An instruction that ends in a panic of its own. -/
def stop (fetched : List UInt32) (context : Context) (cause : Panic) : Stride :=
  ⟨fetched, none, none, context, context, some cause⟩

/-- An instruction of one cycle that leaves a context, and perhaps stores and announces
something. -/
def pass (address : UInt32) (stored : Option (UInt32 × UInt32))
    (announced : Option (Cpu × Event)) (context : Context) : Stride :=
  ⟨[address], stored, announced, context, (advance context).1, (advance context).2⟩

/-- A branch from a context that has its slot fetched. -/
def jump (fetched : List UInt32) (target : UInt32) (context : Context) : Stride :=
  match Cycles.checkedAdd? context.ran 2 with
  | none => stop fetched context .overflow
  | some ran =>
    let spent := { context with ran := ran }
    if target = context.pc then
      ⟨fetched, none, some (context.cpu, .startPolling), spent,
        { spent with ran := context.cycles, pc := target }, none⟩
    else ⟨fetched, none, none, spent, { spent with pc := target }, none⟩

end Stride

/-- The context that has fetched an instruction word. -/
def fetching (context : Context) (opcode : UInt16) : Context :=
  { context with opcode := opcode, fetched := ⟨context.pc, opcode, .missing⟩ }

/-- The context of a branch that has fetched the word of its slot. -/
def slotting (context : Context) (target : UInt32) (opcode : UInt16) : Context :=
  { context with delayPc := target, delaySlot := true, opcode := opcode }

/-- What the next instruction of a context comes to, on the words that it reads. -/
def stride (read : UInt32 → UInt16) (context : Context) : Stride :=
  let begun := fetching context (read context.pc)
  match decode (read context.pc) with
  | .idle => .pass context.pc none none begun
  | .load register value => .pass context.pc none none (begun.setReg register value)
  | .store target source =>
    .pass context.pc (some (context.reg target, context.reg source))
      (if context.reg target = commAddress then some (context.cpu.other, .comm) else none) begun
  | .branch distance =>
    let target := context.pc + 4 + distance
    match following? context.pc with
    | none => .stop [context.pc] begun .overflow
    | some slot =>
      let taken := slotting begun target (read slot)
      if read slot = idleOpcode then
        .jump [context.pc, slot] target { taken with delaySlot := false }
      else .stop [context.pc, slot] taken (.delaySlot (read slot))
  | .unknown => .stop [context.pc] begun (.unknownOpcode (read context.pc) context.pc)

namespace Stride

variable {H : Host}

/-- How an instruction ends whose announcement comes back. -/
def outcome (stride : Stride) : Outcome Unit :=
  match stride.fault with
  | none => .done ()
  | some cause => .panicked cause

/-- The memory that an instruction leaves. -/
def put (stride : Stride) (bus : Bus Ram) : Bus Ram :=
  match stride.stored with
  | none => bus
  | some (address, value) => (bus.write stride.held.cpu address .long value).2

/-- It is mapped as before. -/
theorem alike_put (stride : Stride) (bus : Bus Ram) :
    (stride.put bus).memory.Alike bus.memory := by
  rw [put]
  split
  · exact .refl _
  · exact Ram.alike_poke ..

/-- A word reads as before after an instruction whose store spares it. -/
theorem word_put (stride : Stride) {bus : Bus Ram} {target : UInt32}
    (spares : ∀ store ∈ stride.stored, bus.memory.Spares store.1 target) :
    word (stride.put bus) target = word bus target := by
  rw [put]
  cases stored : stride.stored with
  | none => rfl
  | some store =>
    exact congrArg (fun read => (Width.word.truncate read).toUInt16)
      (Ram.peek_storeLong (Width.long.truncate store.2) (spares store stored))

/-- What an instruction remarks on a store. -/
def storeNotes (stride : Stride) (bus : Bus Ram) : List (Remark H.Note) :=
  match stride.stored with
  | none => []
  | some (address, value) =>
    .stored stride.held.cpu address ::
      if (bus.write stride.held.cpu address .long value).1 then []
      else [.dropped stride.held.cpu (Width.long.align address) .long]

/-- What an instruction remarks before it announces anything, in order. -/
def notes (stride : Stride) (bus : Bus Ram) : List (Remark H.Note) :=
  stride.fetched.map (.fetched stride.held.cpu) ++ stride.storeNotes bus

/-- The world in which an instruction has remarked on everything. -/
def noted (stride : Stride) (bus : Bus Ram) (world : World H) : World H :=
  (stride.notes bus).foldl (fun world content => world.record (.remark content)) world

/-- The rest of an instruction that has stored and remarked: it announces its event, if it has one,
and ends if that comes back. -/
def announce (deliver : Delivery H) (arrange : Nat → List Listener → List Listener)
    (registry : Nat) (stride : Stride) (left : Bus Ram) (noted : World H) :
    Outcome Unit × Desk × World H :=
  match stride.announced with
  | none => (stride.outcome, (stride.context, left), noted)
  | some (cpu, event) =>
    match noted.fire deliver arrange registry cpu event with
    | (.done _, world) => (stride.outcome, (stride.context, left), world)
    | (.panicked cause, world) => (.panicked cause, (stride.held, left), world)
    | (.exhausted, world) => (.exhausted, (stride.held, left), world)

end Stride

section Runs

variable {H : Host} {deliver : Delivery H} {arrange : Nat → List Listener → List Listener}
  {registry : Nat} {context : Context} {bus : Bus Ram} {world : World H}

/-- Stepping over an instruction leads to the next one, if there is one. -/
theorem stepOver_run {pc : UInt32} (next : following? context.pc = some pc) :
    (stepOver : Program H Desk Unit).run deliver arrange (context, bus) world =
      (.done (), ({ context with pc := pc }, bus), world) := by
  refine (Program.run_bind_of_done context_run).trans ?_
  dsimp only
  rw [next]
  rfl

/-- There may be no address behind an instruction. -/
theorem stepOver_overflows (last : following? context.pc = none) :
    (stepOver : Program H Desk Unit).run deliver arrange (context, bus) world =
      (.panicked .overflow, (context, bus), world) := by
  refine (Program.run_bind_of_done context_run).trans ?_
  dsimp only
  rw [last]
  rfl

/-- The cycles may leave the range of their counter. -/
theorem consume_overflows {cycles : Int32}
    (full : Cycles.checkedAdd? context.ran cycles = none) :
    (consume cycles : Program H Desk Unit).run deliver arrange (context, bus) world =
      (.panicked .overflow, (context, bus), world) := by
  refine (Program.run_bind_of_done context_run).trans ?_
  dsimp only
  rw [full]
  rfl

/-- Moving behind an instruction of one cycle does nothing to the memory and the world. -/
theorem advance_run (context : Context) :
    (stepOver.bind fun _ => consume 1 : Program H Desk Unit).run deliver arrange (context, bus)
        world =
      ((Stride.pass context.pc none none context).outcome, ((advance context).1, bus), world) := by
  rw [Program.run_bind]
  cases next : following? context.pc with
  | none =>
    rw [stepOver_overflows next]
    simp only [Outcome.andThen, Stride.pass, Stride.outcome, advance, next]
  | some pc =>
    rw [stepOver_run next]
    cases sum : Cycles.checkedAdd? context.ran 1 with
    | none =>
      have moved : Cycles.checkedAdd? ({ context with pc := pc } : Context).ran 1 = none := sum
      refine (consume_overflows moved).trans ?_
      simp only [Stride.pass, Stride.outcome, advance, next, sum]
    | some ran =>
      have moved : Cycles.checkedAdd? ({ context with pc := pc } : Context).ran 1 = some ran := sum
      refine (consume_run moved).trans ?_
      simp only [Stride.pass, Stride.outcome, advance, next, sum]

/-- A store remarks on itself and writes, before anything else. -/
theorem store_run (stride : Stride) {address value : UInt32}
    (stored : stride.stored = some (address, value)) :
    (store address value : Program H Desk Unit).run deliver arrange (stride.held, bus) world =
      (.done (), (stride.held, stride.put bus),
        (stride.storeNotes bus).foldl (fun world content => world.record (.remark content))
          world) := by
  simp only [Stride.put, Stride.storeNotes, stored]
  change Program.run _ _
    (ite ((bus.write stride.held.cpu address .long value).1 = true) _ _) _ _ = _
  cases taken : (bus.write stride.held.cpu address .long value).1 with
  | true => rfl
  | false => rfl

/-- An event is announced first, and then the instruction ends. -/
theorem announce_run (stride : Stride) {cpu : Cpu} {event : Event}
    (announced : stride.announced = some (cpu, event)) {rest : Program H Desk Unit}
    (ends : ∀ world : World H, rest.run deliver arrange (stride.held, bus) world =
      (stride.outcome, (stride.context, bus), world)) :
    ((Program.fire registry cpu event : Program H Desk Nat).bind fun _ => rest).run deliver arrange
        (stride.held, bus) world = stride.announce deliver arrange registry bus world := by
  change Program.run _ _ (.request (.fire registry cpu event) fun _ => rest) _ _ = _
  simp only [Stride.announce, announced, Program.run, World.answer]
  cases world.fire deliver arrange registry cpu event with
  | mk outcome after =>
  cases outcome with
  | done count => exact ends after
  | panicked cause => rfl
  | exhausted => rfl

/-- An instruction as a whole, in a world and on a memory. -/
def Stride.carryOut (deliver : Delivery H) (arrange : Nat → List Listener → List Listener)
    (registry : Nat) (stride : Stride) (bus : Bus Ram) (world : World H) :
    Outcome Unit × Desk × World H :=
  stride.announce deliver arrange registry (stride.put bus) (stride.noted bus world)

/-- A branch from a context stores nothing, so its words are all that it remarks on. -/
theorem Stride.carryOut_jump {address slot target : UInt32} {noted : World H}
    (same : noted = (world.record (.remark (.fetched context.cpu address))).record
      (.remark (.fetched context.cpu slot))) :
    (jump [address, slot] target context).carryOut deliver arrange registry bus world =
      (jump [] target context).announce deliver arrange registry bus noted := by
  subst same
  simp only [carryOut, jump]
  cases Cycles.checkedAdd? context.ran 2 with
  | none => rfl
  | some ran =>
    dsimp only
    split
    · rfl
    · rfl

/-- An instruction that stores is carried out as its stride says. -/
theorem executeStore_run (target source : Nat) :
    let stride := Stride.pass context.fetched.pc (some (context.reg target, context.reg source))
      (if context.reg target = commAddress then some (context.cpu.other, .comm) else none) context
    (executeStore registry target source : Program H Desk Unit).run deliver arrange (context, bus)
        world =
      stride.announce deliver arrange registry (stride.put bus)
        ((stride.storeNotes bus).foldl (fun world content => world.record (.remark content))
          world) := by
  intro stride
  refine (Program.run_bind_of_done context_run).trans ?_
  refine (Program.run_bind_of_done (store_run stride rfl)).trans ?_
  change Program.run _ _ (ite (context.reg target = commAddress) _ _) _ _ = _
  by_cases port : context.reg target = commAddress
  · rw [if_pos port]
    exact announce_run stride (if_pos port) fun world => advance_run context
  · have silent : stride.announced = none := if_neg port
    rw [if_neg port, Stride.announce, silent]
    exact advance_run context

/-- A branch whose slot is idle pays, and reports polling if it goes to itself. -/
theorem jump_run (context : Context) (fetched : List UInt32) (target : UInt32) :
    ((consume 2).bind fun _ =>
      if target = context.pc then
        (Program.fire registry context.cpu .startPolling).bind fun _ =>
          adjust fun context => { context with ran := context.cycles, pc := target }
      else adjust ({ · with pc := target }) : Program H Desk Unit).run deliver arrange
        (context, bus) world =
      (Stride.jump fetched target context).announce deliver arrange registry bus world := by
  cases spent : Cycles.checkedAdd? context.ran 2 with
  | none =>
    rw [Program.run_bind, consume_overflows spent]
    simp only [Stride.jump, spent]
    rfl
  | some ran =>
    refine (Program.run_bind_of_done (consume_run spent)).trans ?_
    simp only [Stride.jump, spent]
    by_cases loops : target = context.pc
    · rw [if_pos loops, if_pos loops]
      exact announce_run ⟨fetched, none, some (context.cpu, .startPolling),
        { context with ran := ran }, { context with ran := context.cycles, pc := target }, none⟩
        rfl fun world => rfl
    · rw [if_neg loops, if_neg loops]
      rfl

/-- A branch is carried out as its jump says if the word behind it is idle, and panics otherwise.

Proof: the program is run through its binds, by whether the address of the slot exists and whether
the word in it is idle. -/
theorem executeBranch_run (distance : UInt32) :
    (executeBranch registry distance : Program H Desk Unit).run deliver arrange (context, bus)
        world =
      match following? context.pc with
      | none => (.panicked .overflow, (context, bus), world)
      | some slot =>
        let noted := world.record (.remark (.fetched context.cpu slot))
        let taken := slotting context (context.pc + 4 + distance) (word bus slot)
        if word bus slot = idleOpcode then
          (Stride.jump [] (context.pc + 4 + distance) { taken with delaySlot := false }).announce
            deliver arrange registry bus noted
        else (.panicked (.delaySlot (word bus slot)), (taken, bus), noted) := by
  refine (Program.run_bind_of_done context_run).trans ?_
  dsimp only
  cases next : following? context.pc with
  | none => rfl
  | some slot =>
    change Program.run _ _ ((fetchSlot slot).bind _ : Program H Desk Unit)
      ({ context with delayPc := context.pc + 4 + distance, delaySlot := true }, bus) world = _
    refine (Program.run_bind_of_done (fetchSlot_run _)).trans ?_
    dsimp only
    by_cases idle : word bus slot = idleOpcode
    · rw [if_neg (not_not.mpr idle), if_pos idle]
      exact jump_run { slotting context (context.pc + 4 + distance) (word bus slot) with
        delaySlot := false } [] (context.pc + 4 + distance)
    · rw [if_pos idle, if_neg idle]
      rfl

/-- The core executes exactly its strides.

Proof: one case per instruction. The store and the branch have lemmas of their own, and the others
only go on to the next instruction. -/
theorem step_run :
    (step registry : Program H Desk Unit).run deliver arrange (context, bus) world =
      (stride (word bus) context).carryOut deliver arrange registry bus world := by
  refine (Program.run_bind_of_done fetch_run).trans ?_
  simp only [stride]
  cases decoded : decode (word bus context.pc) with
  | idle => exact advance_run (fetching context _)
  | load register value => exact advance_run ((fetching context _).setReg register value)
  | store target source => exact executeStore_run target source
  | branch distance =>
    refine (executeBranch_run distance).trans ?_
    change (match following? context.pc with | none => _ | some slot => _) = _
    cases next : following? context.pc with
    | none => rfl
    | some slot =>
      dsimp only
      by_cases idle : word bus slot = idleOpcode
      · rw [if_pos idle, if_pos idle]
        exact (Stride.carryOut_jump rfl).symm
      · rw [if_neg idle, if_neg idle]
        rfl
  | unknown => rfl

/-- Whatever an announcement comes to, the memory is what the instruction has left. -/
theorem Stride.announce_bus (stride : Stride) :
    (stride.announce deliver arrange registry bus world).2.1.2 = bus := by
  simp only [announce]
  split
  · rfl
  · split <;> rfl

/-- If there is an announcement, nothing happens to the world but one fire. -/
theorem Stride.announce_world (stride : Stride) {cpu : Cpu} {event : Event}
    (announced : stride.announced = some (cpu, event)) :
    (stride.announce deliver arrange registry bus world).2.2 =
      (world.fire deliver arrange registry cpu event).2 := by
  simp only [announce, announced]
  split <;> simp only [*]

end Runs

section Settings

variable {H : Host} (setting : Setting H) (depth registry : Nat)

/-- A number of instructions begins with one of them, if cycles are left. -/
theorem steps_succ_run (bound : Nat) (desk : Desk) (world : World H) :
    setting.run depth (steps registry (bound + 1)) desk world =
      if desk.1.left.toInt ≤ 0 then (.done (), desk, world)
      else Outcome.andThen (setting.run depth (step registry) desk world) fun _ reached =>
        setting.run depth (steps registry bound) reached.1 reached.2 := by
  change Program.run _ _ (ite (desk.1.left.toInt ≤ 0) _ _) _ _ = _
  by_cases spent : desk.1.left.toInt ≤ 0
  · rw [if_pos spent, if_pos spent]
    rfl
  · rw [if_neg spent, if_neg spent]
    exact Program.run_bind ..

/-- A run has as many instructions as there are cycles between what is consumed and what was
granted, at most. -/
theorem run_eq_steps (desk : Desk) (world : World H) :
    setting.run depth (run registry) desk world =
      setting.run depth (steps registry desk.1.remaining) desk world :=
  Program.run_bind_of_done context_run

end Settings

section Dependence

variable (read : UInt32 → UInt16) (context : Context)

/-- Going on to the next instruction leaves the fixed fields alone. -/
theorem fixed_advance : (advance context).1.fixed = context.fixed := by
  rw [advance]
  split
  · rfl
  · split
    · rfl
    · rfl

/-- A jump leaves the fixed fields alone, before it is announced and after. -/
theorem fixed_jump (fetched : List UInt32) (target : UInt32) :
    (Stride.jump fetched target context).held.fixed = context.fixed ∧
      (Stride.jump fetched target context).context.fixed = context.fixed := by
  simp only [Stride.jump]
  split
  · exact ⟨rfl, rfl⟩
  · split
    · exact ⟨rfl, rfl⟩
    · exact ⟨rfl, rfl⟩

/-- No instruction changes anything that is fixed. -/
theorem fixed_stride : (stride read context).held.fixed = context.fixed ∧
    (stride read context).context.fixed = context.fixed := by
  simp only [stride]
  split
  · exact ⟨rfl, fixed_advance _⟩
  · exact ⟨rfl, fixed_advance _⟩
  · exact ⟨rfl, fixed_advance _⟩
  · split
    · exact ⟨rfl, rfl⟩
    · split
      · exact fixed_jump ..
      · exact ⟨rfl, rfl⟩
  · exact ⟨rfl, rfl⟩

/-- In particular, it stays with the processor that it belongs to. -/
theorem cpu_stride : (stride read context).held.cpu = context.cpu ∧
    (stride read context).context.cpu = context.cpu := by
  obtain ⟨held, left⟩ := fixed_stride read context
  exact ⟨congrArg (fun fixed => fixed.1.1) held, congrArg (fun fixed => fixed.1.1) left⟩

/-- A jump fetches nothing more than what has been fetched for it. -/
theorem fetched_jump (fetched : List UInt32) (target : UInt32) :
    (Stride.jump fetched target context).fetched = fetched := by
  simp only [Stride.jump]
  split
  · rfl
  · split
    · rfl
    · rfl

/-- The first word that an instruction fetches is the one at the program counter. -/
theorem pc_mem_fetched : context.pc ∈ (stride read context).fetched := by
  simp only [stride]
  split
  · exact List.mem_cons_self ..
  · exact List.mem_cons_self ..
  · exact List.mem_cons_self ..
  · split
    · exact List.mem_cons_self ..
    · split
      · rw [fetched_jump]
        exact List.mem_cons_self ..
      · exact List.mem_cons_self ..
  · exact List.mem_cons_self ..

/-- The only other one is that of a slot. -/
theorem slot_mem_fetched {distance slot : UInt32}
    (branch : decode (read context.pc) = .branch distance)
    (next : following? context.pc = some slot) : slot ∈ (stride read context).fetched := by
  simp only [stride, branch, next]
  split
  · rw [fetched_jump]
    exact List.mem_cons_of_mem _ (List.mem_cons_self ..)
  · exact List.mem_cons_of_mem _ (List.mem_cons_self ..)

variable {read context}

/-- An instruction depends on the words that it fetches, and on nothing else in the memory. -/
theorem stride_congr {other : UInt32 → UInt16}
    (agree : ∀ address ∈ (stride read context).fetched, other address = read address) :
    stride other context = stride read context := by
  have here : other context.pc = read context.pc := agree _ (pc_mem_fetched read context)
  simp only [stride, here]
  cases branch : decode (read context.pc) with
  | branch distance =>
    cases next : following? context.pc with
    | none => rfl
    | some slot =>
      have behind : other slot = read slot :=
        agree _ (slot_mem_fetched read context branch next)
      simp only [behind]
  | idle => rfl
  | load register value => rfl
  | store target source => rfl
  | unknown => rfl

end Dependence

section Frames

variable {H : Host} (setting : Setting H) (depth registry : Nat) (desk : Desk) (world : World H)

/-- What is fixed stays so, whether an instruction comes back or not. -/
theorem fixed_step :
    (setting.run depth (step registry) desk world).2.1.1.fixed = desk.1.fixed := by
  obtain ⟨context, bus⟩ := desk
  obtain ⟨held, left⟩ := fixed_stride (word bus) context
  rw [Setting.run, step_run, Stride.carryOut, Stride.announce]
  split
  · exact left
  · split
    · exact left
    · exact held
    · exact held

/-- A row of instructions leaves the fixed fields alone, however it ends. -/
theorem fixed_steps (bound : Nat) :
    (setting.run depth (steps registry bound) desk world).2.1.1.fixed = desk.1.fixed := by
  induction bound generalizing desk world with
  | zero => rfl
  | succ bound inductionHypothesis =>
    rw [steps_succ_run]
    split
    · rfl
    · have kept : (setting.run depth (step registry) desk world).2.1.1.fixed = desk.1.fixed :=
        fixed_step setting depth registry desk world
      cases ran : setting.run depth (step registry) desk world with
      | mk outcome reached =>
      rw [ran] at kept
      cases outcome with
      | done value => exact (inductionHypothesis reached.1 reached.2).trans kept
      | panicked cause => exact kept
      | exhausted => exact kept

/-- No run changes anything that is fixed, however it ends. -/
theorem fixed_run :
    (setting.run depth (run registry) desk world).2.1.1.fixed = desk.1.fixed := by
  rw [run_eq_steps]
  exact fixed_steps ..

end Frames

section Rest

variable {bus : Bus Ram} {context : Context}

/-- A context that stands on a branch to itself executes this branch. -/
theorem stride_of_resting (resting : Resting bus context) :
    stride (word bus) context = .jump [context.pc, context.pc + 2] context.pc context := by
  obtain ⟨distance, branch, loops⟩ := resting.loops
  have same : { slotting (fetching context (word bus context.pc)) context.pc idleOpcode with
      delaySlot := false } = context := resting.again
  simp only [stride, branch, resting.slot, resting.idle, loops, if_true, same]

/-- A branch that has no fault has room for its cycles. -/
theorem spent_of_jump {fetched : List UInt32} {target : UInt32}
    (whole : (Stride.jump fetched target context).fault = none) :
    ∃ ran, Cycles.checkedAdd? context.ran 2 = some ran := by
  cases spent : Cycles.checkedAdd? context.ran 2 with
  | some ran => exact ⟨ran, rfl⟩
  | none =>
    rw [Stride.jump, spent] at whole
    cases whole

/-- A branch from a context to itself uses up the budget, if there is room for its cycles. -/
theorem jump_self {ran : Int32} (spent : Cycles.checkedAdd? context.ran 2 = some ran)
    (fetched : List UInt32) :
    Stride.jump fetched context.pc context =
      ⟨fetched, none, some (context.cpu, .startPolling), { context with ran := ran },
        { context with ran := context.cycles }, none⟩ := by
  simp only [Stride.jump, spent, if_true]

/-- A branch announces something if it goes to itself, and then it reports polling. -/
theorem announced_jump {fetched : List UInt32} {target : UInt32} {cpu : Cpu} {event : Event}
    (announced : (Stride.jump fetched target context).announced = some (cpu, event)) :
    target = context.pc ∧ cpu = context.cpu ∧ event = .startPolling ∧
      (Stride.jump fetched target context).context =
        { context with ran := context.cycles, pc := target } := by
  revert announced
  simp only [Stride.jump]
  cases Cycles.checkedAdd? context.ran 2 with
  | none =>
    intro announced
    cases announced
  | some ran =>
    dsimp only
    by_cases loops : target = context.pc
    · rw [if_pos loops]
      intro announced
      cases announced
      exact ⟨loops, rfl, rfl, rfl⟩
    · rw [if_neg loops]
      intro announced
      cases announced

/-- An instruction announces `comm` to the other processor, or it is a branch to itself that reports
its own processor, and leaves a context that stands on it.

Proof: one case per instruction. Only a store to the port and a branch to itself announce anything,
and the branch leaves everything as a resting context needs it. -/
theorem announced_cases {cpu : Cpu} {event : Event}
    (announced : (stride (word bus) context).announced = some (cpu, event)) :
    (cpu = context.cpu.other ∧ event = .comm) ∨
      (cpu = context.cpu ∧ event = .startPolling ∧
        (stride (word bus) context).fetched = [context.pc, context.pc + 2] ∧
        (stride (word bus) context).context.pc = context.pc ∧
        Resting bus (stride (word bus) context).context) := by
  revert announced
  simp only [stride]
  cases branch : decode (word bus context.pc) with
  | idle =>
    intro announced
    cases announced
  | load register value =>
    intro announced
    cases announced
  | unknown =>
    intro announced
    cases announced
  | store target source =>
    intro announced
    left
    change ite _ _ _ = _ at announced
    split at announced
    · cases announced
      exact ⟨rfl, rfl⟩
    · cases announced
  | branch distance =>
    cases next : following? context.pc with
    | none =>
      intro announced
      cases announced
    | some slot =>
      obtain rfl := eq_of_following? next
      dsimp only
      by_cases idle : word bus (context.pc + 2) = idleOpcode
      · rw [if_pos idle]
        intro announced
        obtain ⟨loops, cpu, report, left⟩ := announced_jump announced
        have loops : context.pc + 4 + distance = context.pc := loops
        rw [fetched_jump, left]
        refine .inr ⟨cpu, report, rfl, loops, ?_⟩
        constructor
        case loops => exact ⟨distance, by rw [loops]; exact branch, by rw [loops]; exact loops⟩
        case slot => rw [loops]; exact next
        case idle => rw [loops]; exact idle
        case opcode => exact idle
        case fetched => rw [loops]; rfl
        case target => rfl
        case settled => rfl
      · rw [if_neg idle]
        intro announced
        cases announced

end Rest

end Micro

end Sh2Pair
