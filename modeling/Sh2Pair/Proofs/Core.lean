import Sh2Pair.Micro
import Sh2Pair.Proofs.Quiet

/-!
# What the small core can do

The core asks for nothing but fires on its own registry. An instruction that succeeds leaves the
hub alone, announces `comm` to the other processor, or is a branch to itself, which leaves the
memory alone and reports polling. After such a branch the context is at rest: to run it once more
would fetch the same two words, and leave the context as it is.
-/

namespace Sh2Pair

/-- A program that goes on after another one succeeds only if the first does. -/
theorem Program.run_bind_done {H : Host} {σ α β : Type} {deliver : Delivery H}
    {arrange : Nat → List Listener → List Listener} {program : Program H σ α}
    {rest : α → Program H σ β} {state : σ} {world : World H} {value : β} {after : σ × World H}
    (ran : (program.bind rest).run deliver arrange state world = (.done value, after)) :
    ∃ middle reached, program.run deliver arrange state world = (.done middle, reached) ∧
      (rest middle).run deliver arrange reached.1 reached.2 = (.done value, after) := by
  rw [run_bind] at ran
  generalize program.run deliver arrange state world = result at ran
  obtain ⟨outcome, reached⟩ := result
  cases outcome with
  | done middle => exact ⟨middle, reached, rfl, ran⟩
  | panicked cause => cases ran
  | exhausted => cases ran

/-- Where a first program succeeds, it is followed by the second. -/
theorem Program.run_bind_of_done {H : Host} {σ α β : Type} {deliver : Delivery H}
    {arrange : Nat → List Listener → List Listener} {program : Program H σ α}
    {rest : α → Program H σ β} {state : σ} {world : World H} {middle : α} {reached : σ × World H}
    (ran : program.run deliver arrange state world = (.done middle, reached)) :
    (program.bind rest).run deliver arrange state world =
      (rest middle).run deliver arrange reached.1 reached.2 := by
  rw [run_bind, ran]
  rfl

namespace Micro

variable {H : Host} {registry : Nat}

section Requests

/-- Stepping over an instruction asks for nothing. -/
theorem onlyFires_stepOver : (stepOver : Program H Desk Unit).OnlyFires registry := by
  refine .bind (fun _ => trivial) fun start => ?_
  split
  · trivial
  · trivial

/-- Consuming cycles asks for nothing. -/
theorem onlyFires_consume (cycles : Int32) :
    (consume cycles : Program H Desk Unit).OnlyFires registry := by
  refine .bind (fun _ => trivial) fun start => ?_
  split
  · trivial
  · trivial

/-- A fire in the registry asks for this fire only. -/
theorem onlyFires_fire (cpu : Cpu) (event : Event) :
    (Program.fire registry cpu event : Program H Desk Nat).OnlyFires registry :=
  ⟨⟨cpu, event, rfl⟩, fun _ => trivial⟩

/-- A branch asks for nothing but a report of polling. -/
theorem onlyFires_executeBranch (distance : UInt32) :
    (executeBranch registry distance : Program H Desk Unit).OnlyFires registry := by
  refine .bind (fun _ => trivial) fun start => ?_
  split
  · trivial
  · refine .bind trivial fun _ => .bind (fun _ => trivial) fun opcode => ?_
    split
    · trivial
    · refine .bind trivial fun _ => .bind (onlyFires_consume 2) fun _ => ?_
      split
      · exact .bind (onlyFires_fire _ _) fun _ => trivial
      · trivial

/-- A store asks for nothing. -/
theorem onlyFires_store (address value : UInt32) :
    (store address value : Program H Desk Unit).OnlyFires registry := by
  intro desk
  change Program.OnlyFires registry (ite _ _ _)
  split
  · trivial
  · trivial

/-- An instruction that stores asks for nothing but the fire at the port. -/
theorem onlyFires_executeStore (target source : Nat) :
    (executeStore registry target source : Program H Desk Unit).OnlyFires registry := by
  refine .bind (fun _ => trivial) fun start => .bind (onlyFires_store _ _) fun _ => ?_
  change Program.OnlyFires registry (ite _ _ _)
  split
  · exact .bind (onlyFires_fire _ _) fun _ => .bind onlyFires_stepOver fun _ => onlyFires_consume 1
  · exact .bind onlyFires_stepOver fun _ => onlyFires_consume 1

/-- An instruction asks for nothing but fires. -/
theorem onlyFires_step : (step registry : Program H Desk Unit).OnlyFires registry := by
  refine .bind (fun _ => trivial) fun opcode => ?_
  split
  · exact .bind onlyFires_stepOver fun _ => onlyFires_consume 1
  · exact .bind trivial fun _ => .bind onlyFires_stepOver fun _ => onlyFires_consume 1
  · exact onlyFires_executeStore _ _
  · exact onlyFires_executeBranch _
  · exact .bind (fun _ => trivial) fun _ => trivial

/-- A row of instructions asks for nothing but fires. -/
theorem onlyFires_steps (bound : Nat) :
    (steps registry bound : Program H Desk Unit).OnlyFires registry := by
  induction bound with
  | zero => trivial
  | succ bound inductionHypothesis =>
    refine .bind (fun _ => trivial) fun start => ?_
    split
    · trivial
    · exact .bind onlyFires_step fun _ => inductionHypothesis

/-- The core asks for nothing but fires on its own registry. -/
theorem onlyFires_run : (run registry : Program H Desk Unit).OnlyFires registry :=
  .bind (fun _ => trivial) fun _ => onlyFires_steps _

end Requests

/-- The instruction word at an address. Reading it changes nothing, and no processor reads
another one. -/
def word (bus : Bus Ram) (address : UInt32) : UInt16 := (bus.read16 .master address).1

/-- The address behind an instruction is two bytes on. -/
theorem eq_of_following? {pc next : UInt32} (behind : following? pc = some next) :
    next = pc + 2 := by
  rw [following?] at behind
  split at behind
  · exact (Option.some.inj behind).symm
  · cases behind

/-- A context that has just executed a branch to itself with an idle slot: to execute it once
more would change nothing but the cycles. -/
structure Resting (bus : Bus Ram) (context : Context) : Prop where
  loops : ∃ distance, decode (word bus context.pc) = .branch distance ∧
    context.pc + 4 + distance = context.pc
  slot : following? context.pc = some (context.pc + 2)
  idle : word bus (context.pc + 2) = idleOpcode
  opcode : context.opcode = idleOpcode
  fetched : context.fetched = ⟨context.pc, word bus context.pc, .missing⟩
  target : context.delayPc = context.pc
  settled : context.delaySlot = false

/-- What a resting context rests on is the two words that it goes on executing. -/
theorem Resting.of_words {before after : Bus Ram} {context : Context}
    (resting : Resting before context)
    (branch : word after context.pc = word before context.pc)
    (slot : word after (context.pc + 2) = word before (context.pc + 2)) :
    Resting after context where
  loops := by rw [branch]; exact resting.loops
  slot := resting.slot
  idle := slot.trans resting.idle
  opcode := resting.opcode
  fetched := by rw [branch]; exact resting.fetched
  target := resting.target
  settled := resting.settled

section Ends

variable {deliver : Delivery H} {arrange : Nat → List Listener → List Listener}
  {context : Context} {bus : Bus Ram} {world : World H}

/-- Looking at the context changes nothing. -/
theorem context_run : (Micro.context : Program H Desk Context).run deliver arrange (context, bus)
    world = (.done context, (context, bus), world) := rfl

/-- A fetch returns the word at the counter, and the context notes it. -/
theorem fetch_run : (fetch : Program H Desk UInt16).run deliver arrange (context, bus) world =
    (.done (word bus context.pc),
      ({ context with
          opcode := word bus context.pc
          fetched := ⟨context.pc, word bus context.pc, .missing⟩ }, bus),
      world.record (.remark (.fetched context.cpu context.pc))) := rfl

/-- A fetch behind a branch returns the word there, and the context notes it as its opcode only. -/
theorem fetchSlot_run (pc : UInt32) :
    (fetchSlot pc : Program H Desk UInt16).run deliver arrange (context, bus) world =
      (.done (word bus pc), ({ context with opcode := word bus pc }, bus),
        world.record (.remark (.fetched context.cpu pc))) := rfl

/-- Stepping over an instruction that does not panic moves the counter and nothing else. -/
theorem stepOver_done {after : Desk × World H}
    (ran : (stepOver : Program H Desk Unit).run deliver arrange (context, bus) world =
      (.done (), after)) : ∃ pc, after = (({ context with pc := pc }, bus), world) := by
  obtain ⟨start, reached, looked, ran⟩ := Program.run_bind_done ran
  cases looked
  dsimp only at ran
  cases next : following? context.pc with
  | none =>
    rw [next] at ran
    cases ran
  | some pc =>
    rw [next] at ran
    injection ran with _ same
    exact ⟨pc, same.symm⟩

/-- Consuming cycles without a panic changes the cycles that were run and nothing else. -/
theorem consume_done {cycles : Int32} {after : Desk × World H}
    (ran : (consume cycles : Program H Desk Unit).run deliver arrange (context, bus) world =
      (.done (), after)) : ∃ ran, after = (({ context with ran := ran }, bus), world) := by
  obtain ⟨start, reached, looked, ran⟩ := Program.run_bind_done ran
  cases looked
  dsimp only at ran
  cases sum : Cycles.checkedAdd? context.ran cycles with
  | none =>
    rw [sum] at ran
    cases ran
  | some consumed =>
    rw [sum] at ran
    injection ran with _ same
    exact ⟨consumed, same.symm⟩

/-- Cycles are consumed without a panic if their sum fits. -/
theorem consume_run {cycles sum : Int32}
    (added : Cycles.checkedAdd? context.ran cycles = some sum) :
    (consume cycles : Program H Desk Unit).run deliver arrange (context, bus) world =
      (.done (), ({ context with ran := sum }, bus), world) := by
  refine (Program.run_bind_of_done context_run).trans ?_
  dsimp only
  rw [added]
  rfl

/-- A store that does not panic leaves the context and the hub alone. -/
theorem store_done {address value : UInt32} {after : Desk × World H}
    (ran : (store address value : Program H Desk Unit).run deliver arrange (context, bus) world =
      (.done (), after)) : after.1.1 = context ∧ after.2.hub = world.hub := by
  change Program.run deliver arrange (ite _ _ _) _ _ = _ at ran
  split at ran
  · injection ran with _ same
    subst same
    exact ⟨rfl, rfl⟩
  · injection ran with _ same
    subst same
    exact ⟨rfl, rfl⟩

end Ends

section Steps

variable {number : Nat} (setting : Setting H) (depth : Nat) {context : Context} {bus : Bus Ram}
  {world : World H} (lone : world.hub.Lone registry number)

include lone

/-- A fire that comes back has told the lone detector, and nobody else. -/
theorem fire_done {desk : Desk} {cpu : Cpu} {event : Event} {count : Nat} {after : Desk × World H}
    (ran : (Program.fire registry cpu event : Program H Desk Nat).run (setting.deliver depth)
      setting.arrange desk world = (.done count, after)) :
    after.1 = desk ∧ after.2.hub = world.hub.heard registry number cpu event := by
  obtain ⟨reached, fired, hub⟩ := world.fire_of_lone setting depth lone cpu event
  change Program.run _ _
    (.request (.fire registry cpu event) fun count => .ret count : Program H Desk Nat) _ _ = _
    at ran
  simp only [Program.run, World.answer, fired] at ran
  injection ran with _ same
  subst same
  exact ⟨rfl, hub⟩

/-- A store leaves the hub alone or announces `comm` to the other processor.

Proof: the run is followed through its binds. Going on to the next instruction changes neither the
hub nor the processor, whether a fire stands in front of it or not. -/
theorem executeStore_cases {target source : Nat} {after : Desk × World H}
    (ran : (executeStore registry target source : Program H Desk Unit).run (setting.deliver depth)
      setting.arrange (context, bus) world = (.done (), after)) :
    after.1.1.cpu = context.cpu ∧ (after.2.hub = world.hub ∨
      after.2.hub = world.hub.heard registry number context.cpu.other .comm) := by
  obtain ⟨start, ⟨desk, same⟩, looked, ran⟩ := Program.run_bind_done ran
  cases looked
  obtain ⟨_, ⟨⟨stored, bus⟩, kept⟩, wrote, ran⟩ := Program.run_bind_done ran
  obtain ⟨rfl, hub⟩ := store_done wrote
  dsimp only at hub ran
  have advance : ∀ {reached : World H} {last : Desk × World H},
      (stepOver.bind fun _ => consume 1 : Program H Desk Unit).run (setting.deliver depth)
        setting.arrange (stored, bus) reached = (.done (), last) →
      last.1.1.cpu = stored.cpu ∧ last.2 = reached := by
    intro reached last ran
    obtain ⟨_, stop, stepped, ran⟩ := Program.run_bind_done ran
    obtain ⟨pc, rfl⟩ := stepOver_done stepped
    obtain ⟨consumed, rfl⟩ := consume_done ran
    exact ⟨rfl, rfl⟩
  change Program.run _ _ (ite _ _ _) _ _ = _ at ran
  split at ran
  · obtain ⟨_, ⟨desk, reached⟩, fired, ran⟩ := Program.run_bind_done ran
    obtain ⟨rfl, heard⟩ := fire_done setting depth (hub ▸ lone) fired
    obtain ⟨cpu, same⟩ := advance ran
    exact ⟨cpu, .inr (by rw [same, heard, hub])⟩
  · obtain ⟨cpu, same⟩ := advance ran
    exact ⟨cpu, .inl (by rw [same, hub])⟩

/-- A branch leaves the hub alone, or it goes to itself and reports polling, and then its context
is at rest and its budget used up.

Proof: the run is followed through its binds. Without a slot, or with an unexpected word in it, it
does not come back. With an idle slot, the branch either goes elsewhere and says nothing, or it goes
to itself and fires the report; then everything that makes a context rest can be read off. -/
theorem executeBranch_cases {distance : UInt32} {after : Desk × World H}
    (ran : (executeBranch registry distance : Program H Desk Unit).run (setting.deliver depth)
      setting.arrange (context, bus) world = (.done (), after))
    (decoded : decode (word bus context.pc) = .branch distance)
    (fetched : context.fetched = ⟨context.pc, word bus context.pc, .missing⟩) :
    after.1.1.cpu = context.cpu ∧ (after.2.hub = world.hub ∨
      (after.2.hub = world.hub.heard registry number context.cpu .startPolling ∧
        after.1.2 = bus ∧ Resting bus after.1.1 ∧ after.1.1.ran = after.1.1.cycles)) := by
  obtain ⟨start, ⟨desk, same⟩, looked, ran⟩ := Program.run_bind_done ran
  cases looked
  dsimp only at ran
  cases slot : following? context.pc with
  | none =>
    rw [slot] at ran
    cases ran
  | some next =>
    rw [slot] at ran
    obtain ⟨_, ⟨desk, reached⟩, adjusted, ran⟩ := Program.run_bind_done ran
    cases adjusted
    obtain ⟨opcode, ⟨desk, reached⟩, fetchedSlot, ran⟩ := Program.run_bind_done ran
    rw [fetchSlot_run] at fetchedSlot
    cases fetchedSlot
    dsimp only at ran
    by_cases idle : word bus next = idleOpcode
    · rw [if_neg (not_not.mpr idle)] at ran
      obtain ⟨_, ⟨desk, reached⟩, adjusted, ran⟩ := Program.run_bind_done ran
      cases adjusted
      obtain ⟨_, reached, consumed, ran⟩ := Program.run_bind_done ran
      obtain ⟨spent, rfl⟩ := consume_done consumed
      dsimp only at ran
      by_cases loops : context.pc + 4 + distance = context.pc
      · rw [if_pos loops] at ran
        obtain ⟨_, ⟨desk, reached⟩, fired, ran⟩ := Program.run_bind_done ran
        have still : (world.record (.remark (.fetched context.cpu next))).hub.Lone registry
            number := lone
        obtain ⟨rfl, heard⟩ := fire_done setting depth still fired
        cases ran
        obtain rfl := eq_of_following? slot
        refine ⟨rfl, .inr ⟨heard, rfl, ?_, rfl⟩⟩
        constructor
        case loops => exact ⟨distance, by rw [loops]; exact decoded, by rw [loops]; exact loops⟩
        case slot => rw [loops]; exact slot
        case idle => rw [loops]; exact idle
        case opcode => exact idle
        case fetched => rw [loops]; exact fetched
        case target => rfl
        case settled => rfl
      · rw [if_neg loops] at ran
        cases ran
        exact ⟨rfl, .inl rfl⟩
    · rw [if_pos idle] at ran
      cases ran

/-- Everything that an instruction which succeeds can do to the hub.

Proof: the fetch says nothing to the hub. After it, there is one case per decoded instruction, and
the two that can fire have lemmas of their own. -/
theorem step_cases {desk : Desk} {after : World H}
    (ran : setting.run depth (step registry) (context, bus) world = (.done (), desk, after)) :
    desk.1.cpu = context.cpu ∧ (after.hub = world.hub ∨
      after.hub = world.hub.heard registry number context.cpu.other .comm ∨
      (after.hub = world.hub.heard registry number context.cpu .startPolling ∧
        desk.2 = bus ∧ Resting bus desk.1 ∧ desk.1.ran = desk.1.cycles)) := by
  obtain ⟨opcode, ⟨reached, noted⟩, fetched, ran⟩ := Program.run_bind_done ran
  rw [fetch_run] at fetched
  cases fetched
  dsimp only at ran
  have still : (world.record (.remark (.fetched context.cpu context.pc))).hub.Lone registry
      number := lone
  cases decoded : decode (word bus context.pc) with
  | idle =>
    rw [decoded] at ran
    obtain ⟨_, stop, stepped, ran⟩ := Program.run_bind_done ran
    obtain ⟨pc, rfl⟩ := stepOver_done stepped
    obtain ⟨consumed, same⟩ := consume_done ran
    cases same
    exact ⟨rfl, .inl rfl⟩
  | load register value =>
    rw [decoded] at ran
    obtain ⟨_, ⟨loaded, stop⟩, adjusted, ran⟩ := Program.run_bind_done ran
    cases adjusted
    obtain ⟨_, stop, stepped, ran⟩ := Program.run_bind_done ran
    obtain ⟨pc, rfl⟩ := stepOver_done stepped
    obtain ⟨consumed, same⟩ := consume_done ran
    cases same
    exact ⟨rfl, .inl rfl⟩
  | store target source =>
    rw [decoded] at ran
    obtain ⟨cpu, quiet | announced⟩ := executeStore_cases setting depth still ran
    · exact ⟨cpu, .inl quiet⟩
    · exact ⟨cpu, .inr (.inl announced)⟩
  | branch distance =>
    rw [decoded] at ran
    obtain ⟨cpu, quiet | reported⟩ := executeBranch_cases setting depth still ran decoded rfl
    · exact ⟨cpu, .inl quiet⟩
    · exact ⟨cpu, .inr (.inr reported)⟩
  | unknown =>
    rw [decoded] at ran
    cases ran

end Steps

section Rest

variable {number : Nat} (setting : Setting H) (depth : Nat) {context : Context} {bus : Bus Ram}
  {world : World H}

/-- A branch to itself with an idle slot, if the fire that reports it comes back.

Proof: the program is run forwards, bind by bind, with the slot and the fire as they are given. -/
theorem executeBranch_self {distance next : UInt32} {sum : Int32} {count : Nat} {after : World H}
    (slot : following? context.pc = some next) (idle : word bus next = idleOpcode)
    (loops : context.pc + 4 + distance = context.pc)
    (spent : Cycles.checkedAdd? context.ran 2 = some sum)
    (fired : (world.record (.remark (.fetched context.cpu next))).fire (setting.deliver depth)
      setting.arrange registry context.cpu .startPolling = (.done count, after)) :
    (executeBranch registry distance : Program H Desk Unit).run (setting.deliver depth)
        setting.arrange (context, bus) world =
      (.done (), ({ context with
        opcode := idleOpcode
        delayPc := context.pc
        delaySlot := false
        ran := context.cycles }, bus), after) := by
  refine (Program.run_bind_of_done context_run).trans ?_
  dsimp only
  rw [slot, loops]
  dsimp only
  change Program.run _ _ ((fetchSlot next).bind _ : Program H Desk Unit)
    ({ context with delayPc := context.pc, delaySlot := true }, bus) world = _
  refine (Program.run_bind_of_done (fetchSlot_run _)).trans ?_
  dsimp only
  rw [idle, if_neg (not_not.mpr rfl)]
  change Program.run _ _ ((consume 2).bind _ : Program H Desk Unit)
    ({ context with opcode := idleOpcode, delayPc := context.pc, delaySlot := false }, bus)
    (world.record (.remark (.fetched context.cpu next))) = _
  have consumed : (consume 2 : Program H Desk Unit).run (setting.deliver depth) setting.arrange
      ({ context with opcode := idleOpcode, delayPc := context.pc, delaySlot := false }, bus)
      (world.record (.remark (.fetched context.cpu next))) = _ :=
    consume_run spent
  refine (Program.run_bind_of_done consumed).trans ?_
  rw [if_pos rfl]
  change Program.run _ _ (.request (.fire registry context.cpu .startPolling) fun _ =>
    adjust fun context => { context with ran := context.cycles, pc := _ } :
      Program H Desk Unit) _ _ = _
  simp only [Program.run, World.answer, fired]
  rfl

/-- A branch to itself leaves a resting context as it is, except for the cycles. -/
theorem Resting.again (resting : Resting bus context) :
    { context with
      opcode := idleOpcode
      fetched := ⟨context.pc, word bus context.pc, .missing⟩
      delayPc := context.pc
      delaySlot := false } = context := by
  have opcode : context.opcode = idleOpcode := resting.opcode
  have fetched : context.fetched = ⟨context.pc, word bus context.pc, .missing⟩ := resting.fetched
  have target : context.delayPc = context.pc := resting.target
  have settled : context.delaySlot = false := resting.settled
  cases context
  simp only at opcode fetched target settled
  subst opcode target settled fetched
  rfl

/-- A resting context goes on resting, whatever its budget and whatever is used of it. -/
theorem Resting.budget (resting : Resting bus context) (cycles ran : Int32) :
    Resting bus { context with cycles := cycles, ran := ran } :=
  ⟨resting.loops, resting.slot, resting.idle, resting.opcode, resting.fetched, resting.target,
    resting.settled⟩

variable (lone : world.hub.Lone registry number)
  (polls : (world.hub.detector number).polling context.cpu = true)
  (resting : Resting bus context) (cycles : Int32)

include lone polls resting

/-- The next instruction of a resting context whose processor polls uses up what was granted, and
changes nothing else. -/
theorem step_of_resting :
    ∃ after, setting.run depth (step registry) (context.grant cycles, bus) world =
        (.done (), ({ context.grant cycles with ran := cycles }, bus), after) ∧
      after.hub = world.hub := by
  obtain ⟨distance, decoded, loops⟩ := resting.loops
  obtain ⟨after, fired, heard⟩ := World.fire_of_lone setting depth
    ((world.record (.remark (.fetched context.cpu context.pc))).record
      (.remark (.fetched context.cpu (context.pc + 2)))) lone context.cpu .startPolling
  refine ⟨after, ?_, heard.trans (Hub.heard_report_of_polling lone.present polls)⟩
  refine (Program.run_bind_of_done fetch_run).trans ?_
  have branch : decode (word bus (context.grant cycles).pc) = .branch distance := decoded
  have spent : Cycles.checkedAdd? 0 2 = some 2 := by decide
  dsimp only
  have again := congrArg (fun context : Context => { context.grant cycles with ran := cycles })
    resting.again
  rw [branch, ← again]
  exact executeBranch_self setting depth resting.slot resting.idle loops spent fired

/-- A turn of a resting context whose processor polls uses up what was granted, and changes
nothing else.

Proof: the first instruction uses up everything that was granted. So the loop has either reached its
bound after it, or sees that no cycles are left. -/
theorem run_of_resting (granted : 0 < cycles.toInt) :
    ∃ after, setting.run depth (run registry) (context.grant cycles, bus) world =
        (.done (), ({ context.grant cycles with ran := cycles }, bus), after) ∧
      after.hub = world.hub := by
  obtain ⟨after, stepped, hub⟩ := step_of_resting setting depth lone polls resting cycles
  refine ⟨after, ?_, hub⟩
  have some : 0 < (context.grant cycles).left.toInt := (Cycles.satSub_pos_iff _ _).mpr granted
  have used : ({ context.grant cycles with ran := cycles } : Context).left.toInt ≤ 0 :=
    Int.not_lt.mp fun more => absurd ((Cycles.satSub_pos_iff _ _).mp more) (Int.lt_irrefl _)
  obtain ⟨bound, enough⟩ : ∃ bound, (context.grant cycles).remaining = bound + 1 :=
    Nat.exists_eq_succ_of_ne_zero (Context.remaining_ne_zero_iff.mpr granted)
  change Program.run _ _ (steps registry (context.grant cycles).remaining) _ _ = _
  rw [enough]
  change Program.run _ _ (ite ((context.grant cycles).left.toInt ≤ 0) _ _) _ _ = _
  rw [if_neg (Int.not_le.mpr some)]
  refine (Program.run_bind_of_done stepped).trans ?_
  cases bound with
  | zero => rfl
  | succ bound =>
    change Program.run _ _
      (ite (({ context.grant cycles with ran := cycles } : Context).left.toInt ≤ 0) _ _) _ _ = _
    rw [if_pos used]
    rfl

end Rest

end Micro

end Sh2Pair
