import Sh2Pair.Proofs.Announcements
import Sh2Pair.Proofs.Trails

/-!
# Data registers do not steer

Two contexts that agree in control may differ in all their data. The small core lets the registers
decide where it stores and whom it tells about it, but nothing of that comes back to it: what it
fetches next, how many cycles it consumes and whether it panics follows from the control state and
from the words of the program.

So the runs of two such contexts on one memory go through the same instructions, although they leave
different memories and different worlds. This takes listeners that come back, and programs that do
not store into their own words. A run of that kind goes along the trail of its context on the memory
as it was, and the trails of contexts that agree go side by side.
-/

namespace Sh2Pair

variable {H K : Host}

/-- Two contexts agree in all that an instruction goes by: in control, and in the cycle counts. -/
structure Context.Akin (left right : Context) : Prop where
  control : (left.gbr, left.vbr, left.sr, left.mach, left.macl, left.pr) =
    (right.gbr, right.vbr, right.sr, right.mach, right.macl, right.pr)
  cpu : left.cpu = right.cpu
  letter : left.letter = right.letter
  pc : left.pc = right.pc
  delaySlot : left.delaySlot = right.delaySlot
  cycles : left.cycles = right.cycles
  ran : left.ran = right.ran

/-- They agree in what was fetched last, too. -/
structure Context.Abreast (left right : Context) : Prop extends left.Akin right where
  opcode : left.opcode = right.opcode
  fetched : left.fetched = right.fetched

/-- This is the comparison of control states, and of cycle counts besides. -/
theorem Context.akin_iff {left right : Context} :
    left.Akin right ↔ left.sameControl right = true ∧ left.cycles = right.cycles ∧
      left.ran = right.ran := by
  simp only [sameControl, Bool.and_eq_true, beq_iff_eq]
  constructor
  · rintro ⟨control, cpu, letter, pc, delaySlot, cycles, ran⟩
    simp only [Prod.mk.injEq] at control
    simp only [control, cpu, pc, delaySlot, cycles, ran, letter, and_self]
  · rintro ⟨⟨⟨⟨⟨⟨⟨⟨⟨⟨gbr, vbr⟩, sr⟩, mach⟩, macl⟩, pr⟩, pc⟩, delaySlot⟩, cpu⟩, letter⟩, cycles, ran⟩
    exact ⟨by rw [gbr, vbr, sr, mach, macl, pr], cpu, letter, pc, delaySlot, cycles, ran⟩

/-- They stay so when they move to one place and have consumed the same. -/
theorem Context.Abreast.moved {left right : Context} (abreast : left.Abreast right) (pc : UInt32)
    {ran other : Int32} (same : ran = other) :
    Context.Abreast { left with pc := pc, ran := ran } { right with pc := pc, ran := other } :=
  ⟨⟨abreast.control, abreast.cpu, abreast.letter, rfl, abreast.delaySlot, abreast.cycles, same⟩,
    abreast.opcode, abreast.fetched⟩

/-- The data registers have no part in it. -/
theorem Context.Abreast.setReg {left right : Context} (abreast : left.Abreast right)
    (register : Nat) (value : UInt32) :
    (left.setReg register value).Abreast (right.setReg register value) :=
  ⟨⟨abreast.control, abreast.cpu, abreast.letter, abreast.pc, abreast.delaySlot, abreast.cycles,
    abreast.ran⟩, abreast.opcode, abreast.fetched⟩

namespace Micro

/-- What two instructions have in common that start from such contexts. -/
structure Stride.Abreast (first second : Stride) : Prop where
  fault : first.fault = second.fault
  context : first.context.Abreast second.context

section Strides

variable {left right : Context}

/-- Two such contexts pass to the next instruction side by side, whatever they store and announce.
-/
theorem Stride.pass_abreast (abreast : left.Abreast right) (address place : UInt32)
    (stored storedToo : Option (UInt32 × UInt32)) (announced announcedToo : Option (Cpu × Event)) :
    (pass address stored announced left).Abreast (pass place storedToo announcedToo right) := by
  simp only [pass, advance, abreast.pc, abreast.ran]
  cases following? right.pc with
  | none => exact ⟨rfl, abreast⟩
  | some pc =>
    dsimp only
    cases Cycles.checkedAdd? right.ran 1 with
    | none => exact ⟨rfl, abreast.moved pc rfl⟩
    | some ran => exact ⟨rfl, abreast.moved pc rfl⟩

/-- Two such contexts jump side by side. -/
theorem Stride.jump_abreast (abreast : left.Abreast right) (fetched : List UInt32)
    (target : UInt32) : (jump fetched target left).Abreast (jump fetched target right) := by
  simp only [jump, abreast.ran, abreast.pc]
  cases Cycles.checkedAdd? right.ran 2 with
  | none => exact ⟨rfl, abreast⟩
  | some ran =>
    dsimp only
    by_cases loops : target = right.pc
    · rw [if_pos loops, if_pos loops]
      exact ⟨rfl, abreast.moved target abreast.cycles⟩
    · rw [if_neg loops, if_neg loops]
      exact ⟨rfl, abreast.moved target rfl⟩

/-- What an instruction goes by decides what it leaves, and whether it panics.

Proof: the two contexts agree in the program counter, so they fetch the same word and decode the
same instruction. Each instruction moves both contexts alike; for a branch this also needs that the
word in the delay slot is the same. -/
theorem stride_abreast (akin : left.Akin right) (read : UInt32 → UInt16) :
    (stride read left).Abreast (stride read right) := by
  have begun : (fetching left (read right.pc)).Abreast (fetching right (read right.pc)) :=
    ⟨⟨akin.control, akin.cpu, akin.letter, akin.pc, akin.delaySlot, akin.cycles, akin.ran⟩, rfl,
      congrArg (Fetched.mk · _ _) akin.pc⟩
  simp only [stride, akin.pc]
  cases decode (read right.pc) with
  | idle => exact Stride.pass_abreast begun ..
  | load register value => exact Stride.pass_abreast (begun.setReg register value) ..
  | store target source => exact Stride.pass_abreast begun ..
  | unknown => exact ⟨rfl, begun⟩
  | branch distance =>
    dsimp only
    cases following? right.pc with
    | none => exact ⟨rfl, begun⟩
    | some slot =>
      have slotted : ∀ waits, Context.Abreast
          { slotting (fetching left (read right.pc)) (right.pc + 4 + distance) (read slot) with
            delaySlot := waits }
          { slotting (fetching right (read right.pc)) (right.pc + 4 + distance) (read slot) with
            delaySlot := waits } := fun waits =>
        ⟨⟨akin.control, akin.cpu, akin.letter, akin.pc, rfl, akin.cycles, akin.ran⟩, rfl,
          begun.fetched⟩
      dsimp only
      by_cases idle : read slot = idleOpcode
      · rw [if_pos idle, if_pos idle]
        exact Stride.jump_abreast (slotted false) _ _
      · rw [if_neg idle, if_neg idle]
        exact ⟨rfl, slotted true⟩

/-- So the trails of two contexts on the same words go side by side. -/
theorem trail_abreast (akin : left.Akin right) (read : UInt32 → UInt16) (bound : Nat) :
    List.Forall₂ Stride.Abreast (trail read bound left) (trail read bound right) := by
  induction bound generalizing left right with
  | zero => exact .nil
  | succ bound inductionHypothesis =>
    have remains : left.left = right.left := by
      rw [Context.left, Context.left, akin.cycles, akin.ran]
    have next : (stride read left).Abreast (stride read right) := stride_abreast akin read
    rw [trail, trail, remains]
    split
    · exact .nil
    · exact .cons next (inductionHypothesis next.context.toAkin)

end Strides

/-- How the instructions of a trail end, if all announcements come back: with the first fault. -/
def ending : List Stride → Outcome Unit
  | [] => .done ()
  | stride :: later =>
    match stride.fault with
    | none => ending later
    | some cause => .panicked cause

/-- Trails that go side by side end in the same way. -/
theorem ending_abreast {strides others : List Stride}
    (abreast : List.Forall₂ Stride.Abreast strides others) : ending strides = ending others := by
  induction abreast with
  | nil => rfl
  | cons first _ inductionHypothesis => rw [ending, ending, first.fault, inductionHypothesis]

/-- Trails that go side by side lead to contexts that go side by side. -/
theorem finish_abreast {strides others : List Stride} {left right : Context}
    (start : left.Abreast right) (abreast : List.Forall₂ Stride.Abreast strides others) :
    (finish left strides).Abreast (finish right others) := by
  induction abreast generalizing left right with
  | nil => exact start
  | cons first _ inductionHypothesis => exact inductionHypothesis first.context

/-- Once there is an instruction, its fetch is what contexts hold in common, whatever they held
before. -/
theorem finish_trail_abreast {left right : Context} (akin : left.Akin right)
    (remains : 0 < left.left.toInt) (read : UInt32 → UInt16) (bound : Nat) :
    (finish left (trail read (bound + 1) left)).Abreast
      (finish right (trail read (bound + 1) right)) := by
  have same : left.left = right.left := by
    rw [Context.left, Context.left, akin.cycles, akin.ran]
  have next : (stride read left).context.Abreast (stride read right).context :=
    (stride_abreast akin read).context
  have unspent : ¬ right.left.toInt ≤ 0 := same ▸ Int.not_le.mpr remains
  rw [trail, trail, same, if_neg unspent, if_neg unspent]
  change (finish (stride read left).context _).Abreast (finish (stride read right).context _)
  exact finish_abreast next (trail_abreast next.toAkin read bound)

section Runs

variable (setting : Setting H) (depth registry : Nat)

/-- The listeners that the instruction of a moment tells about an event come back. -/
def Answered (moment : Moment H) : Prop :=
  let stride := stride (word moment.1.2) moment.1.1
  ∀ told ∈ stride.announced, ∃ count,
    ((stride.noted moment.1.2 moment.2).fire (setting.deliver depth) setting.arrange registry told.1
      told.2).1 = .done count

/-- The instruction of one moment does not store into the words that the one of another moment
fetches. -/
def SparesCode (storing fetching : Moment H) : Prop :=
  ∀ store ∈ (stride (word storing.1.2) storing.1.1).stored,
    ∀ target ∈ (stride (word fetching.1.2) fetching.1.1).fetched,
      storing.1.2.memory.Spares store.1 target

/-- The listeners of some instructions come back, and none of these stores into a word that one of
them fetches. -/
structure Undisturbed (moments : List (Moment H)) : Prop where
  answered : ∀ moment ∈ moments, Answered setting depth registry moment
  spares : ∀ storing ∈ moments, ∀ fetching ∈ moments, SparesCode storing fetching

instance {α : Type} (outcome : Outcome α) : Decidable (∃ value, outcome = .done value) :=
  match outcome with
  | .done value => .isTrue ⟨value, rfl⟩
  | .panicked _ => .isFalse nofun
  | .exhausted => .isFalse nofun

instance (moment : Moment H) : Decidable (Answered setting depth registry moment) :=
  Option.decidableForallMem _

-- What is searched are the few stores and words of an instruction, not all addresses.
instance (storing fetching : Moment H) : Decidable (SparesCode storing fetching) :=
  @Option.decidableForallMem _ _ (fun _ => List.decidableBAll _ _) _

instance (moments : List (Moment H)) : Decidable (Undisturbed setting depth registry moments) :=
  decidable_of_iff (_ ∧ _) ⟨fun both => ⟨both.1, both.2⟩, fun undisturbed =>
    ⟨undisturbed.answered, undisturbed.spares⟩⟩

variable {setting depth registry} {context : Context} {bus : Bus Ram} {world : World H}

/-- An instruction whose listeners come back is its stride. -/
theorem step_of_answered (answered : Answered setting depth registry ((context, bus), world)) :
    ∃ after, setting.run depth (step registry) (context, bus) world =
      ((stride (word bus) context).outcome,
        ((stride (word bus) context).context, (stride (word bus) context).put bus), after) := by
  rw [Setting.run, step_run, Stride.carryOut, Stride.announce]
  cases announced : (stride (word bus) context).announced with
  | none => exact ⟨_, rfl⟩
  | some told =>
    obtain ⟨count, fired⟩ := answered told announced
    dsimp only at fired ⊢
    cases reached : ((stride (word bus) context).noted bus world).fire (setting.deliver depth)
      setting.arrange registry told.1 told.2 with
    | mk outcome after =>
    rw [reached] at fired
    cases fired
    exact ⟨after, rfl⟩

/-- What is undisturbed is so behind its first instruction. -/
theorem Undisturbed.of_cons {moment : Moment H} {later : List (Moment H)}
    (undisturbed : Undisturbed setting depth registry (moment :: later)) :
    Undisturbed setting depth registry later :=
  ⟨fun moment inside => undisturbed.answered moment (List.mem_cons_of_mem _ inside),
    fun storing inside fetching insideToo => undisturbed.spares storing
      (List.mem_cons_of_mem _ inside) fetching (List.mem_cons_of_mem _ insideToo)⟩

/-- An undisturbed run goes along the trail on any words that are those of the memory wherever one
is fetched: it ends as the trail does, and leaves its context.

Proof: by induction on the bound. The words that the first instruction fetches are as the trail
reads them. A store of an earlier instruction spares the words that later ones fetch, so the rest of
the run goes along the rest of the trail. -/
theorem steps_along {read : UInt32 → UInt16} {bound : Nat}
    (undisturbed : Undisturbed setting depth registry
      (executed setting depth registry bound (context, bus) world))
    (agree : ∀ moment ∈ executed setting depth registry bound (context, bus) world,
      ∀ target ∈ (stride (word moment.1.2) moment.1.1).fetched, read target = word bus target) :
    let result := setting.run depth (steps registry bound) (context, bus) world
    result.1 = ending (trail read bound context) ∧
      (result.1 = .done () → result.2.1.1 = finish context (trail read bound context)) := by
  induction bound generalizing context bus world with
  | zero => exact ⟨rfl, fun _ => rfl⟩
  | succ bound inductionHypothesis =>
    rw [executed] at undisturbed agree
    rw [steps_succ_run, trail]
    by_cases spent : context.left.toInt ≤ 0
    · rw [if_pos spent, if_pos spent]
      exact ⟨rfl, fun _ => rfl⟩
    · rw [if_neg spent] at undisturbed agree
      rw [if_neg spent, if_neg spent]
      have here : stride read context = stride (word bus) context :=
        stride_congr (agree ((context, bus), world) List.mem_cons_self)
      obtain ⟨after, stepped⟩ :=
        step_of_answered (undisturbed.answered ((context, bus), world) List.mem_cons_self)
      rw [stepped] at undisturbed agree
      rw [stepped, here, ending]
      cases fault : (stride (word bus) context).fault with
      | some cause =>
        rw [Stride.outcome, fault]
        refine ⟨rfl, fun came => ?_⟩
        cases came
      | none =>
        simp only [Stride.outcome, fault] at undisturbed agree
        rw [Stride.outcome, fault]
        refine inductionHypothesis undisturbed.of_cons fun moment inside target fetched => ?_
        rw [agree moment (List.mem_cons_of_mem _ inside) target fetched]
        refine (Stride.word_put _ fun store stored => ?_).symm
        exact undisturbed.spares ((context, bus), world) List.mem_cons_self moment
          (List.mem_cons_of_mem _ inside) store stored target fetched

/-- So does a run with a budget, on the words as they were when it began. -/
theorem run_along {budget : Int32} (undisturbed : Undisturbed setting depth registry
      (instructions setting depth registry (context.grant budget, bus) world)) :
    let result := setting.run depth (run registry) (context.grant budget, bus) world
    let strides := trail (word bus) (context.grant budget).remaining (context.grant budget)
    result.1 = ending strides ∧
      (result.1 = .done () → result.2.1.1 = finish (context.grant budget) strides) := by
  rw [run_eq_steps]
  exact steps_along undisturbed fun moment inside target fetched => rfl

end Runs

/-- An ending is a panic or none. -/
theorem ending_cases (strides : List Stride) :
    (∃ cause, ending strides = .panicked cause) ∨ ending strides = .done () := by
  induction strides with
  | nil => exact .inr rfl
  | cons stride later inductionHypothesis =>
    rw [ending]
    cases stride.fault with
    | none => exact inductionHypothesis
    | some cause => exact .inl ⟨cause, rfl⟩

/-- No run changes the control registers other than the program counter, the devices, the processor
and the debug flag of its context, however it ends.

Take two contexts that agree in control, on one memory. Let each be granted the same budget, of one
cycle at least, and run, each with listeners of its own and in a world of its own. If the listeners
come back and no run stores into the words that it fetches, then both runs panic for the same cause,
or both come back. In this case the contexts agree in control again, have consumed the same and hold
the same opcode and the same fetch.

Proof: by `run_along`, each run ends as the trail of its context on the memory that both began with.
The trails read no memory that changes, and they go by what the contexts agree in, so they keep
abreast and end alike. -/
theorem run_of_sameControl (setting : Setting H) (depth registry : Nat) (others : Setting K)
    (reach number : Nat) (bus : Bus Ram) :
    (∀ (context : Context) (world : World H),
      (setting.run depth (run registry) (context, bus) world).2.1.1.fixed = context.fixed) ∧
    ∀ (left right : Context) (budget : Int32) (world : World H) (around : World K),
      left.sameControl right = true → 1 ≤ budget.toInt →
      Undisturbed setting depth registry
        (instructions setting depth registry (left.grant budget, bus) world) →
      Undisturbed others reach number
        (instructions others reach number (right.grant budget, bus) around) →
      let first := setting.run depth (run registry) (left.grant budget, bus) world
      let second := others.run reach (run number) (right.grant budget, bus) around
      (∃ cause, first.1 = .panicked cause ∧ second.1 = .panicked cause) ∨
        (first.1 = .done () ∧ second.1 = .done () ∧
          first.2.1.1.sameControl second.2.1.1 = true ∧
          first.2.1.1.ran = second.2.1.1.ran ∧
          first.2.1.1.opcode = second.2.1.1.opcode ∧
          first.2.1.1.fetched = second.2.1.1.fetched) := by
  refine ⟨fun context world => fixed_run setting depth registry (context, bus) world, ?_⟩
  intro left right budget world around same positive leftRuns rightRuns first second
  have akin : (left.grant budget).Akin (right.grant budget) :=
    Context.akin_iff.mpr ⟨same, rfl, rfl⟩
  obtain ⟨firstEnds, firstLeaves⟩ :
    first.1 = _ ∧ (first.1 = .done () → first.2.1.1 = _) := run_along leftRuns
  obtain ⟨secondEnds, secondLeaves⟩ :
    second.1 = _ ∧ (second.1 = .done () → second.2.1.1 = _) := run_along rightRuns
  have remains : 0 < (Cycles.satSub budget 0).toInt := (Cycles.satSub_pos_iff budget 0).mpr positive
  obtain ⟨bound, enough⟩ : ∃ bound, (left.grant budget).remaining = bound + 1 :=
    Nat.exists_eq_succ_of_ne_zero (Context.remaining_ne_zero_iff.mpr positive)
  have enoughToo : (right.grant budget).remaining = bound + 1 := enough
  rw [enough] at firstEnds firstLeaves
  rw [enoughToo] at secondEnds secondLeaves
  rw [← ending_abreast (trail_abreast akin (word bus) (bound + 1))] at secondEnds
  rcases ending_cases (trail (word bus) (bound + 1) (left.grant budget)) with ⟨cause, ends⟩ | ends
  · exact .inl ⟨cause, firstEnds.trans ends, secondEnds.trans ends⟩
  · have came : first.1 = .done () := firstEnds.trans ends
    have cameToo : second.1 = .done () := secondEnds.trans ends
    have abreast :
        (finish (left.grant budget) (trail (word bus) (bound + 1) (left.grant budget))).Abreast
          (finish (right.grant budget) (trail (word bus) (bound + 1) (right.grant budget))) :=
      finish_trail_abreast akin remains (word bus) bound
    rw [← firstLeaves came, ← secondLeaves cameToo] at abreast
    obtain ⟨control, _, ran⟩ := Context.akin_iff.mp abreast.toAkin
    exact .inr ⟨came, cameToo, control, ran, abreast.opcode, abreast.fetched⟩

/-- A program that stores the register 1 at the address in the register 2, and then branches to
itself. -/
def pointing : Bus Ram :=
  .plain ⟨0, #[0x22, 0x12, 0xaf, 0xfe, 0, 9] ++ Array.replicate 34 0, []⟩

/-- A context with such registers, and with other data that has to do with them. -/
def pointer (place value : UInt32) : Context :=
  { ((Context.fresh .master false).setReg 1 value).setReg 2 place with
    delayPc := place
    devices := some ⟨place.toNat, .word value⟩
    fetched := ⟨place, 0, .missing⟩ }

/-- One of two contexts stores into the communication register and tells the slave about it, and the
other one stores elsewhere. They end up in the same place. -/
theorem run_of_sameControl_of_pointing :
    let left := pointer 0x20 5
    let right := pointer 0x18 7
    let world := World.initial (H := ⟨Unit, Unit⟩) ()
    let first := Setting.still.run 0 (run 0) (left.grant 3, pointing) world
    let second := Setting.still.run 0 (run 0) (right.grant 3, pointing) world
    left.sameControl right = true ∧
      Undisturbed .still 0 0 (instructions .still 0 0 (left.grant 3, pointing) world) ∧
      Undisturbed .still 0 0 (instructions .still 0 0 (right.grant 3, pointing) world) ∧
      first.2.2.fires = 2 ∧ second.2.2.fires = 1 ∧ first.2.1.2.memory ≠ second.2.1.2.memory ∧
      first.1 = .done () ∧ second.1 = .done () ∧ first.2.1.1.sameControl second.2.1.1 = true ∧
      first.2.1.1.ran = second.2.1.1.ran ∧ first.2.1.1.fetched = second.2.1.1.fetched := by
  intro left right world first second
  have same : left.sameControl right = true := by decide +kernel
  have leftRuns : Undisturbed .still 0 0
      (instructions .still 0 0 (left.grant 3, pointing) world) := by decide +kernel
  have rightRuns : Undisturbed .still 0 0
      (instructions .still 0 0 (right.grant 3, pointing) world) := by decide +kernel
  have came : first.1 = .done () := by decide +kernel
  have stores : first.2.1.2.memory.bytes ≠ second.2.1.2.memory.bytes := by decide +kernel
  rcases (run_of_sameControl .still 0 0 .still 0 0 pointing).2 left right 3 world world same
    (by decide) leftRuns rightRuns with ⟨cause, panics, _⟩ | ⟨_, cameToo, control, ran, _, fetched⟩
  · cases came.symm.trans panics
  · subst first second
    exact ⟨same, leftRuns, rightRuns, by decide +kernel, by decide +kernel,
      fun alike => stores (congrArg Ram.bytes alike), came, cameToo, control, ran, fetched⟩

end Micro

end Sh2Pair
