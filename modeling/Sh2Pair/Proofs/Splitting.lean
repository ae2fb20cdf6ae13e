import Sh2Pair.Proofs.Requests

/-!
# Splitting a budget

A core that has used up its budget to the cycle and is granted another one goes on as if it had had
both from the beginning. The cycle counts do not enter what an instruction does: with other counts
that leave room for its cycles, it fetches, stores and announces the same, and consumes the same.

The exception is a branch to itself. It uses up whatever budget there is. So a run with both budgets
ends with it, while a run with the first one only leaves a context that rests on the branch, and the
second budget is used up by executing and reporting it once more.
-/

namespace Sh2Pair

variable {H : Host}

/-- The same context with other cycle counts. -/
def Context.paced (context : Context) (cycles ran : Int32) : Context :=
  { context with cycles := cycles, ran := ran }

namespace Micro

/-- The instruction at the program counter is a branch to itself. -/
def Spins (read : UInt32 → UInt16) (context : Context) : Prop :=
  ∃ distance, decode (read context.pc) = .branch distance ∧
    context.pc + 4 + distance = context.pc

/-- The last one of some instructions is a branch to itself. -/
def EndsSpinning (moments : List (Moment H)) : Prop :=
  ∃ last, moments.getLast? = some last ∧ Spins (word last.1.2) last.1.1

instance (read : UInt32 → UInt16) (context : Context) : Decidable (Spins read context) :=
  match decoded : decode (read context.pc) with
  | .branch distance =>
    decidable_of_iff (context.pc + 4 + distance = context.pc) (by simp [Spins, decoded])
  | .idle => .isFalse (by simp [Spins, decoded])
  | .load .. => .isFalse (by simp [Spins, decoded])
  | .store .. => .isFalse (by simp [Spins, decoded])
  | .unknown => .isFalse (by simp [Spins, decoded])

instance (moments : List (Moment H)) : Decidable (EndsSpinning moments) :=
  decidable_of_iff
    (moments.getLast?.any fun last => decide (Spins (word last.1.2) last.1.1))
    (by simp [EndsSpinning, Option.any_eq_true])

section Strides

variable {read : UInt32 → UInt16} {context : Context} {cycles ran : Int32} {offset : Int}

/-- A count that is ahead of another one stays so when both grow. -/
theorem checkedAdd?_ahead {count other cost sum : Int32}
    (ahead : other.toInt = count.toInt + offset)
    (added : Cycles.checkedAdd? count cost = some sum)
    (begun : 0 ≤ other.toInt) (positive : 0 ≤ cost.toInt)
    (room : other.toInt + cost.toInt ≤ Cycles.greatest) :
    ∃ total, Cycles.checkedAdd? other cost = some total ∧
      total.toInt = sum.toInt + offset := by
  have fits : Cycles.checkedAdd? other cost = some (Int32.ofInt (other.toInt + cost.toInt)) := by
    refine if_pos ⟨?_, room⟩
    simp only [Cycles.least]
    omega
  refine ⟨_, fits, ?_⟩
  have exactSum : count.toInt + cost.toInt = sum.toInt := Cycles.checkedAdd?_eq_some_iff.mp added
  have exactTotal : other.toInt + cost.toInt = (Int32.ofInt (other.toInt + cost.toInt)).toInt :=
    Cycles.checkedAdd?_eq_some_iff.mp fits
  omega

/-- A context goes on to the next instruction if there is one and the cycles can be counted. -/
theorem advance_eq (context : Context) {pc : UInt32} {sum : Int32}
    (next : following? context.pc = some pc)
    (added : Cycles.checkedAdd? context.ran 1 = some sum) :
    advance context = ({ context with pc := pc, ran := sum }, none) := by
  simp only [advance, next, added]

/-- An instruction of one cycle that has no fault has somewhere to go, and room for its cycle. -/
theorem of_advance {context : Context} (whole : (advance context).2 = none) :
    ∃ pc sum, following? context.pc = some pc ∧
      Cycles.checkedAdd? context.ran 1 = some sum := by
  revert whole
  rw [advance]
  cases following? context.pc with
  | none => simp
  | some pc =>
    cases Cycles.checkedAdd? context.ran 1 with
    | none => simp
    | some sum => exact fun _ => ⟨pc, sum, rfl, rfl⟩

/-- What the stride of a context with other cycle counts differs in. What it leaves is as far ahead
as before, except that a branch to itself uses up whatever budget there is. -/
structure Stride.Keeps (stride paced : Stride) (spins : Prop) (cycles : Int32) (offset : Int) :
    Prop where
  fetched : paced.fetched = stride.fetched
  stored : paced.stored = stride.stored
  announced : paced.announced = stride.announced
  held : paced.held.cpu = stride.held.cpu
  whole : paced.fault = none
  context : ∃ left, paced.context = stride.context.paced cycles left ∧
    (spins → left = cycles) ∧ (¬ spins → left.toInt = stride.context.ran.toInt + offset)

variable (ahead : ran.toInt = context.ran.toInt + offset) (begun : 0 ≤ ran.toInt)
  (room : ran.toInt + 2 ≤ Cycles.greatest)

include ahead begun room

variable (context) in
/-- An instruction that goes on to the next one does so with other cycle counts, too. -/
theorem Stride.pass_keeps {spins : Prop} (elsewhere : ¬ spins) (address : UInt32)
    (stored : Option (UInt32 × UInt32)) (announced : Option (Cpu × Event))
    (whole : (Stride.pass address stored announced context).fault = none) :
    (pass address stored announced context).Keeps
      (pass address stored announced (context.paced cycles ran)) spins cycles offset := by
  obtain ⟨pc, sum, next, added⟩ := of_advance whole
  obtain ⟨left, spent, same⟩ := checkedAdd?_ahead ahead added begun (by decide)
    (Int.le_trans (Int.add_le_add_left (by decide) _) room)
  have goes : advance (context.paced cycles ran) = _ := advance_eq (context.paced _ _)
    next spent
  constructor
  case fetched => rfl
  case stored => rfl
  case announced => rfl
  case held => rfl
  case whole => rw [pass, goes]
  case context =>
    refine ⟨left, ?_, fun here => absurd here elsewhere, fun _ => ?_⟩
    · rw [pass, pass, goes, advance_eq context next added]
      rfl
    · rw [pass, advance_eq context next added]
      exact same

variable (context) in
/-- A jump is a jump with other cycle counts, too, and one to itself uses up the budget. -/
theorem Stride.jump_keeps (fetched : List UInt32) (target : UInt32)
    (whole : (Stride.jump fetched target context).fault = none) :
    (jump fetched target context).Keeps (jump fetched target (context.paced cycles ran))
      (target = context.pc) cycles offset := by
  obtain ⟨sum, added⟩ := spent_of_jump whole
  obtain ⟨left, spent, same⟩ := checkedAdd?_ahead ahead added begun (by decide) room
  have fits : Cycles.checkedAdd? (context.paced cycles ran).ran 2 = some left := spent
  by_cases loops : target = context.pc
  · subst loops
    have round : jump fetched context.pc (context.paced cycles ran) = _ := jump_self fits fetched
    rw [round, jump_self added]
    exact ⟨rfl, rfl, rfl, rfl, rfl, cycles, rfl, fun _ => rfl, fun away => absurd rfl away⟩
  · have away : ¬ target = (context.paced cycles ran).pc := loops
    simp only [jump, added, fits, if_neg loops, if_neg away]
    exact ⟨rfl, rfl, rfl, rfl, rfl, left, rfl, fun here => absurd here loops, fun _ => same⟩

variable (cycles) in
/-- An instruction that has no fault does the same with other cycle counts that leave room for two
cycles.

Proof: one case per instruction. Each consumes its cycles from either count, and the counts do not
saturate, as there is room for two cycles. -/
theorem stride_keeps (whole : (stride read context).fault = none) :
    (stride read context).Keeps (stride read (context.paced cycles ran)) (Spins read context) cycles
      offset := by
  revert whole
  have same : (context.paced cycles ran).pc = context.pc := rfl
  rw [stride, stride, same]
  cases decoded : decode (read context.pc) with
  | idle =>
    exact Stride.pass_keeps (fetching context (read context.pc)) ahead begun room
      (by simp [Spins, decoded]) _ _ _
  | load register value =>
    exact Stride.pass_keeps ((fetching context (read context.pc)).setReg register value)
      ahead begun room (by simp [Spins, decoded]) _ _ _
  | store target source =>
    exact Stride.pass_keeps (fetching context (read context.pc)) ahead begun room
      (by simp [Spins, decoded]) _ _ _
  | branch distance =>
    have spins : Spins read context ↔ context.pc + 4 + distance = context.pc := by
      simp [Spins, decoded]
    dsimp only
    rw [spins]
    cases next : following? context.pc with
    | none =>
      intro whole
      cases whole
    | some slot =>
      dsimp only
      by_cases idle : read slot = idleOpcode
      · rw [if_pos idle, if_pos idle]
        exact Stride.jump_keeps ({ slotting (fetching context (read context.pc))
          (context.pc + 4 + distance) (read slot) with delaySlot := false }) ahead begun room _ _
      · rw [if_neg idle]
        intro whole
        cases whole
  | unknown =>
    intro whole
    cases whole

end Strides

/-- What comes back with other cycle counts is the same, too.

Proof: the strides store, announce and note the same, so the listeners are told the same in the same
world. -/
theorem Stride.Keeps.carryOut {stride paced : Stride} {spins : Prop} {cycles : Int32}
    {offset : Int} (keeps : stride.Keeps paced spins cycles offset) (whole : stride.fault = none)
    {deliver : Delivery H} {arrange : Nat → List Listener → List Listener} {registry : Nat}
    {bus : Bus Ram} {world : World H} {reached : Desk × World H}
    (ran : stride.carryOut deliver arrange registry bus world = (.done (), reached)) :
    paced.carryOut deliver arrange registry bus world =
      (.done (), (paced.context, reached.1.2), reached.2) := by
  have put : paced.put bus = stride.put bus := by rw [put, Stride.put, keeps.stored, keeps.held]
  have noted : paced.noted bus world = stride.noted bus world := by
    simp only [Stride.noted, notes, storeNotes, keeps.fetched, keeps.stored, keeps.held]
  rw [Stride.carryOut, announce, outcome, whole] at ran
  rw [Stride.carryOut, announce, outcome, keeps.announced, keeps.whole, put, noted]
  cases announced : stride.announced with
  | none =>
    rw [announced] at ran
    cases ran
    rfl
  | some told =>
    rw [announced] at ran
    dsimp only at ran ⊢
    cases fired : (stride.noted bus world).fire deliver arrange registry told.1 told.2 with
    | mk outcome after =>
    rw [fired] at ran
    cases outcome with
    | done count =>
      cases ran
      rfl
    | panicked cause => cases ran
    | exhausted => cases ran

section Runs

variable (setting : Setting H) (depth registry : Nat) {context : Context} {bus : Bus Ram}
  {world : World H} {cycles ran : Int32} {offset : Int}

/-- An instruction that comes back leaves what its stride says, and has no fault. -/
theorem desk_of_step {desk : Desk} {after : World H}
    (stepped : setting.run depth (step registry) (context, bus) world = (.done (), desk, after)) :
    (stride (word bus) context).fault = none ∧
      desk = ((stride (word bus) context).context, (stride (word bus) context).put bus) := by
  obtain ⟨whole, left⟩ :=
    @whole_of_step H setting depth registry ((context, bus), world) _ stepped
  have kept : (setting.run depth (step registry) (context, bus) world).2.1.2 =
      (Outcome.done (), desk, after).2.1.2 := congrArg (fun result => result.2.1.2) stepped
  rw [Setting.run, step_run, Stride.carryOut, Stride.announce_bus] at kept
  exact ⟨whole, Prod.ext left kept.symm⟩

variable (cycles) in
/-- An instruction that comes back does the same with other cycle counts, if these leave room for
two cycles. -/
theorem step_paced (ahead : ran.toInt = context.ran.toInt + offset) (begun : 0 ≤ ran.toInt)
    (room : ran.toInt + 2 ≤ Cycles.greatest) {reached : Desk × World H}
    (stepped : setting.run depth (step registry) (context, bus) world = (.done (), reached)) :
    setting.requests depth (step registry) (context.paced cycles ran, bus) world =
        setting.requests depth (step registry) (context, bus) world ∧
      ∃ left, setting.run depth (step registry) (context.paced cycles ran, bus) world =
          (.done (), (reached.1.1.paced cycles left, reached.1.2), reached.2) ∧
        (Spins (word bus) context → left = cycles) ∧
        (¬ Spins (word bus) context → left.toInt = reached.1.1.ran.toInt + offset) := by
  obtain ⟨desk, after⟩ := reached
  obtain ⟨whole, rfl⟩ := desk_of_step setting depth registry stepped
  have keeps : (stride (word bus) context).Keeps (stride (word bus) (context.paced cycles ran))
      (Spins (word bus) context) cycles offset := stride_keeps cycles ahead begun room whole
  obtain ⟨left, same, spinning, going⟩ := keeps.context
  rw [Setting.run, step_run] at stepped
  have carried : (stride (word bus) (context.paced cycles ran)).carryOut (setting.deliver depth)
      setting.arrange registry bus world =
        (.done (), ((stride (word bus) (context.paced cycles ran)).context, _), after) :=
    keeps.carryOut whole stepped
  rw [same] at carried
  refine ⟨?_, left, ?_, spinning, going⟩
  · rw [Setting.requests, Setting.requests, requests_step, requests_step, keeps.announced]
  · rw [Setting.run, step_run]
    exact carried

/-- A branch to itself that comes back has used up its budget. -/
theorem ran_of_spins (begun : 0 ≤ context.ran.toInt)
    (room : context.ran.toInt + 2 ≤ Cycles.greatest) {reached : Desk × World H}
    (spins : Spins (word bus) context)
    (stepped : setting.run depth (step registry) (context, bus) world = (.done (), reached)) :
    reached.1.1.ran = context.cycles := by
  obtain ⟨_, left, same, spinning, _⟩ := step_paced setting depth registry context.cycles
    (Int.add_zero _).symm begun room stepped
  have unchanged : context.paced context.cycles context.ran = context := rfl
  rw [unchanged, stepped] at same
  have consumed : reached.1.1.ran = left :=
    congrArg (fun result => result.2.1.1.ran) same
  rw [consumed, spinning spins]

/-- So a run that begins with one is over when that comes back. -/
theorem run_of_spins (begun : 0 ≤ context.ran.toInt)
    (remains : context.ran.toInt < context.cycles.toInt)
    (room : context.ran.toInt + 2 ≤ Cycles.greatest) {reached : Desk × World H}
    (spins : Spins (word bus) context)
    (stepped : setting.run depth (step registry) (context, bus) world = (.done (), reached)) :
    setting.run depth (run registry) (context, bus) world = (.done (), reached) ∧
      instructions setting depth registry (context, bus) world = [((context, bus), world)] ∧
      setting.requests depth (run registry) (context, bus) world =
        setting.requests depth (step registry) (context, bus) world := by
  obtain ⟨goesOn, listed, asked⟩ :=
    run_of_step setting depth registry (context, bus) world remains stepped
  obtain ⟨kept, _⟩ := @progress H setting depth registry _ (context, bus) world remains stepped
  have all : reached.1.1.ran = context.cycles :=
    ran_of_spins setting depth registry begun room spins stepped
  obtain ⟨halts, nothing, silent⟩ :=
    run_of_spent setting depth registry reached.1 reached.2 (by rw [kept, all])
  rw [nothing] at listed
  rw [silent, List.append_nil] at asked
  exact ⟨goesOn.trans halts, listed, asked⟩

/-- An instruction in front of others that is no branch to itself does not matter for how they end.
-/
theorem endsSpinning_cons (moment : Moment H) (straight : ¬ Spins (word moment.1.2) moment.1.1)
    (later : List (Moment H)) : EndsSpinning (moment :: later) ↔ EndsSpinning later := by
  cases later with
  | nil => simp [EndsSpinning, straight]
  | cons next others => simp [EndsSpinning, List.getLast?_cons]

/-- A run with other cycle counts, which is ahead and has some slack besides, does what the run
without does. If that one ends with a branch to itself, it ends there, too. Otherwise it goes on
from there as a run with what it has left.

Proof: by strong induction on what the run without has left. If nothing is left, it ends at once,
and the other run goes on with its slack. Otherwise both execute the same instruction. A branch to
itself uses up either budget, and both runs end there. Any other instruction leaves less for the
induction. -/
theorem run_paced {slack : Int} (forward : 0 ≤ offset) (wide : 0 ≤ slack)
    (small : cycles.toInt + 1 ≤ Cycles.greatest) (bound : Nat)
    (measure : context.cycles.toInt - context.ran.toInt ≤ bound)
    (begun : 0 ≤ context.ran.toInt) (ahead : ran.toInt = context.ran.toInt + offset)
    (budget : cycles.toInt = context.cycles.toInt + offset + slack) {desk : Desk} {after : World H}
    (ended : setting.run depth (run registry) (context, bus) world = (.done (), desk, after)) :
    let requests := setting.requests depth (run registry)
    let ends := EndsSpinning (instructions setting depth registry (context, bus) world)
    (ends → setting.run depth (run registry) (context.paced cycles ran, bus) world =
        (.done (), (desk.1.paced cycles cycles, desk.2), after) ∧
      requests (context.paced cycles ran, bus) world = requests (context, bus) world) ∧
    (¬ ends → ∃ left, left.toInt = desk.1.ran.toInt + offset ∧
      setting.run depth (run registry) (context.paced cycles ran, bus) world =
        setting.run depth (run registry) (desk.1.paced cycles left, desk.2) after ∧
      requests (context.paced cycles ran, bus) world =
        requests (context, bus) world ++ requests (desk.1.paced cycles left, desk.2) after) := by
  intro requests ends
  induction bound using Nat.strong_induction_on generalizing context bus world ran with
  | _ bound inductionHypothesis =>
  by_cases spent : context.cycles.toInt ≤ context.ran.toInt
  · obtain ⟨halts, nothing, silent⟩ :=
      run_of_spent setting depth registry (context, bus) world spent
    cases halts.symm.trans ended
    refine ⟨?_, fun _ => ⟨ran, ahead, rfl, ?_⟩⟩
    · rintro ⟨last, final, _⟩
      rw [nothing] at final
      cases final
    · exact (congrArg (· ++ requests (context.paced cycles ran, bus) _) silent).symm
  · have remains : context.ran.toInt < context.cycles.toInt := Int.not_le.mp spent
    obtain ⟨reached, stepped⟩ :=
      step_of_run setting depth registry (context, bus) world remains ended
    obtain ⟨alike, left, stepped', spinning, going⟩ := step_paced setting depth registry
      cycles ahead (by omega) (by omega) stepped
    have begun' : 0 ≤ (context.paced cycles ran).ran.toInt := by
      change 0 ≤ ran.toInt
      omega
    have remains' : (context.paced cycles ran).ran.toInt <
        (context.paced cycles ran).cycles.toInt := by
      change ran.toInt < cycles.toInt
      omega
    by_cases spins : Spins (word bus) context
    · obtain ⟨whole, listed, asked⟩ :=
        run_of_spins setting depth registry begun remains (by omega) spins stepped
      obtain ⟨whole', _, asked'⟩ := run_of_spins setting depth registry begun' remains'
        (show ran.toInt + 2 ≤ _ by omega) spins stepped'
      cases whole.symm.trans ended
      have here : ends := ⟨((context, bus), world), by rw [listed]; rfl, spins⟩
      rw [spinning spins] at whole'
      exact ⟨fun _ => ⟨whole', asked'.trans (alike.trans asked.symm)⟩,
        fun never => absurd here never⟩
    · obtain ⟨goesOn, listed, asked⟩ :=
        run_of_step setting depth registry (context, bus) world remains stepped
      obtain ⟨goesOn', _, asked'⟩ :=
        run_of_step setting depth registry (context.paced cycles ran, bus) world remains'
          stepped'
      obtain ⟨kept, consumed⟩ :=
        @progress H setting depth registry _ (context, bus) world remains stepped
      have straight : ends ↔
          EndsSpinning (instructions setting depth registry reached.1 reached.2) := by
        rw [← endsSpinning_cons ((context, bus), world) spins, ← listed]
      have budget' : reached.1.1.cycles.toInt = (context, bus).1.cycles.toInt :=
        congrArg Int32.toInt kept
      dsimp only at budget' consumed
      rw [alike] at asked'
      rw [goesOn] at ended
      obtain ⟨stops, passes⟩ := @inductionHypothesis (bound - 1) (by omega) reached.1.1
        reached.1.2 reached.2 left (by omega) (by omega) (going spins) (by omega) ended
      rw [straight]
      constructor
      · intro here
        obtain ⟨same, silent⟩ := stops here
        exact ⟨goesOn'.trans same, asked'.trans ((congrArg (_ ++ ·) silent).trans asked.symm)⟩
      · intro away
        obtain ⟨last, further, same, silent⟩ := passes away
        refine ⟨last, further, goesOn'.trans same, ?_⟩
        refine asked'.trans ((congrArg (_ ++ ·) silent).trans ?_)
        rw [← List.append_assoc]
        exact congrArg (· ++ _) asked.symm

/-- A run that comes back has used up what it could. -/
theorem spent_of_run {desk : Desk} {after : World H}
    (ended : setting.run depth (run registry) (context, bus) world = (.done (), desk, after)) :
    context.cycles.toInt ≤ desk.1.ran.toInt := by
  rw [run_eq_steps] at ended
  exact (spent_of_steps setting depth registry (Int.self_le_toNat _) ended).2

/-- A run that ends with a branch to itself has used up its budget to the cycle. -/
theorem ran_of_endsSpinning (begun : 0 ≤ context.ran.toInt)
    (small : context.cycles.toInt + 1 ≤ Cycles.greatest) {desk : Desk} {after : World H}
    (spinning : EndsSpinning (instructions setting depth registry (context, bus) world))
    (ended : setting.run depth (run registry) (context, bus) world = (.done (), desk, after)) :
    desk.1.ran = context.cycles := by
  obtain ⟨same, _⟩ := (run_paced setting depth registry (Int.le_refl 0) (Int.le_refl 0) small
    (context.cycles.toInt - context.ran.toInt).toNat (Int.self_le_toNat _) begun
    (Int.add_zero _).symm (by omega) ended).1 spinning
  have unchanged : context.paced context.cycles context.ran = context := rfl
  rw [unchanged, ended] at same
  exact congrArg (fun result => result.2.1.1.ran) same

/-- A run that is ahead of another one, without any slack, does the same.

Proof: by `run_paced` without slack. A run that ends otherwise than with a branch to itself has used
up its budget, so the run that is left has nothing to do. -/
theorem run_ahead (forward : 0 ≤ offset) (small : cycles.toInt + 1 ≤ Cycles.greatest)
    (begun : 0 ≤ context.ran.toInt) (ahead : ran.toInt = context.ran.toInt + offset)
    (budget : cycles.toInt = context.cycles.toInt + offset) {desk : Desk} {after : World H}
    (ended : setting.run depth (run registry) (context, bus) world = (.done (), desk, after)) :
    setting.requests depth (run registry) (context.paced cycles ran, bus) world =
        setting.requests depth (run registry) (context, bus) world ∧
      ∃ left, left.toInt = desk.1.ran.toInt + offset ∧
        setting.run depth (run registry) (context.paced cycles ran, bus) world =
          (.done (), (desk.1.paced cycles left, desk.2), after) := by
  obtain ⟨stops, passes⟩ := run_paced setting depth registry forward (Int.le_refl 0) small
    (context.cycles.toInt - context.ran.toInt).toNat (Int.self_le_toNat _) begun ahead
    (budget.trans (Int.add_zero _).symm) ended
  by_cases spins : EndsSpinning (instructions setting depth registry (context, bus) world)
  · obtain ⟨same, asked⟩ := stops spins
    have used : desk.1.ran = context.cycles :=
      ran_of_endsSpinning setting depth registry begun (by omega) spins ended
    exact ⟨asked, cycles, by rw [used]; exact budget, same⟩
  · obtain ⟨left, further, same, asked⟩ := passes spins
    have spent : context.cycles.toInt ≤ desk.1.ran.toInt :=
      spent_of_run setting depth registry ended
    obtain ⟨halts, _, silent⟩ := run_of_spent setting depth registry
      (desk.1.paced cycles left, desk.2) after
      (show cycles.toInt ≤ left.toInt by omega)
    rw [silent, List.append_nil] at asked
    exact ⟨asked, left, further, same.trans halts⟩

/-- A run that begins on a branch to itself reports polling and uses up its budget.

Proof: a resting context stands on a branch to itself, which spends whatever was granted. -/
theorem run_from_rest (resting : Resting bus context) (begun : 0 < cycles.toInt) {desk : Desk}
    {after : World H} (ended : setting.run depth (run registry) (context.grant cycles, bus) world =
      (.done (), desk, after)) :
    desk = (context.paced cycles cycles, bus) ∧
      setting.requests depth (run registry) (context.grant cycles, bus) world =
        [.fire registry context.cpu .startPolling] := by
  have room : Cycles.checkedAdd? 0 2 = some 2 := by decide
  have spent : Cycles.checkedAdd? (context.grant cycles).ran 2 = some 2 := room
  have rests : Resting bus (context.grant cycles) := resting.budget cycles 0
  have jumps : stride (word bus) (context.grant cycles) = _ :=
    (stride_of_resting rests).trans (jump_self spent _)
  have fresh : 0 ≤ (context.grant cycles).ran.toInt := Int.le_refl 0
  obtain ⟨reached, stepped⟩ :=
    step_of_run setting depth registry (context.grant cycles, bus) world begun ended
  have fits : (context.grant cycles).ran.toInt + 2 ≤ Cycles.greatest :=
    (by decide : (0 : Int32).toInt + 2 ≤ Cycles.greatest)
  obtain ⟨whole, _, asked⟩ :=
    run_of_spins setting depth registry fresh begun fits rests.loops stepped
  cases whole.symm.trans ended
  obtain ⟨_, left⟩ := desk_of_step setting depth registry stepped
  rw [jumps] at left
  rw [asked, Setting.requests, requests_step, jumps]
  exact ⟨left, rfl⟩

/-- The stride of a branch to itself that has no fault. -/
theorem stride_of_spins {read : UInt32 → UInt16} (spins : Spins read context)
    (whole : (stride read context).fault = none) :
    ∃ slot held left, stride read context =
      ⟨[context.pc, slot], none, some (context.cpu, .startPolling), held, left, none⟩ := by
  obtain ⟨distance, branch, loops⟩ := spins
  revert whole
  rw [stride, branch]
  cases following? context.pc with
  | none =>
    intro whole
    cases whole
  | some slot =>
    dsimp only
    by_cases idle : read slot = idleOpcode
    · rw [if_pos idle, loops]
      intro whole
      obtain ⟨sum, added⟩ := spent_of_jump whole
      exact ⟨slot, _, _, jump_self added _⟩
    · rw [if_neg idle]
      intro whole
      cases whole

/-- So a run that ends with a branch to itself leaves a context that rests on it. -/
theorem resting_of_endsSpinning {start desk : Desk} {after : World H}
    (spinning : EndsSpinning (instructions setting depth registry start world))
    (ended : setting.run depth (run registry) start world = (.done (), desk, after)) :
    Resting desk.2 desk.1 := by
  obtain ⟨⟨⟨here, bus⟩, between⟩, final, spins⟩ := spinning
  rw [run_eq_steps, run_eq_last, ← instructions, final] at ended
  obtain ⟨whole, rfl⟩ := desk_of_step setting depth registry ended
  obtain ⟨slot, held, left, same⟩ := stride_of_spins spins whole
  have kept : (stride (word bus) here).put bus = bus := by
    rw [same]
    rfl
  have announced : (stride (word bus) here).announced = some (here.cpu, .startPolling) := by
    rw [same]
  rcases announced_cases announced with ⟨_, other⟩ | ⟨_, _, _, _, rests⟩
  · cases other
  · rw [kept]
    exact rests

end Runs

/-- Take any memory, any context and any listeners. If a run with one budget comes back and has used
it up to the cycle, and a run that goes on with another one comes back, then a run with both of them
at once comes back, too. It has consumed as much as the two together, and leaves the same memory,
and the same context but for the cycle counts. It also fires the same events, one after the other,
and leaves the same world. The exception is a first part that ended with a branch to itself: then
the other part does nothing but report polling once more, and the run with both budgets ends where
the first part did.

Proof: the run with both budgets is the first part, paced with the second budget as slack. Where the
first part ends with a branch to itself, both end there by `run_paced`, and the second part only
repeats the report. Otherwise `run_paced` leads to a run that is ahead by the first budget, and by
`run_ahead` this one is the second part. -/
theorem run_eq_split (setting : Setting H) (depth registry : Nat) (context : Context)
    (bus : Bus Ram) (world : World H) {first second : Int32} (one : 1 ≤ first.toInt)
    (other : 1 ≤ second.toInt) (small : first.toInt + second.toInt < 2 ^ 31 - 1)
    {middle last : Desk} {between after : World H}
    (begins : setting.run depth (run registry) (context.grant first, bus) world =
      (.done (), middle, between))
    (exactly : middle.1.ran = first)
    (goesOn : setting.run depth (run registry) (middle.1.grant second, middle.2) between =
      (.done (), last, after)) :
    let spins := EndsSpinning (instructions setting depth registry (context.grant first, bus) world)
    let requests := setting.requests depth (run registry)
    let split := requests (context.grant first, bus) world ++
      requests (middle.1.grant second, middle.2) between
    let single := requests (context.grant (first + second), bus) world
    ∃ whole finish, setting.run depth (run registry) (context.grant (first + second), bus) world =
        (.done (), whole, finish) ∧
      whole.1.ran.toInt = first.toInt + last.1.ran.toInt ∧
      last.1 = whole.1.paced last.1.cycles last.1.ran ∧
      last.2 = whole.2 ∧
      (¬ spins → split = single ∧ finish = after) ∧
      (spins → split = single ++ [.fire registry context.cpu .startPolling] ∧
        finish = between) := by
  intro spins requests split single
  have sum : (first + second).toInt = first.toInt + second.toInt := by
    rw [Int32.toInt_add]
    exact Int.bmod_eq_of_le (by omega) (by omega)
  have room : (first + second).toInt + 1 ≤ Cycles.greatest := by
    simp only [Cycles.greatest]
    omega
  -- The run with both budgets starts level with the first part, and has the second one besides.
  have start : (0 : Int32).toInt = (context.grant first).ran.toInt + 0 := rfl
  have budget : (first + second).toInt = (context.grant first).cycles.toInt + 0 + second.toInt := by
    rw [Int.add_zero]
    exact sum
  have measure : (context.grant first).cycles.toInt - (context.grant first).ran.toInt ≤
      (first.toInt.toNat : Int) := by
    change first.toInt - 0 ≤ _
    omega
  obtain ⟨stops, passes⟩ := run_paced setting depth registry (Int.le_refl 0)
    (Int.le_trans (by decide) other) room _ measure (Int.le_refl 0) start budget begins
  by_cases here : spins
  · obtain ⟨same, asked⟩ := stops here
    have rests : Resting middle.2 middle.1 :=
      resting_of_endsSpinning setting depth registry here begins
    obtain ⟨rfl, reports⟩ := run_from_rest setting depth registry rests (by omega) goesOn
    have own : middle.1.cpu = context.cpu := by
      have kept : (setting.run depth (run registry) (context.grant first, bus) world).2.1.1.fixed =
          (context.grant first, bus).1.fixed :=
        fixed_run setting depth registry (context.grant first, bus) world
      rw [begins] at kept
      exact congrArg (fun fixed => fixed.1.1) kept
    refine ⟨_, _, same, sum, rfl, rfl, fun never => absurd here never, fun _ => ⟨?_, rfl⟩⟩
    rw [← own, ← reports]
    exact congrArg (· ++ _) asked.symm
  · obtain ⟨left, further, same, asked⟩ := passes here
    rw [exactly, Int.add_zero] at further
    have fresh : 0 ≤ (middle.1.grant second).ran.toInt := Int.le_refl 0
    have ahead : left.toInt = (middle.1.grant second).ran.toInt + first.toInt :=
      further.trans (Int.zero_add _).symm
    have level : (first + second).toInt = (middle.1.grant second).cycles.toInt + first.toInt :=
      sum.trans (Int.add_comm _ _)
    obtain ⟨again, total, further', same'⟩ := run_ahead setting depth registry
      (Int.le_trans (by decide) one) room fresh ahead level goesOn
    refine ⟨_, _, same.trans same', further'.trans (Int.add_comm _ _), rfl, rfl,
      fun _ => ⟨?_, rfl⟩, fun spinning => absurd spinning here⟩
    exact (congrArg (_ ++ ·) again).symm.trans asked.symm

/-- A program that writes the communication register and then branches to itself. -/
def reporting : Bus Ram :=
  .plain ⟨0, #[0xe1, 0x20, 0x21, 0x12, 0xaf, 0xfe, 0, 9] ++ Array.replicate 32 0, []⟩

/-- Three cycles and then two of this program report polling once more than five do. -/
theorem run_eq_split_of_reporting :
    let start := Context.fresh .master false
    let world := World.initial (H := ⟨Unit, Unit⟩) ()
    let part := Setting.still.run 0 (run 0) (start.grant 3, reporting) world
    let rest := Setting.still.run 0 (run 0) (part.2.1.1.grant 2, part.2.1.2) part.2.2
    part.1 = .done () ∧ part.2.1.1.ran = 3 ∧ rest.1 = .done () ∧ rest.2.1.1.ran = 2 ∧
      EndsSpinning (instructions Setting.still 0 0 (start.grant 3, reporting) world) ∧
      ∃ whole finish, Setting.still.run 0 (run 0) (start.grant (3 + 2), reporting) world =
          (.done (), whole, finish) ∧
        whole.1.ran.toInt = 5 ∧ finish.fires = 2 ∧ rest.2.2.fires = 3 ∧
        Setting.still.requests 0 (run 0) (start.grant 3, reporting) world ++
            Setting.still.requests 0 (run 0) (part.2.1.1.grant 2, part.2.1.2) part.2.2 =
          Setting.still.requests 0 (run 0) (start.grant (3 + 2), reporting) world ++
            [.fire 0 .master .startPolling] := by
  intro start world part rest
  have begins : part.1 = .done () := by decide +kernel
  have exactly : part.2.1.1.ran = 3 := by decide +kernel
  have goesOn : rest.1 = .done () := by decide +kernel
  have used : rest.2.1.1.ran = 2 := by decide +kernel
  have spins : EndsSpinning (instructions Setting.still 0 0 (start.grant 3, reporting) world) := by
    decide +kernel
  have fires : rest.2.2.fires = 3 := by decide +kernel
  have split : ∀ result : Outcome Unit × Desk × World ⟨Unit, Unit⟩, result.1 = .done () →
      result = (.done (), result.2.1, result.2.2) := fun result done => Prod.ext done rfl
  obtain ⟨whole, finish, ran, sum, _, _, _, reported⟩ := run_eq_split .still 0 0 start reporting
    world (by decide) (by decide) (by decide) (split part begins) exactly (split rest goesOn)
  obtain ⟨asked, here⟩ := reported spins
  refine ⟨begins, exactly, goesOn, used, spins, whole, finish, ?_, ?_, ?_, fires, ?_⟩
  · exact ran
  · rw [sum, used]
    decide
  · rw [here]
    decide +kernel
  · exact asked

end Micro

end Sh2Pair
