import Sh2Pair.Proofs.Snapshot
import Sh2Pair.Proofs.Strides

/-!
# Which stores are announced

The small core announces `comm` to the other processor when the register that a store goes through
holds exactly the address of the communication register. The bus drives the store at the long word
around that address. The two agree for every register but those that point into the long word and
not at its beginning: such a store reaches the communication register, and nobody is told.

A run is looked at instruction by instruction. All stores of a run are announced as they should be
exactly if no store of the run is of that kind.
-/

namespace Sh2Pair

variable {H : Host}

namespace World

/-- A fire is always entered into the journal. -/
theorem journal_fire_ne (setting : Setting H) (depth : Nat) (world : World H) (registry : Nat)
    (cpu : Cpu) (event : Event) :
    (world.fire (setting.deliver depth) setting.arrange registry cpu event).2.journal ≠
      world.journal := by
  intro same
  rw [fire_eq] at same
  have grown : (world.begun registry cpu event).journal <:+ world.journal :=
    same ▸ suffix_callEach setting depth world.fires cpu event
      (setting.arrange world.fires (world.hub.roster registry cpu).listeners)
      (world.begun registry cpu event)
  have shorter : (world.begun registry cpu event).journal.length ≤ world.journal.length :=
    grown.length_le
  rw [journal_begun, List.length_cons] at shorter
  exact Nat.not_succ_le_self _ shorter

end World

namespace Micro

/-- The state that a core is in, with the world around it. -/
abbrev Moment (H : Host) := Desk × World H

/-- The moments at which a run of at most a number of instructions executes one. -/
def executed (setting : Setting H) (depth registry : Nat) : Nat → Desk → World H → List (Moment H)
  | 0, _, _ => []
  | bound + 1, desk, world =>
    if desk.1.left.toInt ≤ 0 then []
    else
      (desk, world) ::
        match setting.run depth (step registry) desk world with
        | (.done (), desk, world) => executed setting depth registry bound desk world
        | _ => []

/-- What is executed when the core runs. -/
def instructions (setting : Setting H) (depth registry : Nat) (desk : Desk) (world : World H) :
    List (Moment H) :=
  executed setting depth registry desk.1.remaining desk world

/-- The world after a store through an address has been made, and before anybody is told: the word
of the instruction was fetched, and the store was remarked on. -/
def storedWorld (context : Context) (taken : Bool) (address : UInt32) (world : World H) : World H :=
  let stored := (world.record (.remark (.fetched context.cpu context.pc))).record
    (.remark (.stored context.cpu address))
  if taken then stored
  else stored.record (.remark (.dropped context.cpu (Width.long.align address) .long))

/-- If the instruction of a moment is a store, it writes through the bus. If what the bus writes is
the communication register, the memory takes it, and what happens after it is one fire of `comm` for
the other processor. If it is anything else, nothing happens after it. -/
def Notifies (setting : Setting H) (depth registry : Nat) (moment : Moment H) : Prop :=
  let context := moment.1.1
  ∀ target source, decode (word moment.1.2 context.pc) = .store target source →
    let address := context.reg target
    let wrote := moment.1.2.write context.cpu address .long (context.reg source)
    let after := setting.run depth (step registry) moment.1 moment.2
    let stored := storedWorld context wrote.1 address moment.2
    after.2.1.2 = wrote.2 ∧
      if Width.long.align address = commAddress then
        wrote.1 = true ∧
          after.2.2 = (stored.fire (setting.deliver depth) setting.arrange registry
            context.cpu.other .comm).2
      else after.2.2 = stored

/-- The instruction of a moment is a store that reaches the communication register through a
register that does not hold its address. -/
def Strays (moment : Moment H) : Prop :=
  ∃ target source, decode (word moment.1.2 moment.1.1.pc) = .store target source ∧
    Width.long.align (moment.1.1.reg target) = commAddress ∧
    moment.1.1.reg target ≠ commAddress

instance (moment : Moment H) : Decidable (Strays moment) :=
  match decoded : decode (word moment.1.2 moment.1.1.pc) with
  | .store target _ =>
    decidable_of_iff (Width.long.align (moment.1.1.reg target) = commAddress ∧
      moment.1.1.reg target ≠ commAddress) (by simp [Strays, decoded])
  | .idle => .isFalse (by simp [Strays, decoded])
  | .load .. => .isFalse (by simp [Strays, decoded])
  | .branch .. => .isFalse (by simp [Strays, decoded])
  | .unknown => .isFalse (by simp [Strays, decoded])

/-- All bytes of the communication register lie in the memory. -/
def Ported (ram : Ram) : Prop :=
  ram.base.toNat ≤ commAddress.toNat ∧ commAddress.toNat + 4 ≤ ram.base.toNat + ram.bytes.size

instance (ram : Ram) : Decidable (Ported ram) := instDecidableAnd

section Instructions

variable {setting : Setting H} {depth registry : Nat}

/-- A run ends as the last of its instructions does.

Proof: by induction on the bound. What a first instruction that comes back leaves is where the later
ones start. One that does not come back is the last. -/
theorem run_eq_last (bound : Nat) (desk : Desk) (world : World H) :
    setting.run depth (steps registry bound) desk world =
      (executed setting depth registry bound desk world).getLast?.elim (.done (), desk, world)
        fun last => setting.run depth (step registry) last.1 last.2 := by
  induction bound generalizing desk world with
  | zero => rfl
  | succ bound inductionHypothesis =>
    rw [steps_succ_run, executed]
    by_cases spent : desk.1.left.toInt ≤ 0
    · rw [if_pos spent, if_pos spent]
      rfl
    · rw [if_neg spent, if_neg spent]
      cases ran : setting.run depth (step registry) desk world with
      | mk outcome reached =>
      cases outcome with
      | done value =>
        simp only [Outcome.andThen, inductionHypothesis]
        generalize executed setting depth registry bound reached.1 reached.2 = later
        cases later with
        | nil => exact ran.symm
        | cons next others =>
          simp only [List.getLast?_cons, Option.getD_some]
          rfl
      | panicked cause => simp [Outcome.andThen, ran]
      | exhausted => simp [Outcome.andThen, ran]

/-- No instruction changes how the memory is mapped. -/
theorem alike_step (setting : Setting H) (depth registry : Nat) (desk : Desk) (world : World H) :
    (setting.run depth (step registry) desk world).2.1.2.memory.Alike desk.2.memory := by
  obtain ⟨context, bus⟩ := desk
  rw [Setting.run, step_run, Stride.carryOut, Stride.announce_bus]
  exact Stride.alike_put ..

/-- So the communication register is there whenever an instruction is executed.

Proof: by induction on the bound. No instruction moves the window of the memory, so the register is
there in front of the next one. -/
theorem ported_of_executed {bound : Nat} {desk : Desk} {world : World H}
    (ported : Ported desk.2.memory) {moment : Moment H}
    (inside : moment ∈ executed setting depth registry bound desk world) :
    Ported moment.1.2.memory := by
  induction bound generalizing desk world with
  | zero => exact absurd inside List.not_mem_nil
  | succ bound inductionHypothesis =>
    rw [executed] at inside
    split at inside
    · exact absurd inside List.not_mem_nil
    · rcases List.mem_cons.mp inside with rfl | later
      · exact ported
      · have kept :
            (setting.run depth (step registry) desk world).2.1.2.memory.Alike desk.2.memory :=
          alike_step setting depth registry desk world
        cases ran : setting.run depth (step registry) desk world with
        | mk outcome reached =>
        rw [ran] at later kept
        cases outcome with
        | done value =>
          refine inductionHypothesis ?_ later
          rw [Ported, kept.base, kept.size]
          exact ported
        | panicked cause => exact absurd later List.not_mem_nil
        | exhausted => exact absurd later List.not_mem_nil

/-- The aligned address of the communication register lies in a memory that has it. -/
theorem Ported.taken {bus : Bus Ram} (ported : Ported bus.memory) {address : UInt32}
    (reaches : Width.long.align address = commAddress) (cpu : Cpu) (value : UInt32) :
    (bus.write cpu address .long value).1 = true := by
  have inside : bus.memory.span? commAddress .long =
      some (commAddress.toNat - bus.memory.base.toNat) := by
    obtain ⟨begins, ends⟩ := ported
    refine Ram.span?_eq_some_iff.mpr ⟨?_, ?_⟩
    · omega
    · change commAddress.toNat - bus.memory.base.toNat + 4 ≤ _
      omega
  simp only [Bus.write, Store.write, reaches, Ram.poke, inside]

/-- What a store remarks on before anything is announced. -/
theorem noted_store (context : Context) (bus : Bus Ram) (world : World H) (opcode : UInt16)
    (address value : UInt32) (announced : Option (Cpu × Event)) :
    (Stride.pass context.pc (some (address, value)) announced (fetching context opcode)).noted
        bus world =
      storedWorld context (bus.write context.cpu address .long value).1 address world := by
  change List.foldl _ world (_ :: _ ::
    ite ((bus.write context.cpu address .long value).1 = true) [] [_]) = ite _ _ _
  by_cases taken : (bus.write context.cpu address .long value).1 = true
  · rw [if_pos taken, if_pos taken]
    rfl
  · rw [if_neg taken, if_neg taken]
    rfl

/-- An instruction is announced as it should be exactly if it does not stray.

Proof: a store through a register runs as its stride says, which tells about `comm` exactly if the
register itself holds the address of the port. If the instruction strays, nothing is told, and the
journal of a world in which a fire had begun would be longer. Otherwise the address reaches the port
exactly if the register holds it, and the fire is the one that is due. -/
theorem notifies_iff_not_strays {moment : Moment H} (ported : Ported moment.1.2.memory) :
    Notifies setting depth registry moment ↔ ¬ Strays moment := by
  obtain ⟨⟨context, bus⟩, world⟩ := moment
  -- What a store does first, whichever register it goes through.
  have stores : ∀ target source, decode (word bus context.pc) = .store target source →
      setting.run depth (step registry) (context, bus) world =
        (Stride.pass context.pc (some (context.reg target, context.reg source))
          (if context.reg target = commAddress then some (context.cpu.other, .comm) else none)
          (fetching context (word bus context.pc))).announce (setting.deliver depth)
            setting.arrange registry
            (bus.write context.cpu (context.reg target) .long (context.reg source)).2
            (storedWorld context
              (bus.write context.cpu (context.reg target) .long (context.reg source)).1
              (context.reg target) world) := by
    intro target source decoded
    rw [Setting.run, step_run, Stride.carryOut, stride, decoded]
    exact congrArg (Stride.announce _ _ _ _ _)
      (noted_store context bus world (word bus context.pc) _ _ _)
  constructor
  · rintro notifies ⟨target, source, decoded, reaches, other⟩
    obtain ⟨_, told⟩ := notifies target source decoded
    rw [if_pos reaches] at told
    obtain ⟨_, fired⟩ := told
    dsimp only at fired
    rw [stores target source decoded, if_neg other] at fired
    exact World.journal_fire_ne setting depth _ _ _ _ (congrArg World.journal fired).symm
  · intro straight target source decoded address wrote after stored
    have ran : after = _ := stores target source decoded
    rw [ran]
    refine ⟨Stride.announce_bus _, ?_⟩
    by_cases reaches : Width.long.align address = commAddress
    · have here : context.reg target = commAddress := by
        by_contra other
        exact straight ⟨target, source, decoded, reaches, other⟩
      rw [if_pos reaches]
      exact ⟨ported.taken reaches context.cpu (context.reg source),
        Stride.announce_world _ (if_pos here)⟩
    · have elsewhere : context.reg target ≠ commAddress := by
        intro here
        exact reaches ((congrArg Width.long.align here).trans rfl)
      rw [if_neg reaches, if_neg elsewhere]
      rfl

end Instructions

/-- Take a memory that has the communication register, and any run of the core, with any budget, any
listeners and any program. All stores of the run are announced as they should be exactly if none of
them reaches the communication register through a register that does not hold its address. What is
meant by the run is its instructions, and the run ends as the last of them does.

Proof: the register stays where it is, so each instruction of the run is announced exactly if it
does not stray, and the conditions agree one by one. -/
theorem notifies_iff_none_strays (setting : Setting H) (depth registry : Nat) (context : Context)
    (bus : Bus Ram) (world : World H) (ported : Ported bus.memory) :
    let moments := instructions setting depth registry (context, bus) world
    setting.run depth (run registry) (context, bus) world =
        moments.getLast?.elim (.done (), (context, bus), world)
          (fun last => setting.run depth (step registry) last.1 last.2) ∧
      ((∀ moment ∈ moments, Notifies setting depth registry moment) ↔
        ∀ moment ∈ moments, ¬ Strays moment) := by
  intro moments
  constructor
  · exact run_eq_last context.remaining (context, bus) world
  · have each : ∀ moment ∈ moments,
        Notifies setting depth registry moment ↔ ¬ Strays moment :=
      fun moment inside => notifies_iff_not_strays (ported_of_executed ported inside)
    exact forall₂_congr each

/-- A memory with a program that loads a register with a byte and stores it at its own value. -/
def storing (place : UInt8) : Bus Ram :=
  .plain ⟨0, #[0xe1, place, 0x21, 0x12] ++ Array.replicate 32 0, []⟩

/-- The master at the beginning of that program, with as many cycles as it takes. -/
def storer : Context := (Context.fresh .master false).grant 2

/-- A store through the address of the communication register is announced. -/
theorem notifies_iff_none_strays_at_port :
    Ported (storing 0x20).memory ∧
      (∀ moment ∈ instructions .still 0 0 (storer, storing 0x20)
        (World.initial (H := ⟨Unit, Unit⟩) ()), Notifies .still 0 0 moment) ∧
      (Setting.still.run 0 (run 0) (storer, storing 0x20)
        (World.initial (H := ⟨Unit, Unit⟩) ())).2.2.fires = 1 := by
  have ported : Ported (storing 0x20).memory := by decide +kernel
  have straight : ∀ moment ∈ instructions .still 0 0 (storer, storing 0x20)
      (World.initial (H := ⟨Unit, Unit⟩) ()), ¬ Strays moment := by decide +kernel
  obtain ⟨_, noticed⟩ := notifies_iff_none_strays .still 0 0 storer (storing 0x20)
    (World.initial (H := ⟨Unit, Unit⟩) ()) ported
  exact ⟨ported, noticed.mpr straight, by decide +kernel⟩

/-- A store one byte behind that address reaches the register too, and is not announced. -/
theorem not_notifies_behind_port :
    Ported (storing 0x21).memory ∧
      (∃ moment ∈ instructions .still 0 0 (storer, storing 0x21)
        (World.initial (H := ⟨Unit, Unit⟩) ()), ¬ Notifies .still 0 0 moment) ∧
      (Setting.still.run 0 (run 0) (storer, storing 0x21)
        (World.initial (H := ⟨Unit, Unit⟩) ())).2.2.fires = 0 := by
  have ported : Ported (storing 0x21).memory := by decide +kernel
  have strays : ∃ moment ∈ instructions .still 0 0 (storer, storing 0x21)
      (World.initial (H := ⟨Unit, Unit⟩) ()), Strays moment := by decide +kernel
  obtain ⟨moment, inside, strays⟩ := strays
  have here : Ported moment.1.2.memory :=
    ported_of_executed (show Ported (storer, storing 0x21).2.memory from ported) inside
  have silent : ¬ Notifies .still 0 0 moment :=
    fun notifies => (notifies_iff_not_strays here).mp notifies strays
  exact ⟨ported, ⟨moment, inside, silent⟩, by decide +kernel⟩

end Micro

end Sh2Pair
