import Sh2Pair.Proofs.Handling

/-!
# What a comparison of contexts looks at

The letter of a context is stored beside its processor, and both are compared. A context that was
reached by making contexts, by deeds, and by turns of schedulers with any executors has the letter
of its processor, so the letter decides nothing. This is an invariant of all ways to come to a
context: new contexts have it, no deed breaks it, and executors and listeners can do no more than
deeds.

Two such contexts agree in control if and only if they agree in their control registers, in the
delay flag and in the processor. A digest passes on the same fields in a fixed order, and so it
tells contexts apart exactly as the comparison does.

Nothing else about a context is looked at. Whatever is done to the data registers, the cycle counts,
the devices, the decoding state and the fetch holder, the comparison and the digest stay as they
were, also when a fetch does it, from whatever memory.
-/

namespace Sh2Pair

namespace Context

/-- A context that one can come to. It was just made; or something was done to one; or it is among
the contexts that a turn of a scheduler left, in either place, on the rig or with the host. Such a
turn finds only contexts that one can come to, and the executor and the listeners handle contexts,
whatever they do. -/
inductive Reached : Context → Prop where
  | fresh (cpu : Cpu) (debug : Bool) : Reached (.fresh cpu debug)
  | done {context : Context} (reached : Reached context) {M : Type} [Store M] (deed : Deed)
      (bus : Bus M) : Reached (deed.apply context bus).1
  | turned {H : Host} {ε : Type} {rig : ε → Set Context} {host : H.State → Set Context}
      {setting : Setting H} (listeners : setting.Handles host) {executor : Executor H ε}
      (handles : Machine.ExecutorHandles rig host executor) (depth : Nat) (machine : Machine H ε)
      (cpu : Cpu) (found : ∀ context ∈ machine.present rig host, Reached context)
      {context : Context}
      (left : context ∈ (machine.turn setting depth executor cpu).2.present rig host) :
      Reached context

/-- A property that new contexts have and that no deed breaks holds of all contexts that one can
come to. The induction is on how a context was reached; what turns leave is the result about
executors and listeners that handle contexts. -/
theorem Reached.closed {good : Set Context} (closed : Closed good) {context : Context}
    (reached : Reached context) : context ∈ good := by
  induction reached with
  | fresh cpu debug => exact closed.fresh cpu debug
  | done reached deed bus inductionHypothesis => exact closed.done inductionHypothesis deed bus
  | turned listeners handles depth machine cpu found left inductionHypothesis =>
    exact Machine.turn_present closed listeners handles depth machine cpu inductionHypothesis left

/-- Turns leave nothing that could not be had by deeds alone. -/
theorem reached_iff_had {context : Context} : Reached context ↔ Had ∅ context := by
  constructor
  · have closed : Closed {context | Had ∅ context} :=
      ⟨.fresh, fun had _ _ deed bus => had.done deed bus⟩
    exact Reached.closed closed
  · intro had
    induction had with
    | given absent => exact absent.elim
    | fresh cpu debug => exact .fresh cpu debug
    | done had deed bus inductionHypothesis => exact inductionHypothesis.done deed bus

/-- New contexts have the letter of their processor, and no deed breaks this. -/
theorem closed_lettered : Closed {context | context.letter = context.cpu.letter} where
  fresh cpu debug := rfl
  done {context} lettered M store deed bus := by
    cases deed with
    | light touch => cases touch <;> exact lettered
    | write assignment => cases assignment <;> exact lettered
    | registers values => exact lettered
    | reset pc stack => exact lettered
    | copy => exact lettered

/-- So the letter always follows the processor. -/
theorem Reached.letter_eq {context : Context} (reached : Reached context) :
    context.letter = context.cpu.letter :=
  reached.closed closed_lettered

/-- The letters tell the processors apart. -/
theorem letter_inj {left right : Cpu} : left.letter = right.letter ↔ left = right := by
  cases left <;> cases right <;> decide

/-- The fields that a comparison looks at. -/
theorem sameControl_iff_letter {left right : Context} : left.sameControl right = true ↔
    left.gbr = right.gbr ∧ left.vbr = right.vbr ∧ left.sr = right.sr ∧ left.mach = right.mach ∧
      left.macl = right.macl ∧ left.pr = right.pr ∧ left.pc = right.pc ∧
      left.delaySlot = right.delaySlot ∧ left.cpu = right.cpu ∧ left.letter = right.letter := by
  simp only [sameControl, Bool.and_eq_true, beq_iff_eq, and_assoc]

/-- The fields that the control state of reached contexts consists of. -/
theorem sameControl_iff {left right : Context} (leftReached : Reached left)
    (rightReached : Reached right) : left.sameControl right = true ↔
      left.gbr = right.gbr ∧ left.vbr = right.vbr ∧ left.sr = right.sr ∧ left.mach = right.mach ∧
        left.macl = right.macl ∧ left.pr = right.pr ∧ left.pc = right.pc ∧
        left.delaySlot = right.delaySlot ∧ left.cpu = right.cpu := by
  rw [sameControl_iff_letter, leftReached.letter_eq, rightReached.letter_eq, letter_inj, and_self]

/-- A digest passes on what a comparison looks at, no more and no less. -/
theorem digest_eq_iff {left right : Context} :
    left.digest = right.digest ↔ left.sameControl right = true := by
  rw [sameControl_iff_letter]
  simp only [digest, List.cons.injEq, Feed.word.injEq, Feed.flag.injEq, Feed.cpu.injEq,
    Feed.letter.injEq, and_true]

/-- A comparison can be made on the digests alone. -/
theorem sameControl_of_digests {left right other otherToo : Context}
    (first : left.digest = other.digest) (second : right.digest = otherToo.digest) :
    left.sameControl right = other.sameControl otherToo := by
  rw [Bool.eq_iff_iff, ← digest_eq_iff, ← digest_eq_iff, first, second]

variable {M : Type} [Store M]

/-- What has no part in the control state does not show in a digest. -/
theorem digest_apply (touch : Touch) (context : Context) (bus : Bus M) :
    (touch.apply context bus).1.digest = context.digest := by
  cases touch <;> rfl

/-- Nor do any number of such things, by induction on their row. -/
theorem digest_applyAll (touches : List Touch) (context : Context) (bus : Bus M) :
    (Touch.applyAll context bus touches).digest = context.digest := by
  induction touches generalizing context bus with
  | nil => rfl
  | cons touch touches inductionHypothesis =>
    rw [Touch.applyAll]
    exact (inductionHypothesis _ _).trans (digest_apply touch context bus)

/-- Comparison and digest see the control state and nothing else, for any two contexts that one can
come to. They agree with each other, and the letter never decides: it is always the one of the
processor. Whatever is done to the other fields of either context, from whatever memories it
fetches, changes neither the verdict nor a digest.

Proof: that the letter follows the processor is the invariant of reached contexts. With it, the
comparison comes down to the other nine fields. A digest is a list of the same values, so it is
equal to another one exactly if each of these is; and no touch writes any of them. -/
theorem control_state {left right : Context} (leftReached : Reached left)
    (rightReached : Reached right) :
    (left.sameControl right = true ↔
      left.gbr = right.gbr ∧ left.vbr = right.vbr ∧ left.sr = right.sr ∧ left.mach = right.mach ∧
        left.macl = right.macl ∧ left.pr = right.pr ∧ left.pc = right.pc ∧
        left.delaySlot = right.delaySlot ∧ left.cpu = right.cpu) ∧
    (left.letter = left.cpu.letter ∧ right.letter = right.cpu.letter) ∧
    (left.digest = right.digest ↔ left.sameControl right = true) ∧
    ∀ {M N : Type} [Store M] [Store N] (touches others : List Touch) (bus : Bus M)
        (otherBus : Bus N),
      (Touch.applyAll left bus touches).sameControl (Touch.applyAll right otherBus others) =
        left.sameControl right ∧
      (Touch.applyAll left bus touches).digest = left.digest ∧
      (Touch.applyAll right otherBus others).digest = right.digest := by
  refine ⟨sameControl_iff leftReached rightReached,
    ⟨leftReached.letter_eq, rightReached.letter_eq⟩, digest_eq_iff, ?_⟩
  intro M N _ _ touches others bus otherBus
  have first : (Touch.applyAll left bus touches).digest = left.digest :=
    digest_applyAll touches left bus
  have second : (Touch.applyAll right otherBus others).digest = right.digest :=
    digest_applyAll others right otherBus
  exact ⟨sameControl_of_digests first second, first, second⟩

/-- An executor that puts the context from the rig in the place of the one of its turn, and keeps
the latter on the rig. -/
def relieve : Executor ⟨Unit, Unit⟩ Context :=
  .change (fun desk => (desk.2.copy, desk.1)) (.ret ())

/-- It handles contexts: what it puts anywhere is one of the two, or a copy. -/
theorem executorHandles_relieve :
    Machine.ExecutorHandles (fun spare => {spare}) (fun _ => ∅) relieve := by
  refine ⟨fun desk context inside => ?_, trivial⟩
  rcases inside with rfl | rfl
  · exact (Had.given (.inr (.inr rfl))).done .copy .nowhere
  · exact .given (.inr (.inl rfl))

/-- A machine with a spare context of the slave on its rig, whose master is relieved. -/
def relieved : Machine ⟨Unit, Unit⟩ Context :=
  (Machine.turn .still 0 relieve ⟨.fresh .standard 0 none,
    ⟨.fresh .master false, .fresh .slave false⟩, (Context.fresh .slave true).setReg 3 7,
    .initial ()⟩ .master).2

/-- What then stands in the place of the master has the letter of the slave. It agrees in control
with another context of the slave, also after an instruction was fetched for that one, and so do the
digests, although the two contexts differ. -/
theorem control_state_of_relieved :
    let left := relieved.contexts.master
    let right := Context.fresh .slave false
    let fetched := Touch.applyAll right (Bus.plain (Ram.zeroed 0 4)) [.fetch, .grant 5]
    Reached left ∧ Reached right ∧ left.letter = 'S' ∧ left.sameControl right = true ∧
      left.digest = right.digest ∧ left.sameControl fetched = true ∧ left ≠ right := by
  intro left right fetched
  have spare : Reached ((Context.fresh .slave true).setReg 3 7) :=
    (Reached.fresh .slave true).done (.light (.setReg 3 7)) .nowhere
  have quiet : Setting.still.Handles fun _ : Host.State ⟨Unit, Unit⟩ => ∅ := fun _ _ _ => trivial
  have leftReached : Reached left := by
    refine .turned quiet executorHandles_relieve 0 _ .master ?_
      (.inl (.inl ⟨.master, rfl⟩))
    rintro context ((⟨cpu, rfl⟩ | rfl) | absent)
    · cases cpu with
      | master => exact .fresh .master false
      | slave => exact .fresh .slave false
    · exact spare
    · exact absent.elim
  have rightReached : Reached right := .fresh .slave false
  obtain ⟨verdict, ⟨letter, _⟩, digests, touched⟩ := control_state leftReached rightReached
  have same : left.sameControl right = true := verdict.mpr (by decide +kernel)
  have still : left.sameControl fetched = left.sameControl right :=
    (touched [] [.fetch, .grant 5] Bus.nowhere (Bus.plain (Ram.zeroed 0 4))).1
  exact ⟨leftReached, rightReached, letter.trans (by decide +kernel), same, digests.mpr same,
    still.trans same, by decide +kernel⟩

end Context

end Sh2Pair
