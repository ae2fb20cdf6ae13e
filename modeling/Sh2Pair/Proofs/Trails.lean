import Sh2Pair.Proofs.Watched

/-!
# Programs that do not store into code

The instructions that a context goes through are decided by the words that it fetches. Its trail is
their list, told on a memory that stays as it is. If nobody stores into a word that is fetched, the
core goes along the trail on the changing memory, too: whatever the other processor stores in
between, the context is left where the trail ends.

The grounds say what is fetched and what is stored. An instruction that keeps to the grounds does
not change the words of the code, and a run keeps to them exactly as far as its journal does. A
processor that polls stands on a branch to itself, so its trail ends there and stores nothing.
-/

namespace Sh2Pair

open Micro (word)

namespace Entry

variable {ν : Type}

/-- The address of a word that was fetched, if an entry tells of one. -/
def fetched? : Entry ν → Option UInt32
  | .remark (.fetched _ address) => some address
  | _ => none

/-- The address of a store and who made it, if an entry tells of one. -/
def stored? : Entry ν → Option (Cpu × UInt32)
  | .remark (.stored cpu address) => some (cpu, address)
  | _ => none

end Entry

/-- The addresses of all words that were fetched. -/
def fetches {ν : Type} (journal : List (Entry ν)) : List UInt32 :=
  journal.filterMap Entry.fetched?

/-- The addresses of all stores, and who made them. -/
def stores {ν : Type} (journal : List (Entry ν)) : List (Cpu × UInt32) :=
  journal.filterMap Entry.stored?

/-- The words that may be fetched and the addresses that each processor may store at, on a memory as
it was when nobody had stored anything. No store writes a byte of a word that may be fetched. -/
structure Grounds where
  origin : Bus Ram
  code : UInt32 → Prop
  stores : Cpu → UInt32 → Prop
  spared : ∀ cpu address word, stores cpu address → code word →
    origin.memory.Spares address word

/-- An entry tells of no fetch and no store outside of the grounds. -/
structure Entry.Within {ν : Type} (grounds : Grounds) (entry : Entry ν) : Prop where
  fetched : ∀ address, entry.fetched? = some address → grounds.code address
  stored : ∀ cpu address, entry.stored? = some (cpu, address) → grounds.stores cpu address

namespace Grounds

/-- The words as they were. -/
def read (grounds : Grounds) : UInt32 → UInt16 := word grounds.origin

/-- A memory has the words of the code, and is mapped as it was. -/
structure Keeps (grounds : Grounds) (bus : Bus Ram) : Prop where
  alike : bus.memory.Alike grounds.origin.memory
  words : ∀ address, grounds.code address → word bus address = grounds.read address

/-- A context stands on a branch to itself, and both words of it belong to the code. -/
structure Rests (grounds : Grounds) (context : Context) : Prop where
  resting : Micro.Resting grounds.origin context
  branch : grounds.code context.pc
  slot : grounds.code (context.pc + 2)

/-- No byte is written by stores of both processors. -/
def Separate (grounds : Grounds) : Prop :=
  ∀ cpu address place, grounds.stores cpu address → grounds.stores cpu.other place →
    grounds.origin.memory.Apart address place

/-- All entries since an earlier journal keep to the grounds. -/
def Records {ν : Type} (grounds : Grounds) (before after : List (Entry ν)) : Prop :=
  ∃ recent, after = recent ++ before ∧ ∀ entry ∈ recent, entry.Within grounds

variable {grounds : Grounds}

/-- Standing on a branch has nothing to do with the budget. -/
theorem Rests.budget {context : Context} (rests : grounds.Rests context) (cycles ran : Int32) :
    grounds.Rests { context with cycles := cycles, ran := ran } :=
  ⟨rests.resting.budget cycles ran, rests.branch, rests.slot⟩

/-- What keeps to the grounds does so before and after each moment in between. -/
theorem Records.split {ν : Type} {before middle after : List (Entry ν)}
    (records : grounds.Records before after) (early : before <:+ middle) (late : middle <:+ after) :
    grounds.Records before middle ∧ grounds.Records middle after := by
  obtain ⟨recent, rfl, within⟩ := records
  obtain ⟨first, rfl⟩ := early
  obtain ⟨last, same⟩ := late
  have parts : last ++ first = recent := by
    rw [← List.append_assoc] at same
    exact List.append_cancel_right same
  subst parts
  refine ⟨⟨first, rfl, fun entry inside => within entry (List.mem_append_right _ inside)⟩,
    ⟨last, List.append_assoc .., fun entry inside => within entry (List.mem_append_left _ inside)⟩⟩

end Grounds

namespace Micro

open Grounds

variable {grounds : Grounds}

/-- An instruction keeps to the grounds, and has no fault of its own. -/
structure Stride.Tame (grounds : Grounds) (stride : Stride) : Prop where
  fetched : ∀ address ∈ stride.fetched, grounds.code address
  stored : ∀ address value, stride.stored = some (address, value) →
    grounds.stores stride.held.cpu address
  whole : stride.fault = none

/-- The store of a tame instruction leaves the words of the code alone. -/
theorem Stride.Tame.keeps {stride : Stride} (tame : stride.Tame grounds) {bus : Bus Ram}
    (keeps : grounds.Keeps bus) : grounds.Keeps (stride.put bus) := by
  refine ⟨(stride.alike_put bus).trans keeps.alike, ?_⟩
  intro target inCode
  refine Eq.trans (stride.word_put ?_) (keeps.words target inCode)
  intro store stored
  exact (keeps.alike.spares_iff store.1 target).mpr
    (grounds.spared _ store.1 target (tame.stored store.1 store.2 stored) inCode)

/-- Where the words of the code are kept, an instruction that keeps to the grounds is the one on the
words as they were. -/
theorem stride_of_keeps {bus : Bus Ram} (keeps : grounds.Keeps bus) {context : Context}
    (inside : ∀ address ∈ (stride grounds.read context).fetched, grounds.code address) :
    stride (word bus) context = stride grounds.read context :=
  stride_congr fun address fetched => keeps.words address (inside address fetched)

/-- The same, if it is known of the words as they are. -/
theorem stride_of_keeps_now {bus : Bus Ram} (keeps : grounds.Keeps bus) {context : Context}
    (inside : ∀ address ∈ (stride (word bus) context).fetched, grounds.code address) :
    stride grounds.read context = stride (word bus) context :=
  stride_congr fun address fetched => (keeps.words address (inside address fetched)).symm

/-- The instructions that a context goes through, at most a number of them, on given words. -/
def trail (read : UInt32 → UInt16) : Nat → Context → List Stride
  | 0, _ => []
  | bound + 1, context =>
    if context.left.toInt ≤ 0 then []
    else stride read context :: trail read bound (stride read context).context

/-- A context without cycles has no trail. -/
theorem trail_of_spent {read : UInt32 → UInt16} {bound : Nat} {context : Context}
    (spent : context.left.toInt ≤ 0) : trail read bound context = [] := by
  cases bound with
  | zero => rfl
  | succ bound => rw [trail, if_pos spent]

/-- All instructions of a trail belong to the processor of the context. -/
theorem cpu_of_trail {read : UInt32 → UInt16} {bound : Nat} {context : Context} {stride : Stride}
    (inside : stride ∈ trail read bound context) : stride.held.cpu = context.cpu := by
  induction bound generalizing context with
  | zero => exact absurd inside List.not_mem_nil
  | succ bound inductionHypothesis =>
    rw [trail] at inside
    split at inside
    · exact absurd inside List.not_mem_nil
    · rcases List.mem_cons.mp inside with rfl | later
      · exact (cpu_stride read context).1
      · exact (inductionHypothesis later).trans (cpu_stride read context).2

/-- The context at the end of a trail. -/
def finish (context : Context) (strides : List Stride) : Context :=
  strides.foldl (fun _ stride => stride.context) context

/-- The memory at the end of a trail. -/
def putAll (strides : List Stride) (bus : Bus Ram) : Bus Ram :=
  strides.foldl (fun bus stride => stride.put bus) bus

variable {H : Host} {registry : Nat} {watcher : Option Nat}

/-- A moment of a run on a memory that keeps the words of the code, while the context of the other
processor waits. Whoever polls stands on a branch to itself. -/
structure Sound (grounds : Grounds) (registry : Nat) (watcher : Option Nat) (waiting : Context)
    (desk : Desk) (world : World H) : Prop where
  watched : world.hub.Watched registry watcher
  keeps : grounds.Keeps desk.2
  partner : waiting.cpu = desk.1.cpu.other
  rests : world.hub.polls watcher desk.1.cpu = true → grounds.Rests desk.1
  waits : world.hub.polls watcher waiting.cpu = true → grounds.Rests waiting

/-- Whoever polls after an instruction did so before, or is reported by it. -/
theorem Stride.polls_of_tell {stride : Stride} {hub : Hub} (watched : hub.Watched registry watcher)
    {cpu : Cpu} (polls : (stride.tell registry hub).polls watcher cpu = true) :
    hub.polls watcher cpu = true ∨ stride.announced = some (cpu, .startPolling) := by
  rw [tell] at polls
  cases announced : stride.announced with
  | none =>
    rw [announced] at polls
    exact .inl polls
  | some announcement =>
    obtain ⟨place, event⟩ := announcement
    rw [announced] at polls
    dsimp only at polls
    by_cases report : event = .startPolling
    · by_cases here : cpu = place
      · exact .inr (by rw [report, here])
      · rw [watched.polls_fired_other here] at polls
        exact .inl polls
    · exact .inl (watched.polls_of_fired report polls)

section Runs

variable (setting : Setting H) (depth : Nat) {waiting context : Context} {bus : Bus Ram}
  {world : World H}

/-- An instruction that keeps to the grounds comes back, and the next moment is sound.

Proof: the instruction comes to its stride, which reads the same words on the grounds. Whoever polls
then polled before, and keeps resting on words that nobody stores into, or has just reported and
stands on a branch to itself. -/
theorem Sound.step (sound : Sound grounds registry watcher waiting (context, bus) world)
    (tame : (stride grounds.read context).Tame grounds) :
    ∃ reached, setting.run depth (Micro.step registry) (context, bus) world =
        (.done (), ((stride grounds.read context).context,
          (stride grounds.read context).put bus), reached) ∧
      Sound grounds registry watcher waiting ((stride grounds.read context).context,
        (stride grounds.read context).put bus) reached := by
  obtain ⟨reached, stepped, hub, _⟩ :=
    step_of_watched setting depth context bus world sound.watched
  rw [stride_of_keeps sound.keeps tame.fetched] at stepped hub
  have came : (stride grounds.read context).outcome = .done () := by
    rw [Stride.outcome, tame.whole]
  have cpu : (stride grounds.read context).context.cpu = context.cpu :=
    (cpu_stride grounds.read context).2
  refine ⟨reached, by rw [stepped, came], ?_⟩
  constructor
  case watched => exact hub ▸ Stride.watched_tell _ sound.watched
  case keeps => exact tame.keeps sound.keeps
  case partner => exact sound.partner.trans (congrArg Cpu.other cpu.symm)
  case rests =>
    intro polls
    rw [hub, cpu] at polls
    have reports : (stride grounds.read context).announced = some (context.cpu, .startPolling) := by
      rcases Stride.polls_of_tell sound.watched polls with polled | reports
      · have whole : (stride grounds.read context).fault = none := tame.whole
        simp only [Grounds.read, stride_of_resting (sound.rests polled).resting] at whole ⊢
        obtain ⟨ran, spent⟩ := spent_of_jump whole
        rw [jump_self spent]
      · exact reports
    rcases announced_cases reports with ⟨_, comm⟩ | ⟨_, _, fetched, pc, resting⟩
    · cases comm
    · have inside : ∀ (address : UInt32), address ∈ (stride grounds.read context).fetched →
          grounds.code address := tame.fetched
      simp only [Grounds.read, fetched] at inside
      refine ⟨resting, ?_, ?_⟩
      · exact pc ▸ inside _ (List.mem_cons_self ..)
      · exact pc ▸ inside _ (List.mem_cons_of_mem _ (List.mem_cons_self ..))
  case waits =>
    intro polls
    rw [hub] at polls
    rcases Stride.polls_of_tell sound.watched polls with polled | reports
    · exact sound.waits polled
    · rcases announced_cases reports with ⟨_, comm⟩ | ⟨own, _⟩
      · cases comm
      · exact absurd (own.symm.trans sound.partner) (Cpu.other_ne _).symm

/-- So does a run along a trail that keeps to the grounds, and it leaves what the trail says.

Proof: by induction on the bound. Each instruction comes back and leaves a sound moment to the next
one. -/
theorem Sound.steps {bound : Nat}
    (sound : Sound grounds registry watcher waiting (context, bus) world)
    (tame : ∀ stride ∈ trail grounds.read bound context, stride.Tame grounds) :
    ∃ reached, setting.run depth (Micro.steps registry bound) (context, bus) world =
        (.done (), (finish context (trail grounds.read bound context),
          putAll (trail grounds.read bound context) bus), reached) ∧
      Sound grounds registry watcher waiting (finish context (trail grounds.read bound context),
        putAll (trail grounds.read bound context) bus) reached := by
  induction bound generalizing context bus world with
  | zero => exact ⟨world, rfl, sound⟩
  | succ bound inductionHypothesis =>
    rw [steps_succ_run]
    rw [trail] at tame ⊢
    by_cases spent : context.left.toInt ≤ 0
    · simp only [if_pos spent]
      exact ⟨world, rfl, sound⟩
    · simp only [if_neg spent] at tame ⊢
      obtain ⟨middle, stepped, next⟩ :=
        sound.step setting depth (tame _ (List.mem_cons_self ..))
      obtain ⟨reached, ran, last⟩ := inductionHypothesis next
        fun stride inside => tame stride (List.mem_cons_of_mem _ inside)
      refine ⟨reached, ?_, last⟩
      rw [stepped]
      exact ran

/-- An instruction that comes back, and whose entries keep to the grounds, keeps to them.

Proof: what the instruction fetched and stored is entered, and the entries keep to the grounds. It
has no fault, since it came back. -/
theorem Sound.tame_of_step (sound : Sound grounds registry watcher waiting (context, bus) world)
    {after : Desk} {reached : World H}
    (ran : setting.run depth (Micro.step registry) (context, bus) world =
      (.done (), after, reached))
    (records : grounds.Records world.journal reached.journal) :
    (stride grounds.read context).Tame grounds := by
  obtain ⟨same, stepped, _, noted⟩ :=
    step_of_watched setting depth context bus world sound.watched
  rw [ran] at stepped
  injection stepped with came stepped
  injection stepped with _ same
  subst same
  obtain ⟨⟨recent, entries, within⟩, _⟩ := records.split (List.suffix_append ..) noted
  obtain rfl := List.append_cancel_right entries
  have remarks : ∀ note ∈ (stride (word bus) context).notes bus,
      (Entry.remark note : Entry H.Note).Within grounds :=
    fun note inside => within _ (List.mem_reverse.mpr (List.mem_map_of_mem inside))
  have fetched : ∀ address ∈ (stride (word bus) context).fetched, grounds.code address :=
    fun address inside => (remarks (.fetched _ address)
      (List.mem_append_left _ (List.mem_map_of_mem inside))).fetched address rfl
  rw [stride_of_keeps_now sound.keeps fetched]
  refine ⟨fetched, ?_, ?_⟩
  · intro address value stored
    refine (remarks (.stored _ address) (List.mem_append_right _ ?_)).stored _ address rfl
    rw [Stride.storeNotes, stored]
    exact List.mem_cons_self ..
  · cases faulty : (stride (word bus) context).fault with
    | none => rfl
    | some cause =>
      rw [Stride.outcome, faulty] at came
      cases came

/-- So does every instruction of a run that comes back.

Proof: by induction on the bound. The entries are split between the first instruction and the later
ones, which start from a sound moment again. -/
theorem Sound.tame_of_steps {bound : Nat}
    (sound : Sound grounds registry watcher waiting (context, bus) world)
    {after : Desk} {reached : World H}
    (ran : setting.run depth (Micro.steps registry bound) (context, bus) world =
      (.done (), after, reached))
    (records : grounds.Records world.journal reached.journal) :
    ∀ stride ∈ trail grounds.read bound context, stride.Tame grounds := by
  induction bound generalizing context bus world with
  | zero => exact fun stride inside => absurd inside List.not_mem_nil
  | succ bound inductionHypothesis =>
    rw [steps_succ_run] at ran
    rw [trail]
    by_cases spent : context.left.toInt ≤ 0
    · rw [if_pos spent]
      exact fun stride inside => absurd inside List.not_mem_nil
    · rw [if_neg spent]
      simp only [if_neg spent] at ran
      cases stepped : setting.run depth (Micro.step registry) (context, bus) world with
      | mk outcome left =>
      obtain ⟨desk, middle⟩ := left
      rw [stepped] at ran
      cases outcome with
      | panicked cause => cases ran
      | exhausted => cases ran
      | done value =>
        obtain ⟨first, others⟩ := records.split (setting.suffix_of_run stepped)
          (setting.suffix_of_run ran)
        have tame : Stride.Tame grounds (stride grounds.read context) :=
          sound.tame_of_step setting depth stepped first
        obtain ⟨same, again, next⟩ := sound.step setting depth tame
        rw [stepped] at again
        cases again
        intro stride inside
        rcases List.mem_cons.mp inside with rfl | later
        · exact tame
        · exact inductionHypothesis next ran others stride later

end Runs

/-- The trail of a context that stands on a branch to itself, with a budget granted: it executes the
branch, which uses up the budget and stores nothing. -/
theorem trail_of_rests {context : Context} (rests : grounds.Rests context) {cycles : Int32}
    (granted : 0 < cycles.toInt) :
    let begun := context.grant cycles
    trail grounds.read begun.remaining begun =
        [⟨[context.pc, context.pc + 2], none, some (context.cpu, .startPolling),
          { begun with ran := 2 }, { begun with ran := cycles }, none⟩] := by
  intro begun
  have resting : Resting grounds.origin begun := (rests.budget cycles 0).resting
  have room : Cycles.checkedAdd? 0 2 = some 2 := by decide
  have spent : Cycles.checkedAdd? begun.ran 2 = some 2 := room
  have more : ¬ begun.left.toInt ≤ 0 :=
    Int.not_le.mpr ((Cycles.satSub_pos_iff _ _).mpr granted)
  obtain ⟨bound, enough⟩ : ∃ bound, begun.remaining = bound + 1 :=
    Nat.exists_eq_succ_of_ne_zero (Context.remaining_ne_zero_iff.mpr granted)
  have used : ({ begun with ran := cycles } : Context).left.toInt ≤ 0 :=
    Int.not_lt.mp fun more => absurd ((Cycles.satSub_pos_iff _ _).mp more) (Int.lt_irrefl _)
  have first : stride grounds.read begun = _ :=
    (stride_of_resting resting).trans (jump_self spent _)
  rw [enough, trail, if_neg more, first]
  exact congrArg (List.cons _) (trail_of_spent used)

/-- Instructions whose stores write no byte in common. -/
def Stride.Apart (origin : Ram) (first second : Stride) : Prop :=
  ∀ address value place other, first.stored = some (address, value) →
    second.stored = some (place, other) → origin.Apart address place

variable {origin : Ram} {bus : Bus Ram}

/-- They may change places. -/
theorem put_put {first second : Stride} (apart : first.Apart origin second)
    (alike : bus.memory.Alike origin) :
    second.put (first.put bus) = first.put (second.put bus) := by
  cases stored : first.stored with
  | none => simp only [Stride.put, stored]
  | some store =>
    cases storedToo : second.stored with
    | none => simp only [Stride.put, stored, storedToo]
    | some storeToo =>
      obtain ⟨address, value⟩ := store
      obtain ⟨place, other⟩ := storeToo
      have separate : bus.memory.Apart address place :=
        (alike.apart_iff address place).mpr (apart address value place other stored storedToo)
      simp only [Stride.put, stored, storedToo]
      exact congrArg (fun memory => { bus with memory })
        (Ram.storeLong_storeLong (Width.long.truncate value) (Width.long.truncate other) separate)

/-- A store can be moved behind others that are apart from it. -/
theorem put_putAll {stride : Stride} {strides : List Stride}
    (apart : ∀ other ∈ strides, stride.Apart origin other) (alike : bus.memory.Alike origin) :
    putAll strides (stride.put bus) = stride.put (putAll strides bus) := by
  induction strides generalizing bus with
  | nil => rfl
  | cons next later inductionHypothesis =>
    change putAll later (next.put (stride.put bus)) = _
    rw [put_put (apart next (List.mem_cons_self ..)) alike]
    exact inductionHypothesis (fun other inside => apart other (List.mem_cons_of_mem _ inside))
      ((next.alike_put bus).trans alike)

/-- So may trails. -/
theorem putAll_putAll {strides others : List Stride}
    (apart : ∀ stride ∈ strides, ∀ other ∈ others, stride.Apart origin other)
    (alike : bus.memory.Alike origin) :
    putAll others (putAll strides bus) = putAll strides (putAll others bus) := by
  induction strides generalizing bus with
  | nil => rfl
  | cons stride later inductionHypothesis =>
    change putAll others (putAll later (stride.put bus)) =
      putAll later (stride.put (putAll others bus))
    rw [inductionHypothesis (fun next inside => apart next (List.mem_cons_of_mem _ inside))
      ((stride.alike_put bus).trans alike),
      put_putAll (apart stride (List.mem_cons_self ..)) alike]

end Micro

end Sh2Pair
