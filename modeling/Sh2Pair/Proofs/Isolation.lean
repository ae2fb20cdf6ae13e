import Sh2Pair.Proofs.Confinement

/-!
# Each processor for itself

Nothing that is done about one processor reaches the other one, if the outside listeners keep the
two apart. So of a list of operations each of which is about one processor, those about the other
one can be left out. This is shown with two runs. An operation that is left out spares what belongs
to the processor that is kept, which is a matter of the longer run only. An operation that is kept
is in both runs and does the same in both.

The fires of a run are numbered through, so a fire has different numbers in the two runs. What
corresponds is its place among the fires for the processor that is kept.
-/

namespace Sh2Pair

variable {H : Host} {S : Type}

/-- Adding to equal rosters makes equal rosters. -/
theorem Roster.insert_congr {left right : Roster} (same : left = right) (name : String)
    (listener : Listener) (free : left.has name = false) (freeToo : right.has name = false) :
    left.insert name listener free = right.insert name listener freeToo := by
  subst same
  rfl

/-- The fires of an earlier journal come first. -/
theorem firings_prefix {ν : Type} {cpu : Cpu} {earlier later : List (Entry ν)}
    (suffix : earlier <:+ later) : firings cpu earlier <+: firings cpu later := by
  obtain ⟨recent, rfl⟩ := suffix
  rw [firings, firings, List.filterMap_append, List.reverse_append]
  exact List.prefix_append ..

/-- Corresponding fires for a processor call their snapshots in the same order: in one setting the
fires that a journal reports, and in the other one those of a run that has no other fires. -/
def Setting.ArrangesAlike (first second : Setting H) (cpu : Cpu) (journal : List (Entry H.Note)) :
    Prop :=
  ∀ place number, (firings cpu journal)[place]? = some number →
    second.arrange place = first.arrange number

/-- What belongs to a processor is the same in two worlds, and in the second one there was no fire
for the other processor. -/
structure World.AlikeFor (part : Cpu → H.State → S) (cpu : Cpu) (left right : World H) : Prop where
  hub : left.hub.AlikeFor cpu right.hub
  host : part cpu left.host = part cpu right.host
  told : tellings cpu left.journal = tellings cpu right.journal
  fires : right.fires = (firings cpu left.journal).length

/-- Two outcomes of one kind, whose values are in a relation. -/
inductive Outcome.Matches {α : Type} (values : α → α → Prop) : Outcome α → Outcome α → Prop where
  | done {value other : α} (related : values value other) :
      Matches values (.done value) (.done other)
  | panicked (cause : Panic) : Matches values (.panicked cause) (.panicked cause)
  | exhausted : Matches values .exhausted .exhausted

/-- Equal outcomes match. -/
theorem Outcome.Matches.of_eq {α : Type} {values : α → α → Prop}
    (refl : ∀ value, values value value) {left right : Outcome α} (same : left = right) :
    Matches values left right := by
  subst same
  cases left with
  | done value => exact .done (refl value)
  | panicked cause => exact .panicked cause
  | exhausted => exact .exhausted

namespace World.AlikeFor

variable {part : Cpu → H.State → S} {cpu : Cpu} {left right : World H}
  (alike : AlikeFor part cpu left right)

include alike

/-- Whatever spares a processor may be left out. -/
theorem spared {after : World H} (spares : Spares part cpu left after) :
    AlikeFor part cpu after right := by
  constructor
  case hub => exact spares.hub.trans alike.hub
  case host => exact spares.host.trans alike.host
  case told => exact spares.told.trans alike.told
  case fires => rw [spares.fired, alike.fires]

/-- Two silent operations keep worlds alike for a processor, if they keep the hubs so. -/
theorem of_silent {leftAfter rightAfter : World H} (silent : Silent cpu left leftAfter)
    (silentToo : Silent cpu right rightAfter)
    (hub : leftAfter.hub.AlikeFor cpu rightAfter.hub) :
    AlikeFor part cpu leftAfter rightAfter := by
  constructor
  case hub => exact hub
  case host => rw [silent.host, silentToo.host, alike.host]
  case told => rw [silent.told, silentToo.told, alike.told]
  case fires => rw [silent.fired, silentToo.fires, alike.fires]

/-- An entry that tells the same about the processor, and reports no fire. -/
theorem record {entry other : Entry H.Note} (telling : entry.telling? cpu = other.telling? cpu)
    (noFire : entry.firing? cpu = none) :
    AlikeFor part cpu (left.record entry) (right.record other) := by
  constructor
  case hub => exact alike.hub
  case host => exact alike.host
  case told =>
    rw [journal_record, journal_record, tellings_cons, tellings_cons, telling, alike.told]
  case fires =>
    rw [journal_record, firings_cons, noFire, Option.toList_none, List.append_nil, ← alike.fires]
    exact Eq.refl right.fires

/-- Worlds that are alike for a processor are so when a fire begins for it. -/
theorem begun (registry : Nat) (event : Event) :
    AlikeFor part cpu (left.begun registry cpu event) (right.begun registry cpu event) := by
  constructor
  case hub => exact alike.hub
  case host => exact alike.host
  case told => simpa [journal_begun, tellings_cons, Entry.telling?] using alike.told
  case fires =>
    simp only [journal_begun, firings_cons, Entry.firing?, if_true, Option.toList_some,
      List.length_append, List.length_singleton, ← alike.fires]
    exact Eq.refl (right.fires + 1)

/-- A registration for the processor is answered alike, and keeps the worlds alike for it.

Proof: the rosters for the processor are equal, so the name is free in both worlds or in use in
both. -/
theorem register (registry : Nat) (name : String) (listener : Listener) :
    (left.register registry cpu name listener).1 = (right.register registry cpu name listener).1 ∧
      AlikeFor part cpu (left.register registry cpu name listener).2
        (right.register registry cpu name listener).2 := by
  have roster : left.hub.roster registry cpu = right.hub.roster registry cpu :=
    alike.hub.roster registry
  have silent : Hub.AlikeFor cpu (left.register registry cpu name listener).2.hub
        (right.register registry cpu name listener).2.hub →
      AlikeFor part cpu (left.register registry cpu name listener).2
        (right.register registry cpu name listener).2 :=
    alike.of_silent (Silent.register left registry cpu name listener)
      (Silent.register right registry cpu name listener)
  cases free : (left.hub.roster registry cpu).has name with
  | false =>
    have freeToo : (right.hub.roster registry cpu).has name = false := roster ▸ free
    rw [left.register_free listener free, right.register_free listener freeToo] at silent ⊢
    refine ⟨rfl, silent ?_⟩
    rw [hub_record, hub_record, enlisted, enlisted,
      Roster.insert_congr roster name listener free freeToo]
    exact alike.hub.setRoster ..
  | true =>
    have usedToo : (right.hub.roster registry cpu).has name = true := roster ▸ free
    rw [left.register_used listener free, right.register_used listener usedToo] at silent ⊢
    exact ⟨rfl, silent alike.hub⟩

/-- A removal for the processor is answered alike, and keeps the worlds alike for it. -/
theorem remove (registry : Nat) (name : String) :
    (left.remove registry cpu name).1 = (right.remove registry cpu name).1 ∧
      AlikeFor part cpu (left.remove registry cpu name).2 (right.remove registry cpu name).2 := by
  have roster : left.hub.roster registry cpu = right.hub.roster registry cpu :=
    alike.hub.roster registry
  have silent : Hub.AlikeFor cpu (left.remove registry cpu name).2.hub
        (right.remove registry cpu name).2.hub →
      AlikeFor part cpu (left.remove registry cpu name).2 (right.remove registry cpu name).2 :=
    alike.of_silent (Silent.remove left registry cpu name)
      (Silent.remove right registry cpu name)
  cases used : (left.hub.roster registry cpu).has name with
  | false =>
    rw [left.remove_free used, right.remove_free (roster ▸ used)]
    exact ⟨rfl, alike⟩
  | true =>
    rw [left.remove_used used, right.remove_used (roster ▸ used)] at silent ⊢
    refine ⟨rfl, silent ?_⟩
    rw [hub_record, hub_record, struck, struck, roster]
    exact alike.hub.setRoster ..

/-- Clearing the poll of the processor keeps the worlds alike for it. -/
theorem clear (number : Nat) :
    AlikeFor part cpu (left.clear number cpu) (right.clear number cpu) := by
  apply alike.of_silent (Silent.clear ..) (Silent.clear ..)
  exact alike.hub.modifyDetector number Detector.share_clear

/-- Telling a detector about the processor keeps the worlds alike for it. -/
theorem signal (number : Nat) (event : Event) :
    AlikeFor part cpu (left.signal number cpu event) (right.signal number cpu event) := by
  apply alike.of_silent (Silent.signal ..) (Silent.signal ..)
  rw [hub_signal, hub_signal]
  exact alike.hub.signal number event

end World.AlikeFor

/-- Telling listeners about a processor comes to the same in two worlds that are alike for it, as
long as no more than a journal has happened. -/
def World.DeliversAlike (part : Cpu → H.State → S) (cpu : Cpu) (journal : List (Entry H.Note))
    (deliver other : Delivery H) : Prop :=
  ∀ listener event {left right}, AlikeFor part cpu left right →
    (deliver listener cpu event left).2.journal <:+ journal →
    (deliver listener cpu event left).1 = (other listener cpu event right).1 ∧
      AlikeFor part cpu (deliver listener cpu event left).2 (other listener cpu event right).2

section Alongside

variable {part : Cpu → H.State → S} {first second : Setting H}
  (behaves : second.behave = first.behave) (separates : first.Separates part) {cpu : Cpu}
  {journal : List (Entry H.Note)} (arranges : first.ArrangesAlike second cpu journal) {depth : Nat}

namespace World.AlikeFor

variable {left right : World H}
  (delivers : DeliversAlike part cpu journal (first.deliver depth) (second.deliver depth))

include delivers

/-- Calling the same listeners comes to the same in worlds that are alike for the processor,
although the fires have different numbers.

Proof: by induction on the listeners. The same listener is called in both worlds, and what it does
is alike as long as the journal of the first world does not outgrow the one that the orders are
compared on. -/
theorem callEach (alike : AlikeFor part cpu left right) (fire other : Nat) (event : Event)
    (order : List Listener)
    (inside : (World.callEach (first.deliver depth) fire cpu event order left).2.journal <:+
      journal) :
    (World.callEach (first.deliver depth) fire cpu event order left).1 =
        (World.callEach (second.deliver depth) other cpu event order right).1 ∧
      AlikeFor part cpu (World.callEach (first.deliver depth) fire cpu event order left).2
        (World.callEach (second.deliver depth) other cpu event order right).2 := by
  induction order generalizing left right with
  | nil => exact ⟨rfl, alike⟩
  | cons listener later inductionHypothesis =>
    have called : AlikeFor part cpu (left.record (.called fire listener cpu event))
        (right.record (.called other listener cpu event)) := alike.record rfl rfl
    have told := delivers listener event called
    simp only [World.callEach] at inside ⊢
    generalize first.deliver depth listener cpu event
      (left.record (.called fire listener cpu event)) = one at told inside ⊢
    generalize second.deliver depth listener cpu event
      (right.record (.called other listener cpu event)) = another at told ⊢
    obtain ⟨outcome, middle⟩ := one
    obtain ⟨_, shadow⟩ := another
    cases outcome with
    | done value =>
      have grown : middle.journal <:+ (callEach (first.deliver depth) fire cpu event later
          (middle.record (.returned fire))).2.journal :=
        (List.suffix_cons ..).trans (suffix_callEach first depth fire cpu event later
          (middle.record (.returned fire)))
      obtain ⟨rfl, after⟩ := told (grown.trans inside)
      exact inductionHypothesis (after.record rfl rfl) inside
    | panicked cause =>
      obtain ⟨rfl, after⟩ := told inside
      exact ⟨rfl, after⟩
    | exhausted =>
      obtain ⟨rfl, after⟩ := told inside
      exact ⟨rfl, after⟩

include arranges

/-- A fire for the processor comes to the same in worlds that are alike for it.

Proof: the fires for the processor have the same place among those of their worlds, so that their
snapshots are called in the same order. The snapshots themselves are equal. -/
theorem fire (alike : AlikeFor part cpu left right) (registry : Nat) (event : Event)
    (inside : (left.fire (first.deliver depth) first.arrange registry cpu event).2.journal <:+
      journal) :
    (left.fire (first.deliver depth) first.arrange registry cpu event).1 =
        (right.fire (second.deliver depth) second.arrange registry cpu event).1 ∧
      AlikeFor part cpu (left.fire (first.deliver depth) first.arrange registry cpu event).2
        (right.fire (second.deliver depth) second.arrange registry cpu event).2 := by
  rw [fire_eq] at inside
  have grown : (left.begun registry cpu event).journal <:+ journal :=
    (suffix_callEach first depth left.fires cpu event
      (first.arrange left.fires (left.hub.roster registry cpu).listeners)
      (left.begun registry cpu event)).trans inside
  -- The fire has the same place among those of the processor in both worlds.
  have placed : (firings cpu journal)[right.fires]? = some left.fires := by
    obtain ⟨rest, same⟩ : firings cpu (left.begun registry cpu event).journal <+:
        firings cpu journal := firings_prefix grown
    rw [← same, journal_begun, firings_cons, Entry.firing?, if_pos rfl, alike.fires]
    simp
  have order : second.arrange right.fires = first.arrange left.fires :=
    arranges right.fires left.fires placed
  have roster : left.hub.roster registry cpu = right.hub.roster registry cpu :=
    alike.hub.roster registry
  rw [fire_eq, fire_eq, order, ← roster]
  obtain ⟨same, after⟩ := (alike.begun registry event).callEach delivers left.fires right.fires
    event (first.arrange left.fires (left.hub.roster registry cpu).listeners) inside
  exact ⟨congrArg (Outcome.map _) same, after⟩

/-- A request that concerns the processor is answered alike in worlds that are alike for it.

Proof: one case per request. Those that do not concern one processor are excluded. -/
theorem answer (alike : AlikeFor part cpu left right) {wanted : Request}
    (concerns : wanted.Concerns cpu)
    (inside : (left.answer (first.deliver depth) first.arrange wanted).2.journal <:+ journal) :
    Outcome.Matches (wanted.AlikeFor cpu)
        (left.answer (first.deliver depth) first.arrange wanted).1
        (right.answer (second.deliver depth) second.arrange wanted).1 ∧
      AlikeFor part cpu (left.answer (first.deliver depth) first.arrange wanted).2
        (right.answer (second.deliver depth) second.arrange wanted).2 := by
  cases wanted with
  | register registry place name listener =>
    cases concerns
    obtain ⟨same, after⟩ := alike.register registry name listener
    exact ⟨.done same, after⟩
  | remove registry place name =>
    cases concerns
    obtain ⟨same, after⟩ := alike.remove registry name
    exact ⟨.done same, after⟩
  | fire registry place event =>
    cases concerns
    obtain ⟨same, after⟩ := fire arranges delivers alike registry event inside
    exact ⟨.of_eq (fun _ => rfl) same, after⟩
  | notify listener place event =>
    cases concerns
    obtain ⟨same, after⟩ := delivers _ _ (alike.record rfl rfl) inside
    exact ⟨.of_eq (fun _ => rfl) same, after⟩
  | clear detector place =>
    cases concerns
    exact ⟨.done rfl, alike.clear detector⟩
  | survey => exact ⟨.done alike.hub, alike⟩
  | registerBoth registry name listener => exact concerns.elim
  | removeBoth registry name => exact concerns.elim
  | fireBoth registry event => exact concerns.elim
  | attach registry config => exact concerns.elim
  | openRegistry => exact concerns.elim
  | retire registry => exact concerns.elim

/-- A program that is confined to a processor does the same in two worlds that are alike for it.

Proof: by induction on the program. A confined program asks about its own processor only, and of the
answer it uses only what is alike. -/
theorem run (alike : AlikeFor part cpu left right) {σ α : Type} {program : Program H σ α}
    (confined : program.Confined part cpu) (state : σ)
    (inside : (first.run depth program state left).2.2.journal <:+ journal) :
    (first.run depth program state left).1 = (second.run depth program state right).1 ∧
      (first.run depth program state left).2.1 = (second.run depth program state right).2.1 ∧
      AlikeFor part cpu (first.run depth program state left).2.2
        (second.run depth program state right).2.2 := by
  simp only [Setting.run] at inside ⊢
  induction program generalizing state left right with
  | ret value => exact ⟨rfl, rfl, alike⟩
  | panic cause => exact ⟨rfl, rfl, alike⟩
  | look next inductionHypothesis =>
    exact inductionHypothesis state alike (confined state) state inside
  | change f next inductionHypothesis => exact inductionHypothesis alike confined (f state) inside
  | ask next inductionHypothesis =>
    obtain ⟨sees, rest⟩ := confined
    simp only [Program.run, ← sees _ _ alike.host] at inside ⊢
    exact inductionHypothesis left.host alike (rest left.host) state inside
  | alter f next inductionHypothesis =>
    obtain ⟨changes, _, rest⟩ := confined
    have altered : AlikeFor part cpu { left with host := f left.host }
        { right with host := f right.host } :=
      ⟨alike.hub, changes _ _ alike.host, alike.told, alike.fires⟩
    exact inductionHypothesis altered rest state inside
  | remark content next inductionHypothesis =>
    exact inductionHypothesis (alike.record rfl rfl) confined state inside
  | request wanted next inductionHypothesis =>
    obtain ⟨concerns, sees, rest⟩ := confined
    have answers := answer arranges delivers alike concerns
    simp only [Program.run] at inside ⊢
    generalize left.answer (first.deliver depth) first.arrange wanted = one at answers inside ⊢
    generalize right.answer (second.deliver depth) second.arrange wanted = another at answers ⊢
    obtain ⟨outcome, middle⟩ := one
    obtain ⟨other, shadow⟩ := another
    have reached : middle.journal <:+ journal := by
      cases outcome with
      | done reply =>
        have ran : first.run depth (next reply) state middle = _ := rfl
        exact (first.suffix_of_run ran).trans inside
      | panicked cause => exact inside
      | exhausted => exact inside
    obtain ⟨same, after⟩ := answers reached
    dsimp only at same after
    cases same with
    | @done reply answer related =>
      dsimp only at inside ⊢
      rw [← sees reply answer related]
      exact inductionHypothesis reply after (rest reply) state inside
    | panicked cause => exact ⟨rfl, rfl, after⟩
    | exhausted => exact ⟨rfl, rfl, after⟩

end World.AlikeFor

include behaves separates arranges

/-- Listeners do the same about a processor in two worlds that are alike for it, to any depth. -/
theorem Setting.Separates.deliversAlike (depth : Nat) :
    World.DeliversAlike part cpu journal (first.deliver depth) (second.deliver depth) := by
  induction depth with
  | zero =>
    intro listener event left right alike inside
    cases listener with
    | detector number => exact ⟨rfl, alike.signal number event⟩
    | hosted number => exact ⟨rfl, alike⟩
  | succ depth inductionHypothesis =>
    intro listener event left right alike inside
    cases listener with
    | detector number => exact ⟨rfl, alike.signal number event⟩
    | hosted number =>
      obtain ⟨same, _, after⟩ :=
        alike.run arranges inductionHypothesis (separates number cpu event) () inside
      simp only [Setting.deliver, behaves]
      exact ⟨same, after⟩

end Alongside

/-- What can be asked about one processor. -/
inductive Operation where
  | register (registry : Nat) (name : String) (listener : Listener)
  | remove (registry : Nat) (name : String)
  | fire (registry : Nat) (event : Event)
  /-- A listener is told about an event without a fire. -/
  | notify (listener : Listener) (event : Event)
  | clear (detector : Nat)
  /-- Whether a name is in use. -/
  | has (registry : Nat) (name : String)
  | size (registry : Nat)
  | names (registry : Nat)
  /-- What a detector keeps. -/
  | watch (detector : Nat)

namespace Operation

/-- What is answered. -/
inductive Result where
  | registered (reply : Except Duplicate Unit)
  | flag (value : Bool)
  | count (value : Nat)
  | names (value : List String)
  | watch (value : Watch)
  | nothing
  deriving DecidableEq

/-- An operation about a processor. -/
def program (cpu : Cpu) : Operation → Program H Unit Result
  | .register registry name listener =>
    .request (.register registry cpu name listener) fun reply => .ret (.registered reply)
  | .remove registry name =>
    .request (.remove registry cpu name) fun removed => .ret (.flag removed)
  | .fire registry event => .request (.fire registry cpu event) fun called => .ret (.count called)
  | .notify listener event => .request (.notify listener cpu event) fun _ => .ret .nothing
  | .clear detector => .request (.clear detector cpu) fun _ => .ret .nothing
  | .has registry name =>
    .request .survey fun hub => .ret (.flag ((hub.roster registry cpu).has name))
  | .size registry => .request .survey fun hub => .ret (.count (hub.roster registry cpu).size)
  | .names registry => .request .survey fun hub => .ret (.names (hub.roster registry cpu).names)
  | .watch detector =>
    .request .survey fun hub => .ret (.watch ((hub.detector detector).watches.get cpu))

/-- An operation is confined to the processor that it is about.

Proof: every operation is one request and a result that is read off its answer. It remains to say
whom the request concerns, and that the result looks at nothing but that processor's part of the
answer. -/
theorem confined (part : Cpu → H.State → S) (cpu : Cpu) (operation : Operation) :
    (operation.program cpu : Program H Unit Result).Confined part cpu := by
  have asks : ∀ (wanted : Request) (result : wanted.Reply → Result), wanted.Concerns cpu →
      (∀ left right, wanted.AlikeFor cpu left right → result left = result right) →
      (.request wanted fun reply => .ret (result reply) : Program H Unit Result).Confined part
        cpu :=
    fun wanted result concerns same => ⟨concerns, fun left right alike =>
      congrArg Program.ret (same left right alike), fun _ => trivial⟩
  cases operation with
  | register registry name listener =>
    apply asks (.register registry cpu name listener) Result.registered rfl
    exact fun _ _ same => congrArg Result.registered same
  | remove registry name =>
    apply asks (.remove registry cpu name) Result.flag rfl
    exact fun _ _ same => congrArg Result.flag same
  | fire registry event =>
    apply asks (.fire registry cpu event) Result.count rfl
    exact fun _ _ same => congrArg Result.count same
  | notify listener event =>
    apply asks (.notify listener cpu event) (fun _ => .nothing) rfl
    simp
  | clear detector =>
    apply asks (.clear detector cpu) (fun _ => .nothing) rfl
    simp
  | has registry name =>
    apply asks .survey _ trivial
    intro left right alike
    rw [alike.roster]
  | size registry =>
    apply asks .survey _ trivial
    intro left right alike
    rw [alike.roster]
  | names registry =>
    apply asks .survey _ trivial
    intro left right alike
    rw [alike.roster]
  | watch detector =>
    apply asks .survey _ trivial
    intro left right alike
    have share : (Hub.detector left detector).share cpu = (Hub.detector right detector).share cpu :=
      alike.share detector
    simp only [Detector.share, Prod.mk.injEq] at share
    rw [share.2.2]

end Operation

namespace Setting

/-- Performs operations about processors one after the other, also after one that panicked, and
gives all results. -/
def performAll (setting : Setting H) (depth : Nat) :
    List (Cpu × Operation) → World H → List (Cpu × Outcome Operation.Result) × World H
  | [], world => ([], world)
  | (cpu, operation) :: later, world =>
    match setting.run depth (operation.program cpu) () world with
    | (outcome, _, world) =>
      Prod.map ((cpu, outcome) :: ·) id (performAll setting depth later world)

/-- Operations add to the journal and take nothing away. -/
theorem suffix_performAll (setting : Setting H) (depth : Nat) (operations : List (Cpu × Operation))
    (world : World H) :
    world.journal <:+ (setting.performAll depth operations world).2.journal := by
  induction operations generalizing world with
  | nil => exact List.suffix_rfl
  | cons next later inductionHypothesis =>
    cases ran : setting.run depth (next.2.program next.1) () world with
    | mk outcome reached =>
    simp only [performAll, ran]
    exact (setting.suffix_of_run ran).trans (inductionHypothesis reached.2)

/-- The same listeners, where each fire takes the order of calls that the fire at its place among
those for a processor has in a journal. -/
def condensed (setting : Setting H) (cpu : Cpu) (journal : List (Entry H.Note)) : Setting H where
  behave := setting.behave
  arrange place listeners :=
    ((firings cpu journal)[place]?).elim listeners (setting.arrange · listeners)
  arrange_perm place listeners := by
    cases (firings cpu journal)[place]? with
    | none => exact .refl listeners
    | some number => exact setting.arrange_perm number listeners

/-- The condensed setting arranges the listeners of the processor as the journal says. -/
theorem arrangesAlike_condensed (setting : Setting H) (cpu : Cpu) (journal : List (Entry H.Note)) :
    setting.ArrangesAlike (setting.condensed cpu journal) cpu journal := by
  intro place number placed
  funext listeners
  simp only [condensed, placed, Option.elim_some]

end Setting

/-- In two worlds that are alike for a processor, operations about it do the same, and those about
the other one may be left out.

Proof: by induction on the operations. One that is about the processor does the same on both sides.
One that is about the other processor spares this one, so the world it leaves is still alike to the
one where it was left out. -/
theorem World.AlikeFor.performAll {part : Cpu → H.State → S} {first second : Setting H}
    (behaves : second.behave = first.behave) (separates : first.Separates part) {cpu : Cpu}
    {journal : List (Entry H.Note)} (arranges : first.ArrangesAlike second cpu journal)
    (depth : Nat) {left right : World H} (alike : AlikeFor part cpu left right)
    (operations : List (Cpu × Operation))
    (inside : (first.performAll depth operations left).2.journal <:+ journal) :
    (first.performAll depth operations left).1.filter (fun result => result.1 = cpu) =
        (second.performAll depth (operations.filter fun next => next.1 = cpu) right).1 ∧
      AlikeFor part cpu (first.performAll depth operations left).2
        (second.performAll depth (operations.filter fun next => next.1 = cpu) right).2 := by
  induction operations generalizing left right with
  | nil => exact ⟨rfl, alike⟩
  | cons next later inductionHypothesis =>
    obtain ⟨place, operation⟩ := next
    cases ran : first.run depth (operation.program place) () left with
    | mk outcome reached =>
    obtain ⟨state, after⟩ := reached
    have stepped : (first.performAll depth ((place, operation) :: later) left) =
        Prod.map ((place, outcome) :: ·) id (first.performAll depth later after) := by
      simp only [Setting.performAll, ran]
    rw [stepped] at inside ⊢
    by_cases kept : place = cpu
    · subst kept
      have early : after.journal <:+ journal :=
        (first.suffix_performAll depth later after).trans inside
      have together := alike.run arranges (separates.deliversAlike behaves arranges depth)
        (operation.confined part place) () (by rw [ran]; exact early)
      cases follows : second.run depth (operation.program place) () right with
      | mk other shadow =>
      rw [ran, follows] at together
      obtain ⟨rfl, _, still⟩ := together
      obtain ⟨results, last⟩ := inductionHypothesis still inside
      simp only [List.filter_cons, decide_true, if_true, Setting.performAll, follows, Prod.map_fst,
        Prod.map_snd, results]
      exact ⟨trivial, last⟩
    · have spared : Spares part cpu left ((Operation.program place operation).run
          (first.deliver depth) first.arrange () left).2.2 :=
        (separates.delivers (Ne.symm kept) depth).run (Ne.symm kept) first.arrange
          (operation.confined part place) () left
      have same : (operation.program place).run (first.deliver depth) first.arrange () left =
        (outcome, state, after) := ran
      rw [same] at spared
      obtain ⟨results, last⟩ := inductionHypothesis (alike.spared spared) inside
      simp only [List.filter_cons, kept, decide_false, Bool.false_eq_true, if_false, Prod.map_fst,
        Prod.map_snd, results]
      exact ⟨trivial, last⟩

namespace Setting

/-- Take any registries and detectors, outside listeners that keep the processors apart, and any
operations each of which is about one processor. Leave out those about the other processor, with the
remaining fires in the same order of calls, which is possible whatever this order was. The results
of the operations that are left are the same, also those that are panics. In the end the same is
registered for their processor, the detectors keep the same about it, and in between the same
listeners were told the same about it in the same order.

Proof: fires can be renumbered so that the remaining ones are called as before, which gives the
setting. In any such setting, the two worlds begin alike for the processor, and then
`World.AlikeFor.performAll` applies. -/
theorem performAll_filter {part : Cpu → H.State → S} {first : Setting H}
    (separates : first.Separates part) (depth : Nat) (hub : Hub) (host : H.State) (cpu : Cpu)
    (operations : List (Cpu × Operation)) :
    let whole := first.performAll depth operations ⟨hub, [], 0, host⟩
    (∃ second : Setting H, second.behave = first.behave ∧
      first.ArrangesAlike second cpu whole.2.journal) ∧
    ∀ second : Setting H, second.behave = first.behave →
      first.ArrangesAlike second cpu whole.2.journal →
      let rest := second.performAll depth (operations.filter fun next => next.1 = cpu)
        ⟨hub, [], 0, host⟩
      whole.1.filter (fun result => result.1 = cpu) = rest.1 ∧
        whole.2.hub.AlikeFor cpu rest.2.hub ∧
        tellings cpu whole.2.journal = tellings cpu rest.2.journal ∧
        part cpu whole.2.host = part cpu rest.2.host := by
  intro whole
  refine ⟨⟨first.condensed cpu whole.2.journal, rfl, first.arrangesAlike_condensed cpu _⟩, ?_⟩
  intro second behaves arranges rest
  have alike : World.AlikeFor part cpu (⟨hub, [], 0, host⟩ : World H) ⟨hub, [], 0, host⟩ :=
    ⟨.refl cpu hub, rfl, rfl, rfl⟩
  obtain ⟨results, last⟩ :=
    alike.performAll behaves separates arranges depth operations List.suffix_rfl
  exact ⟨results, last.hub, last.told, last.host⟩

/-- Outside listeners that count their calls for each processor. Every other fire calls its snapshot
backwards. -/
def counting : Setting ⟨Pair Nat, Unit⟩ where
  behave _ cpu _ := .alter (fun (counts : Pair Nat) => counts.modify cpu (· + 1)) (.ret ())
  arrange fire listeners := if fire % 2 = 0 then listeners else listeners.reverse
  arrange_perm fire listeners := by
    split
    · exact .refl listeners
    · exact listeners.reverse_perm

/-- The same listeners, with all fires backwards. -/
def countingBackwards : Setting ⟨Pair Nat, Unit⟩ :=
  { counting with
    arrange := fun _ listeners => listeners.reverse
    arrange_perm := fun _ listeners => listeners.reverse_perm }

/-- Both processors poll, and are woken, so that the detector leaves the registry. -/
def bothWoken : List (Cpu × Operation) := [
  (.slave, .register 0 "ear" (.hosted 0)), (.master, .register 0 "ear" (.hosted 0)),
  (.master, .fire 0 .startPolling), (.slave, .fire 0 .startPolling),
  (.master, .fire 0 .comm), (.slave, .fire 0 .comm),
  (.master, .remove 0 "ear"), (.slave, .has 0 "poller"), (.slave, .watch 0)]

/-- Each listener that counts is confined to the processor that it is told about. -/
theorem counting_separates : counting.Separates fun cpu (counts : Pair Nat) => counts.get cpu := by
  intro number cpu event
  refine ⟨?_, ?_, trivial⟩
  · intro left right same
    simp [same]
  · intro place counts apart
    simp [Pair.modify, Pair.get_set, apart]

/-- Without the master, the slave's fires are the first and the second one and not the second and
the fourth one. -/
theorem performAll_filter_bothWoken :
    let hub := ((World.initial (H := ⟨Pair Nat, Unit⟩) ⟨0, 0⟩).attach 0 ⟨true, [.comm]⟩).2.hub
    let whole := counting.performAll 1 bothWoken ⟨hub, [], 0, ⟨0, 0⟩⟩
    let rest := countingBackwards.performAll 1 (bothWoken.filter fun next => next.1 = .slave)
      ⟨hub, [], 0, ⟨0, 0⟩⟩
    firings .slave whole.2.journal = [1, 3] ∧ firings .slave rest.2.journal = [0, 1] ∧
      rest.1.map Prod.snd = [.done (.registered (.ok ())), .done (.count 2), .done (.count 2),
        .done (.flag false), .done (.watch ⟨false, 1, 1⟩)] ∧
      whole.1.filter (fun result => result.1 = .slave) = rest.1 ∧
      tellings .slave whole.2.journal = tellings .slave rest.2.journal := by
  intro hub
  have odd : firings .slave (counting.performAll 1 bothWoken ⟨hub, [], 0, ⟨0, 0⟩⟩).2.journal =
      [1, 3] := by decide +kernel
  have arranges : counting.ArrangesAlike countingBackwards .slave
      (counting.performAll 1 bothWoken ⟨hub, [], 0, ⟨0, 0⟩⟩).2.journal := by
    intro place number placed
    rw [odd] at placed
    have member : number ∈ [1, 3] := List.mem_of_getElem? placed
    funext listeners
    rcases List.mem_pair.mp member with rfl | rfl
    · simp [counting, countingBackwards]
    · simp [counting, countingBackwards]
  obtain ⟨results, _, told, _⟩ :=
    (performAll_filter counting_separates 1 hub ⟨0, 0⟩ .slave bothWoken).2 countingBackwards rfl
      arranges
  exact ⟨odd, by decide +kernel, by decide +kernel, results, told⟩

end Setting

end Sh2Pair
