import Sh2Pair.Proofs.Course
import Sh2Pair.Proofs.Depth
import Sh2Pair.Proofs.Ledger

/-!
# Fires call their snapshot

A fire calls exactly the listeners that are registered when it begins, each once for each of its
registrations, with the event and the processor of the fire. What the listeners do to the
registry meanwhile, and what they fire themselves, to whatever depth, adds no call to it and
takes none away. A listener that panics ends the fire: those before it in the order and itself
were called, the others were not, and everything registered or removed until then stays so.

A fire for both processors is a fire for the master and then one for the slave, which takes its
snapshot when all listeners of the first have come back.
-/

namespace Sh2Pair

namespace World

variable {H : Host}

/-- Listeners are called one after the other, and each comes back. -/
inductive Returning (deliver : Delivery H) (fire : Nat) (cpu : Cpu) (event : Event) :
    List Listener → World H → World H → Prop where
  | nobody (world : World H) : Returning deliver fire cpu event [] world world
  | next {listener : Listener} {later : List Listener} {world middle after : World H}
      (returned : deliver listener cpu event (world.record (.called fire listener cpu event)) =
        (.done (), middle))
      (rest : Returning deliver fire cpu event later (middle.record (.returned fire)) after) :
      Returning deliver fire cpu event (listener :: later) world after

section Calls

variable {deliver : Delivery H} {fire : Nat} {cpu : Cpu} {event : Event}

/-- Calling listeners comes back exactly if each of them does.

Proof: by induction on the order of the calls. The calls come back if the first one does and the
later ones do. -/
theorem callEach_done_iff (order : List Listener) (world after : World H) :
    callEach deliver fire cpu event order world = (.done (), after) ↔
      Returning deliver fire cpu event order world after := by
  induction order generalizing world with
  | nil =>
    constructor
    · intro called
      injection called with _ same
      exact same ▸ .nobody world
    · intro returning
      cases returning
      rfl
  | cons listener later inductionHypothesis =>
    simp only [callEach]
    cases told : deliver listener cpu event (world.record (.called fire listener cpu event)) with
    | mk outcome middle =>
    cases outcome with
    | done value =>
      refine (inductionHypothesis _).trans ?_
      constructor
      · intro returning
        exact .next told returning
      · rintro (_ | ⟨returned, rest⟩)
        rw [told] at returned
        injection returned with _ same
        exact same ▸ rest
    | panicked cause =>
      constructor
      · intro called
        cases called
      · rintro (_ | ⟨returned, rest⟩)
        rw [told] at returned
        cases returned
    | exhausted =>
      constructor
      · intro called
        cases called
      · rintro (_ | ⟨returned, rest⟩)
        rw [told] at returned
        cases returned

/-- Calling listeners ends with a panic exactly if one of them panics and those before it come
back. The world is then as the panic left it.

Proof: by induction on the order of the calls. Either the first call panics, or it comes back and
one of the later ones panics. -/
theorem callEach_panicked_iff (order : List Listener) (world after : World H) (cause : Panic) :
    callEach deliver fire cpu event order world = (.panicked cause, after) ↔
      ∃ earlier listener later middle, order = earlier ++ listener :: later ∧
        Returning deliver fire cpu event earlier world middle ∧
        deliver listener cpu event (middle.record (.called fire listener cpu event)) =
          (.panicked cause, after) := by
  induction order generalizing world with
  | nil =>
    constructor
    · intro called
      cases called
    · rintro ⟨earlier, listener, later, _, split, _⟩
      cases earlier <;> cases split
  | cons first others inductionHypothesis =>
    constructor
    · intro called
      simp only [callEach] at called
      cases told : deliver first cpu event (world.record (.called fire first cpu event)) with
      | mk outcome middle =>
      rw [told] at called
      cases outcome with
      | done value =>
        obtain ⟨earlier, listener, later, last, split, returning, panicked⟩ :=
          (inductionHypothesis _).mp called
        refine ⟨first :: earlier, listener, later, last, ?_, .next told returning, panicked⟩
        rw [split, List.cons_append]
      | panicked other => exact ⟨[], first, others, world, rfl, .nobody world, told.trans called⟩
      | exhausted => cases called
    · rintro ⟨earlier, listener, later, last, split, returning, panicked⟩
      simp only [callEach]
      cases earlier with
      | nil =>
        injection split with same _
        subst same
        cases returning
        rw [panicked]
      | cons head earlier =>
        injection split with same rest
        subst same
        cases returning with
        | next returned returning =>
          rw [returned]
          exact (inductionHypothesis _).mpr
            ⟨earlier, listener, later, last, rest, returning, panicked⟩

/-- Nothing that runs after a fire has begun calls a listener for it, but the fire itself. -/
theorem Accounts.calls_eq_nil {before after : World H} {recent : List (Entry H.Note)}
    (accounts : Accounts before after recent) (begun : fire < before.fires) :
    Sh2Pair.calls fire recent = [] := by
  rw [Sh2Pair.calls, List.reverse_eq_nil_iff, List.filterMap_eq_nil_iff]
  intro entry member
  cases entry with
  | called seen listener place what =>
    have later : before.fires ≤ seen := accounts.calls seen listener place what member
    exact if_neg (by omega)
  | _ => rfl

/-- One call of a fire is one call of it, whatever the listener does. -/
theorem calls_of_deliver (delivered : DeliversWithin Later deliver) {world after : World H}
    {listener : Listener} {outcome : Outcome Unit} (begun : fire < world.fires)
    (told : deliver listener cpu event (world.record (.called fire listener cpu event)) =
      (outcome, after)) :
    ∃ recent, after.journal = recent ++ world.journal ∧
      calls fire recent = [(listener, cpu, event)] ∧ world.fires ≤ after.fires := by
  have ran : Later (world.record (.called fire listener cpu event)) after := by
    have within : ((world.record (.called fire listener cpu event)).told listener cpu event).Later
        (deliver listener cpu event (world.record (.called fire listener cpu event))).2 :=
      delivered listener cpu event (world.record (.called fire listener cpu event))
    rw [told] at within
    exact Later.trans (Later.told _ listener cpu event) within
  obtain ⟨recent, accounts⟩ := ran
  refine ⟨recent ++ [.called fire listener cpu event], ?_, ?_, accounts.fires⟩
  · rw [accounts.journal, List.append_assoc]
    rfl
  · rw [calls_append, accounts.calls_eq_nil begun, List.append_nil]
    simp [calls, Entry.call?]

/-- Calls that all come back are the calls of the fire. The induction is on the calls; each of
them leaves the fires numbered above this one. -/
theorem Returning.calls (delivered : DeliversWithin Later deliver) {order : List Listener}
    {world after : World H} (returning : Returning deliver fire cpu event order world after)
    (begun : fire < world.fires) :
    ∃ recent, after.journal = recent ++ world.journal ∧
      Sh2Pair.calls fire recent = order.map (fun listener => (listener, cpu, event)) ∧
      world.fires ≤ after.fires := by
  induction returning with
  | nobody world => exact ⟨[], rfl, rfl, Nat.le_refl _⟩
  | next returned rest inductionHypothesis =>
    obtain ⟨early, journal, called, fires⟩ := calls_of_deliver delivered begun returned
    obtain ⟨late, continued, others, further⟩ :=
      inductionHypothesis (Nat.lt_of_lt_of_le begun fires)
    refine ⟨late ++ .returned fire :: early, ?_, ?_, Nat.le_trans fires further⟩
    · rw [continued, journal_record, journal, List.append_assoc, List.cons_append]
    · have same : Sh2Pair.calls fire (.returned fire :: early) = Sh2Pair.calls fire early := rfl
      rw [calls_append, same, called, others]
      rfl

end Calls

section Laws

variable (setting : Setting H) (depth : Nat)

/-- What a fire promises. The order in which it calls is whatever the setting makes of its
snapshot; the promises hold for every order. -/
structure FiresSnapshot (world : World H) (registry : Nat) (cpu : Cpu) (event : Event) :
    Prop where
  /-- Each registration of the snapshot has its place in the order, and nothing else has. -/
  order : (setting.arrange world.fires (world.hub.roster registry cpu).listeners).Perm
    (world.hub.roster registry cpu).listeners
  /-- The fire comes back exactly if every call does, and gives the number of registrations that
  there were. -/
  done_iff : ∀ count after,
    world.fire (setting.deliver depth) setting.arrange registry cpu event = (.done count, after) ↔
      count = (world.hub.roster registry cpu).size ∧
        Returning (setting.deliver depth) world.fires cpu event
          (setting.arrange world.fires (world.hub.roster registry cpu).listeners)
          (world.begun registry cpu event) after
  /-- The fire panics exactly if some call does and those before it come back. It leaves
  everything as the panicking call left it. -/
  panicked_iff : ∀ cause after,
    world.fire (setting.deliver depth) setting.arrange registry cpu event =
        (.panicked cause, after) ↔
      ∃ earlier listener later middle,
        setting.arrange world.fires (world.hub.roster registry cpu).listeners =
          earlier ++ listener :: later ∧
        Returning (setting.deliver depth) world.fires cpu event earlier
          (world.begun registry cpu event) middle ∧
        setting.deliver depth listener cpu event
          (middle.record (.called world.fires listener cpu event)) = (.panicked cause, after)
  /-- The calls of a fire that comes back are those of the whole order, each with the event and
  the processor of the fire, and the journal accounts for what is registered after it. -/
  calls_of_done : ∀ count after,
    world.fire (setting.deliver depth) setting.arrange registry cpu event = (.done count, after) →
      ∃ recent, Accounts world after recent ∧
        Sh2Pair.calls world.fires recent =
          (setting.arrange world.fires (world.hub.roster registry cpu).listeners).map
            fun listener => (listener, cpu, event)
  /-- The calls of a fire that panics are those up to the listener that panicked, and the
  journal accounts for what is registered after it. -/
  calls_of_panicked : ∀ cause after earlier listener later middle,
    world.fire (setting.deliver depth) setting.arrange registry cpu event =
      (.panicked cause, after) →
    setting.arrange world.fires (world.hub.roster registry cpu).listeners =
      earlier ++ listener :: later →
    Returning (setting.deliver depth) world.fires cpu event earlier
      (world.begun registry cpu event) middle →
    setting.deliver depth listener cpu event
      (middle.record (.called world.fires listener cpu event)) = (.panicked cause, after) →
      ∃ recent, Accounts world after recent ∧
        Sh2Pair.calls world.fires recent =
          (earlier ++ [listener]).map fun callee => (callee, cpu, event)

/-- What a fire for both processors promises. -/
structure FiresBoth (world : World H) (registry : Nat) (event : Event) : Prop where
  /-- It comes back exactly if the fire for the master does and then, from where that one
  stopped, the fire for the slave. The slave's registrations are counted only then. -/
  done_iff : ∀ count after,
    world.fireBoth (setting.deliver depth) setting.arrange registry event = (.done count, after) ↔
      ∃ middle,
        world.fire (setting.deliver depth) setting.arrange registry .master event =
          (.done (world.hub.roster registry .master).size, middle) ∧
        middle.fire (setting.deliver depth) setting.arrange registry .slave event =
          (.done (middle.hub.roster registry .slave).size, after) ∧
        count = (world.hub.roster registry .master).size + (middle.hub.roster registry .slave).size
  /-- It panics exactly if the fire for the master does, which is then all that happened, or if
  that one comes back and the fire for the slave panics. -/
  panicked_iff : ∀ cause after,
    world.fireBoth (setting.deliver depth) setting.arrange registry event =
        (.panicked cause, after) ↔
      world.fire (setting.deliver depth) setting.arrange registry .master event =
        (.panicked cause, after) ∨
      ∃ middle,
        world.fire (setting.deliver depth) setting.arrange registry .master event =
          (.done (world.hub.roster registry .master).size, middle) ∧
        middle.fire (setting.deliver depth) setting.arrange registry .slave event =
          (.panicked cause, after)

end Laws

section Proofs

variable (setting : Setting H) (depth : Nat) (world : World H) (registry : Nat)

/-- A fire ends as its calls do; what it gives is the number of registrations. -/
theorem fire_done_iff (cpu : Cpu) (event : Event) (count : Nat) (after : World H) :
    world.fire (setting.deliver depth) setting.arrange registry cpu event = (.done count, after) ↔
      count = (world.hub.roster registry cpu).size ∧
        Returning (setting.deliver depth) world.fires cpu event
          (setting.arrange world.fires (world.hub.roster registry cpu).listeners)
          (world.begun registry cpu event) after := by
  rw [← callEach_done_iff, fire_eq]
  cases callEach (setting.deliver depth) world.fires cpu event
      (setting.arrange world.fires (world.hub.roster registry cpu).listeners)
      (world.begun registry cpu event) with
  | mk outcome last =>
  cases outcome with
  | done value => simp [Outcome.map, eq_comm]
  | panicked cause => simp [Outcome.map]
  | exhausted => simp [Outcome.map]

/-- A fire panics exactly if one of its listeners does, after those in front of it came back. -/
theorem fire_panicked_iff (cpu : Cpu) (event : Event) (cause : Panic) (after : World H) :
    world.fire (setting.deliver depth) setting.arrange registry cpu event =
        (.panicked cause, after) ↔
      ∃ earlier listener later middle,
        setting.arrange world.fires (world.hub.roster registry cpu).listeners =
          earlier ++ listener :: later ∧
        Returning (setting.deliver depth) world.fires cpu event earlier
          (world.begun registry cpu event) middle ∧
        setting.deliver depth listener cpu event
          (middle.record (.called world.fires listener cpu event)) = (.panicked cause, after) := by
  rw [← callEach_panicked_iff, fire_eq]
  cases callEach (setting.deliver depth) world.fires cpu event
      (setting.arrange world.fires (world.hub.roster registry cpu).listeners)
      (world.begun registry cpu event) with
  | mk outcome last =>
  cases outcome with
  | done value => simp [Outcome.map]
  | panicked other => simp [Outcome.map]
  | exhausted => simp [Outcome.map]

/-- A fire that comes back gives the number of registrations that there were. -/
theorem size_of_fire_done {cpu : Cpu} {event : Event} {count : Nat} {after : World H}
    (fired : world.fire (setting.deliver depth) setting.arrange registry cpu event =
      (.done count, after)) : count = (world.hub.roster registry cpu).size :=
  ((fire_done_iff setting depth world registry cpu event count after).mp fired).1

/-- Since the beginning of a fire the journal accounts for everything, and what has been called
for the fire is what was called since. -/
theorem accounts_of_fire {cpu : Cpu} {event : Event} {outcome : Outcome Nat} {after : World H}
    (fired : world.fire (setting.deliver depth) setting.arrange registry cpu event =
      (outcome, after)) {recent : List (Entry H.Note)}
    (journal : after.journal = recent ++ (world.begun registry cpu event).journal) :
    ∃ entries, Accounts world after entries ∧
      Sh2Pair.calls world.fires entries = Sh2Pair.calls world.fires recent := by
  have kept :
      world.Later (world.fire (setting.deliver depth) setting.arrange registry cpu event).2 :=
    Later.steady.fire (Later.steady.deliver setting depth) setting.arrange_perm world
      registry cpu event
  rw [fired] at kept
  obtain ⟨entries, accounts⟩ := kept
  refine ⟨entries, accounts, ?_⟩
  have same : entries = recent ++ [.fired world.fires registry cpu event
      (world.hub.roster registry cpu).listeners.length] := by
    have split : entries ++ world.journal = recent ++ (world.begun registry cpu event).journal :=
      accounts.journal.symm.trans journal
    rw [journal_begun, ← List.singleton_append, ← List.append_assoc] at split
    exact List.append_cancel_right split
  rw [same, calls_append]
  rfl

/-- A fire calls a snapshot of the listeners.

Proof: a fire runs the calls of the listeners that are registered when it begins, and comes back, or
panics, as they do. Which calls were made is read off the journal, where each of them is entered in
front of what it leads to. -/
theorem firesSnapshot (cpu : Cpu) (event : Event) :
    FiresSnapshot setting depth world registry cpu event := by
  have delivered : DeliversWithin Later (setting.deliver depth) :=
    Later.steady.deliver setting depth
  constructor
  case order => exact setting.arrange_perm _ _
  case done_iff => exact fire_done_iff setting depth world registry cpu event
  case panicked_iff => exact fire_panicked_iff setting depth world registry cpu event
  case calls_of_done =>
    intro count after fired
    obtain ⟨_, returning⟩ := (fire_done_iff setting depth world registry cpu event _ _).mp fired
    obtain ⟨recent, journal, called, _⟩ := returning.calls delivered (Nat.lt_succ_self _)
    obtain ⟨entries, accounts, same⟩ :=
      accounts_of_fire setting depth world registry fired journal
    exact ⟨entries, accounts, same.trans called⟩
  case calls_of_panicked =>
    intro cause after earlier listener later middle fired _ returning panicked
    obtain ⟨recent, journal, called, fires⟩ := returning.calls delivered (Nat.lt_succ_self _)
    obtain ⟨last, continued, once, _⟩ :=
      calls_of_deliver delivered (Nat.lt_of_lt_of_le (Nat.lt_succ_self _) fires) panicked
    have all : after.journal = (last ++ recent) ++ (world.begun registry cpu event).journal := by
      rw [continued, journal, List.append_assoc]
    obtain ⟨entries, accounts, same⟩ := accounts_of_fire setting depth world registry fired all
    refine ⟨entries, accounts, ?_⟩
    rw [same, calls_append, called, once, List.map_append]
    rfl

/-- A fire for both processors is one for the master and then one for the slave.

Proof: by the outcome of the fire for the master, and if that comes back, by the outcome of the one
for the slave in the world that is left. What is counted is the size of the roster. -/
theorem firesBoth (event : Event) : FiresBoth setting depth world registry event := by
  constructor
  case done_iff =>
    intro count after
    simp only [fireBoth]
    cases first : world.fire (setting.deliver depth) setting.arrange registry .master event with
    | mk outcome middle =>
    cases outcome with
    | panicked cause => simp
    | exhausted => simp
    | done masters =>
      have counted : masters = (world.hub.roster registry .master).size :=
        size_of_fire_done setting depth world registry first
      dsimp only
      cases second : middle.fire (setting.deliver depth) setting.arrange registry .slave event with
      | mk outcome last =>
      cases outcome with
      | panicked cause => simp [second, Outcome.map]
      | exhausted => simp [second, Outcome.map]
      | done slaves =>
        have later : slaves = (middle.hub.roster registry .slave).size :=
          size_of_fire_done setting depth middle registry second
        subst counted later
        simp only [Outcome.map, Prod.mk.injEq, Outcome.done.injEq, true_and]
        constructor
        · rintro ⟨sum, same⟩
          exact ⟨middle, rfl, by rw [second, same], sum.symm⟩
        · rintro ⟨_, rfl, again, sum⟩
          rw [second] at again
          injection again with _ same
          exact ⟨sum.symm, same⟩
  case panicked_iff =>
    intro cause after
    simp only [fireBoth]
    cases first : world.fire (setting.deliver depth) setting.arrange registry .master event with
    | mk outcome middle =>
    cases outcome with
    | panicked other => simp
    | exhausted => simp
    | done masters =>
      have counted : masters = (world.hub.roster registry .master).size :=
        size_of_fire_done setting depth world registry first
      subst counted
      simp only [Prod.mk.injEq, reduceCtorEq, false_and, true_and, false_or]
      cases second : middle.fire (setting.deliver depth) setting.arrange registry .slave event with
      | mk outcome last =>
      cases outcome with
      | panicked other => simp [second, Outcome.map]
      | exhausted => simp [second, Outcome.map]
      | done slaves => simp [second, Outcome.map]

end Proofs

/-- Every fire calls its snapshot, whatever the listeners do, in whatever order it calls them,
and however deep they fire themselves. That a fire panicked is no obstacle to anything later:
the registries go on following the journal, and the next fire calls its own snapshot.

Proof: `firesSnapshot` and `firesBoth` hold in any world, so they hold in whatever a fire, or a
program after it, has left. That a fire comes to the same deeper down is known of any delivery. -/
theorem fires_call_snapshot (setting : Setting H) (depth : Nat) (world : World H) :
    (∀ registry cpu event, FiresSnapshot setting depth world registry cpu event) ∧
    (∀ registry event, FiresBoth setting depth world registry event) ∧
    (∀ registry cpu event (σ α : Type) (program : Program H σ α) (state : σ),
      let fired := (world.fire (setting.deliver depth) setting.arrange registry cpu event).2
      let reached := (setting.run depth program state fired).2.2
      Later world reached ∧
        (∀ registry cpu event, FiresSnapshot setting depth reached registry cpu event) ∧
        ∀ registry event, FiresBoth setting depth reached registry event) ∧
    ∀ deepest, depth ≤ deepest → ∀ registry cpu event,
      (world.fire (setting.deliver depth) setting.arrange registry cpu event).1 ≠ .exhausted →
        world.fire (setting.deliver deepest) setting.arrange registry cpu event =
          world.fire (setting.deliver depth) setting.arrange registry cpu event := by
  refine ⟨?_, ?_, ?_, ?_⟩
  · exact firesSnapshot setting depth world
  · exact firesBoth setting depth world
  · intro registry cpu event σ α program state fired reached
    have first : Later world fired := Later.steady.fire (Later.steady.deliver setting depth)
      setting.arrange_perm world registry cpu event
    have second : Later fired reached := Later.steady.run setting depth program state fired
    exact ⟨Later.trans first second, firesSnapshot setting depth reached,
      firesBoth setting depth reached⟩
  · intro deepest more registry cpu event settled
    exact world.fire_deeper (setting.deliver_deeper more) setting.arrange registry cpu event settled

/-- The first listener removes the second and adds a third. The second is called all the same,
and the third is not. -/
theorem fires_call_snapshot_of_meddler :
    let setting : Setting ⟨Unit, Unit⟩ := { Setting.still (H := ⟨Unit, Unit⟩) with
      behave := fun number _ _ =>
        if number = 0 then
          .request (.remove 0 .master "second") fun _ =>
            .request (.register 0 .master "third" (.hosted 2)) fun _ => .ret ()
        else .ret () }
    let first := ((World.initial (H := ⟨Unit, Unit⟩) ()).register 0 .master "first" (.hosted 0)).2
    let start := (first.register 0 .master "second" (.hosted 1)).2
    ∃ after entries,
      start.fire (setting.deliver 1) setting.arrange 0 .master .comm = (.done 2, after) ∧
      (after.hub.roster 0 .master).entries.map Registration.name = ["first", "third"] ∧
      Accounts start after entries ∧
      Sh2Pair.calls 0 entries = [(.hosted 0, .master, .comm), (.hosted 1, .master, .comm)] := by
  intro setting first start
  obtain ⟨entries, accounts, called⟩ :=
    ((fires_call_snapshot setting 1 start).1 0 .master .comm).calls_of_done 2 _ rfl
  exact ⟨_, entries, rfl, rfl, accounts, called⟩

end World

end Sh2Pair
