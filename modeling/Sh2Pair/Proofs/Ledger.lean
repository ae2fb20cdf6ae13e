import Sh2Pair.Proofs.Steady

/-!
# What the journal accounts for

The journal accounts for what is registered: the listener under a name is the one that the latest
entry about this name speaks of, and if there is none since some moment, the one of that moment.
It also accounts for the calls of each fire. Fires are numbered in the order in which they begin,
so whatever runs inside a call can only call listeners for fires of greater numbers.

Nothing else decides what is registered. In particular a panic, wherever it comes from, takes
nothing back and leaves nothing half done.
-/

namespace Sh2Pair

namespace Entry

variable {ν : Type}

/-- What an entry says about a name, for a processor of a registry: nothing, or the listener
that is registered under it from then on, if any. -/
def tells? (registry : Nat) (cpu : Cpu) (name : String) : Entry ν → Option (Option Listener)
  | .registered seen place sought listener =>
    if registry = seen ∧ cpu = place ∧ name = sought then some (some listener) else none
  | .registeredBoth seen sought listener =>
    if registry = seen ∧ name = sought then some (some listener) else none
  | .removed seen place sought =>
    if registry = seen ∧ cpu = place ∧ name = sought then some none else none
  | .retired seen => if registry = seen then some none else none
  | _ => none

/-- The call that an entry reports, if it is one of the fire of a number. -/
def call? (fire : Nat) : Entry ν → Option (Listener × Cpu × Event)
  | .called seen listener cpu event => if seen = fire then some (listener, cpu, event) else none
  | _ => none

end Entry

/-- What the latest entry about a name says. -/
def latest? {ν : Type} (registry : Nat) (cpu : Cpu) (name : String) (journal : List (Entry ν)) :
    Option (Option Listener) :=
  journal.findSome? (Entry.tells? registry cpu name)

/-- The calls of a fire, in the order in which they were made. -/
def calls {ν : Type} (fire : Nat) (journal : List (Entry ν)) : List (Listener × Cpu × Event) :=
  (journal.filterMap (Entry.call? fire)).reverse

/-- The calls of a fire in two stretches are those of the earlier and then those of the later one.
-/
theorem calls_append {ν : Type} (fire : Nat) (later earlier : List (Entry ν)) :
    calls fire (later ++ earlier) = calls fire earlier ++ calls fire later := by
  rw [calls, List.filterMap_append, List.reverse_append]
  rfl

namespace World

variable {H : Host}

/-- The entries since an earlier world account for what is registered in a later one, and their
calls belong to fires that had not begun then. -/
structure Accounts (before after : World H) (recent : List (Entry H.Note)) : Prop where
  fires : before.fires ≤ after.fires
  journal : after.journal = recent ++ before.journal
  calls : ∀ fire listener cpu event,
    .called fire listener cpu event ∈ recent → before.fires ≤ fire
  view : ∀ registry cpu name, after.hub.lookup registry cpu name =
    (latest? registry cpu name recent).getD (before.hub.lookup registry cpu name)

/-- The entries since an earlier world account for a later one. -/
def Later (before after : World H) : Prop := ∃ recent, Accounts before after recent

namespace Later

/-- Something that leaves no entry and no trace in any registry. -/
theorem silent {before after : World H} (fires : after.fires = before.fires)
    (journal : after.journal = before.journal)
    (view : ∀ registry cpu name,
      after.hub.lookup registry cpu name = before.hub.lookup registry cpu name) :
    Later before after :=
  ⟨[], Nat.le_of_eq fires.symm, journal, by simp, view⟩

/-- Something that leaves one entry, which says what is registered from then on. -/
theorem entry {before after : World H} (entry : Entry H.Note)
    (fires : before.fires ≤ after.fires) (journal : after.journal = entry :: before.journal)
    (noCall : ∀ fire, entry.call? fire = none)
    (view : ∀ registry cpu name, after.hub.lookup registry cpu name =
      (entry.tells? registry cpu name).getD (before.hub.lookup registry cpu name)) :
    Later before after := by
  refine ⟨[entry], fires, journal, ?_, ?_⟩
  · intro fire listener cpu event member
    have same : .called fire listener cpu event = entry := List.mem_singleton.mp member
    have absent : Entry.call? fire entry = none := noCall fire
    rw [← same, Entry.call?, if_pos rfl] at absent
    cases absent
  · intro registry cpu name
    rw [view registry cpu name, latest?, List.findSome?_cons, List.findSome?_nil]
    cases entry.tells? registry cpu name <;> rfl

/-- A world is not earlier than itself. -/
theorem refl (world : World H) : Later world world := silent rfl rfl (fun _ _ _ => rfl)

/-- What is later than a later world is later. -/
theorem trans {start middle finish : World H} (first : Later start middle)
    (second : Later middle finish) : Later start finish := by
  obtain ⟨early, before⟩ := first
  obtain ⟨late, after⟩ := second
  refine ⟨late ++ early, Nat.le_trans before.fires after.fires, ?_, ?_, ?_⟩
  · rw [after.journal, before.journal, List.append_assoc]
  · intro fire listener cpu event member
    rcases List.mem_append.mp member with inLate | inEarly
    · exact Nat.le_trans before.fires (after.calls fire listener cpu event inLate)
    · exact before.calls fire listener cpu event inEarly
  · intro registry cpu name
    rw [after.view, before.view, latest?, latest?, latest?, List.findSome?_append]
    cases List.findSome? (Entry.tells? registry cpu name) late <;> rfl

/-- A detector that is told about an event calls nobody, and enters what it removes.

Proof: the four outcomes of being told enter nothing, the beginning of a poll, its end, or its end
and a removal, and the last one is the only one that changes what is registered. -/
theorem signal (world : World H) (number : Nat) (cpu : Cpu) (event : Event) :
    Later world (world.signal number cpu event) := by
  have informed : Later world (world.informed number cpu event) :=
    silent rfl rfl (fun _ _ _ => rfl)
  have recorded : ∀ entry : Entry H.Note, (∀ fire, entry.call? fire = none) →
      (∀ registry cpu name, entry.tells? registry cpu name = none) →
      Later world ((world.informed number cpu event).record entry) := by
    intro entry noCall silence
    refine trans informed (Later.entry entry (Nat.le_refl _) rfl noCall ?_)
    intro registry cpu name
    rw [silence registry cpu name]
    rfl
  rcases world.signal_cases number cpu event with
    ⟨_, after⟩ | ⟨_, after⟩ | ⟨_, _, after⟩ | ⟨_, _, _, after⟩
  · exact after ▸ informed
  · exact after ▸ recorded _ (fun _ => rfl) (fun _ _ _ => rfl)
  · exact after ▸ recorded _ (fun _ => rfl) (fun _ _ _ => rfl)
  · rw [after]
    refine trans (recorded (.pollEnded number cpu event) (fun _ => rfl) (fun _ _ _ => rfl)) ?_
    refine Later.entry _ (Nat.le_refl _) rfl (fun _ => rfl) ?_
    intro registry place name
    rw [hub_record, lookup_struck, Entry.tells?]
    split <;> rfl

/-- A world in which somebody has been told is a later one. -/
theorem told (world : World H) (listener : Listener) (cpu : Cpu) (event : Event) :
    Later world (world.told listener cpu event) := by
  cases listener with
  | detector number => exact signal world number cpu event
  | hosted number => exact refl world

/-- A call belongs to a fire that began after the earlier world, whatever happened since. -/
theorem called {origin world : World H} (kept : Later origin world) (listener : Listener)
    (cpu : Cpu) (event : Event) :
    Later origin (world.record (.called origin.fires listener cpu event)) := by
  obtain ⟨recent, accounts⟩ := kept
  refine ⟨.called origin.fires listener cpu event :: recent, accounts.fires, ?_, ?_, ?_⟩
  · rw [journal_record, accounts.journal, List.cons_append]
  · intro fire callee place what member
    rcases List.mem_cons.mp member with same | inside
    · injection same with same
      exact Nat.le_of_eq same.symm
    · exact accounts.calls fire callee place what inside
  · exact accounts.view

/-- Nothing that can happen escapes the journal.

Proof: one case per kind of step. Each enters one entry at least whenever it changes a registry, and
this entry tells what is registered under the name from then on. -/
theorem steady : Steady (Later (H := H)) where
  refl := refl
  trans := trans
  grows := by
    rintro start finish ⟨recent, accounts⟩
    exact ⟨recent, accounts.journal.symm⟩
  host world state := silent rfl rfl (fun _ _ _ => rfl)
  mark world entry marks := by
    refine Later.entry entry (Nat.le_refl _) rfl ?_ ?_
    · intro fire
      cases entry with
      | called => cases marks
      | _ => rfl
    · intro registry cpu name
      cases entry with
      | registered => cases marks
      | registeredBoth => cases marks
      | removed => cases marks
      | retired => cases marks
      | _ => rfl
  enlist world registry cpu name listener free := by
    refine Later.entry _ (Nat.le_refl _) rfl (fun _ => rfl) ?_
    intro seen place sought
    rw [hub_record, lookup_enlisted, Entry.tells?]
    split <;> rfl
  enlistBoth world registry name listener free := by
    refine Later.entry _ (Nat.le_refl _) rfl (fun _ => rfl) ?_
    intro seen place sought
    rw [hub_record, lookup_enlistedBoth, Entry.tells?]
    split <;> rfl
  strike world registry cpu name _ := by
    refine Later.entry _ (Nat.le_refl _) rfl (fun _ => rfl) ?_
    intro seen place sought
    rw [hub_record, lookup_struck, Entry.tells?]
    split <;> rfl
  furnish world registry config free := by
    refine Later.entry _ (Nat.le_refl _) rfl (fun _ => rfl) ?_
    intro seen place sought
    refine (world.lookup_enlistedBoth free seen place sought).trans ?_
    rw [Entry.tells?]
    split <;> rfl
  clear world number cpu :=
    Later.entry _ (Nat.le_refl _) rfl (fun _ => rfl) (fun _ _ _ => rfl)
  openRegistry world :=
    Later.entry _ (Nat.le_refl _) rfl (fun _ => rfl) world.lookup_openRegistry
  retire world registry := by
    refine Later.entry _ (Nat.le_refl _) rfl (fun _ => rfl) ?_
    intro seen place sought
    rw [lookup_retire, Entry.tells?]
    split <;> rfl
  begin world registry cpu event :=
    Later.entry _ (Nat.le_succ _) rfl (fun _ => rfl) (fun _ _ _ => rfl)
  notify world number cpu event := by
    have noted : Later world (world.record (.notified (.detector number) cpu event)) :=
      Later.entry _ (Nat.le_refl _) rfl (fun _ => rfl) (fun _ _ _ => rfl)
    exact trans noted (signal _ number cpu event)
  call := by
    intro origin world registry cpu event listener _ _ kept
    exact trans (called kept listener cpu event) (told _ listener cpu event)

end Later

end World

/-- What happened before a run stays in the journal. -/
theorem Setting.suffix_of_run {H : Host} (setting : Setting H) {depth : Nat} {σ α : Type}
    {program : Program H σ α} {state after : σ} {world reached : World H} {outcome : Outcome α}
    (ran : setting.run depth program state world = (outcome, after, reached)) :
    world.journal <:+ reached.journal := by
  have grown : world.journal <:+ (setting.run depth program state world).2.2.journal :=
    World.Later.steady.grows
      (World.Later.steady.run setting depth program state world)
  rw [ran] at grown
  exact grown

/-- Telling a listener only adds to the journal. -/
theorem Setting.suffix_deliver {H : Host} (setting : Setting H) (depth : Nat) (listener : Listener)
    (cpu : Cpu) (event : Event) (world : World H) :
    world.journal <:+ (setting.deliver depth listener cpu event world).2.journal :=
  (world.told_suffix listener cpu event).trans
    (World.Later.steady.grows (World.Later.steady.deliver setting depth listener cpu event world))

/-- Whatever calling listeners does, what the journal says already stays there. -/
theorem World.suffix_callEach {H : Host} (setting : Setting H) (depth fire : Nat) (cpu : Cpu)
    (event : Event) (order : List Listener) (world : World H) :
    world.journal <:+
      (callEach (setting.deliver depth) fire cpu event order world).2.journal := by
  induction order generalizing world with
  | nil => exact List.suffix_rfl
  | cons listener later inductionHypothesis =>
    have told : world.journal <:+ (setting.deliver depth listener cpu event
        (world.record (.called fire listener cpu event))).2.journal :=
      (List.suffix_cons ..).trans (setting.suffix_deliver depth listener cpu event
        (world.record (.called fire listener cpu event)))
    simp only [callEach]
    generalize setting.deliver depth listener cpu event
      (world.record (.called fire listener cpu event)) = result at told ⊢
    obtain ⟨outcome, middle⟩ := result
    cases outcome with
    | done value =>
      exact (told.trans (List.suffix_cons ..)).trans (inductionHypothesis (middle.record _))
    | panicked cause => exact told
    | exhausted => exact told

end Sh2Pair
