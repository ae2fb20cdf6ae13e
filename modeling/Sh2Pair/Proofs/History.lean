import Sh2Pair.Proofs.Course
import Sh2Pair.Proofs.Ledger

/-!
# The history of a name

The entries of the journal about one name, for one processor of a registry, are its history. They
alternate: a registration finds the name free, and a removal finds it in use. So whoever stands
under a name stands there until he is removed, and nobody takes his place before.
-/

namespace Sh2Pair

section Names

variable {ν : Type} (registry : Nat) (cpu : Cpu) (name : String)

/-- Who stands under a name after a history, if it is known who stood there before it. -/
def standing (initially : Option Listener) (history : List (Entry ν)) : Option Listener :=
  (latest? registry cpu name history).getD initially

/-- An entry about a name is in order if a registration finds the name free and a removal finds
it in use. -/
def Entry.InOrder (found : Option Listener) (entry : Entry ν) : Prop :=
  (∀ listener, entry.tells? registry cpu name = some (some listener) → found = none) ∧
    (entry = .removed registry cpu name → found ≠ none)

/-- Each entry of a history is in order. -/
def Orderly (initially : Option Listener) : List (Entry ν) → Prop
  | [] => True
  | entry :: earlier =>
    entry.InOrder registry cpu name (standing registry cpu name initially earlier) ∧
      Orderly initially earlier

end Names

section Histories

variable {ν : Type} {registry : Nat} {cpu : Cpu} {name : String} {initially : Option Listener}

/-- What stands after two stretches is what the later one makes of what stood after the earlier one.
-/
theorem standing_append (late early : List (Entry ν)) :
    standing registry cpu name initially (late ++ early) =
      standing registry cpu name (standing registry cpu name initially early) late := by
  rw [standing, standing, standing, latest?, latest?, latest?, List.findSome?_append]
  cases List.findSome? (Entry.tells? registry cpu name) late <;> rfl

/-- Two stretches are in order if each of them is, the later one from where the earlier one ended.
-/
theorem orderly_append (late early : List (Entry ν)) :
    Orderly registry cpu name initially (late ++ early) ↔
      Orderly registry cpu name initially early ∧
        Orderly registry cpu name (standing registry cpu name initially early) late := by
  induction late with
  | nil => exact (and_iff_left trivial).symm
  | cons entry late inductionHypothesis =>
    rw [List.cons_append, Orderly, Orderly, inductionHypothesis, standing_append]
    exact and_left_comm

/-- An entry that says nothing about a name is in order. -/
theorem Entry.inOrder_of_silent {entry : Entry ν} {found : Option Listener}
    (silent : entry.tells? registry cpu name = none) : entry.InOrder registry cpu name found := by
  constructor
  · intro listener told
    rw [silent] at told
    cases told
  · intro removal
    simp [removal, Entry.tells?] at silent

/-- Who stands under a name stands there until he is removed: without a removal there is no other
entry about the name either. -/
theorem latest?_eq_none_of_orderly {history : List (Entry ν)} {listener : Listener}
    (orderly : Orderly registry cpu name (some listener) history)
    (kept : ∀ entry ∈ history, entry.tells? registry cpu name ≠ some none) :
    latest? registry cpu name history = none := by
  induction history with
  | nil => rfl
  | cons entry earlier inductionHypothesis =>
    obtain ⟨inOrder, before⟩ := orderly
    have silent : latest? registry cpu name earlier = none := inductionHypothesis before
      (fun other inside => kept other (List.mem_cons_of_mem _ inside))
    rw [standing, silent, Option.getD_none] at inOrder
    have same : entry.tells? registry cpu name = none := by
      cases told : entry.tells? registry cpu name with
      | none => rfl
      | some said =>
        cases said with
        | none => exact absurd told (kept entry (List.mem_cons_self ..))
        | some other => cases inOrder.1 other told
    rw [latest?, List.findSome?_cons, same]
    exact silent

end Histories

namespace World

variable {H : Host}

/-- Nothing stands under a free name. -/
theorem lookup_of_free {hub : Hub} {registry : Nat} {cpu : Cpu} {name : String}
    (free : (hub.roster registry cpu).has name = false) : hub.lookup registry cpu name = none := by
  rwa [Roster.has_eq_isSome_find?, Option.isSome_eq_false_iff, Option.isNone_iff_eq_none] at free

/-- Each entry of a history is in order, for every name in an earlier world. -/
def Ordered (before : World H) (recent : List (Entry H.Note)) : Prop :=
  ∀ registry cpu name, Orderly registry cpu name (before.hub.lookup registry cpu name) recent

/-- The entries since an earlier world account for a later one, and each of them is in order. -/
def Recounts (before after : World H) : Prop :=
  ∃ recent, Accounts before after recent ∧ Ordered before recent

section Entries

variable (world : World H)

/-- An entry that tells of no registration is in order. -/
theorem ordered_silent (entry : Entry H.Note)
    (silent : ∀ registry cpu name, entry.tells? registry cpu name = none) :
    Ordered world [entry] :=
  fun registry cpu name => ⟨Entry.inOrder_of_silent (silent registry cpu name), trivial⟩

/-- A registration under a free name is in order. -/
theorem ordered_registered {registry : Nat} {cpu : Cpu} {name : String} (listener : Listener)
    (free : (world.hub.roster registry cpu).has name = false) :
    Ordered world [.registered registry cpu name listener] := by
  intro seen place sought
  refine ⟨⟨?_, fun same => by cases same⟩, trivial⟩
  intro other told
  rw [Entry.tells?] at told
  split at told
  · rename_i here
    obtain ⟨rfl, rfl, rfl⟩ := here
    exact lookup_of_free free
  · cases told

/-- A registration under a name that is free for both processors is in order. -/
theorem ordered_registeredBoth {registry : Nat} {name : String} (listener : Listener)
    (free : ∀ cpu, (world.hub.roster registry cpu).has name = false) :
    Ordered world [.registeredBoth registry name listener] := by
  intro seen place sought
  refine ⟨⟨?_, fun same => by cases same⟩, trivial⟩
  intro other told
  rw [Entry.tells?] at told
  split at told
  · rename_i here
    obtain ⟨rfl, rfl⟩ := here
    exact lookup_of_free (free place)
  · cases told

/-- A removal of a name in use is in order. -/
theorem ordered_removed {registry : Nat} {cpu : Cpu} {name : String}
    (used : (world.hub.roster registry cpu).has name = true) :
    Ordered world [.removed registry cpu name] := by
  intro seen place sought
  refine ⟨⟨?_, ?_⟩, trivial⟩
  · intro other told
    rw [Entry.tells?] at told
    split at told <;> cases told
  · intro same absent
    injection same with sameRegistry sameCpu sameName
    subst sameRegistry sameCpu sameName
    have nobody : world.hub.lookup registry cpu name = none := absent
    rw [Roster.has_eq_isSome_find?, ← Hub.lookup, nobody] at used
    cases used

/-- What a detector enters when it is told about an event is in order. -/
theorem ordered_signal (number : Nat) (cpu : Cpu) (event : Event) :
    ∃ recent, (world.signal number cpu event).journal = recent ++ world.journal ∧
      Ordered world recent := by
  rcases world.signal_cases number cpu event with
    ⟨_, after⟩ | ⟨_, after⟩ | ⟨_, _, after⟩ | ⟨_, _, used, after⟩
  · exact ⟨[], by rw [after]; rfl, fun _ _ _ => trivial⟩
  · exact ⟨[_], by rw [after]; rfl, ordered_silent world _ fun _ _ _ => rfl⟩
  · exact ⟨[_], by rw [after]; rfl, ordered_silent world _ fun _ _ _ => rfl⟩
  · refine ⟨[_, _], by rw [after]; rfl, ?_⟩
    intro registry place name
    exact ⟨(ordered_removed world used registry place name).1,
      ordered_silent world (.pollEnded number cpu event) (fun _ _ _ => rfl) registry place name⟩

/-- So is what follows an entry that tells of no registration. -/
theorem ordered_told (entry : Entry H.Note)
    (silent : ∀ registry cpu name, entry.tells? registry cpu name = none) (number : Nat) (cpu : Cpu)
    (event : Event) :
    ∃ recent, ((world.record entry).signal number cpu event).journal = recent ++ world.journal ∧
      Ordered world recent := by
  obtain ⟨late, journal, after⟩ := ordered_signal (world.record entry) number cpu event
  refine ⟨late ++ [entry], ?_, ?_⟩
  · rw [List.append_assoc]
    exact journal
  · intro registry place name
    have stands : standing registry place name (world.hub.lookup registry place name) [entry] =
        world.hub.lookup registry place name := by simp [standing, latest?, silent]
    refine (orderly_append late _).mpr
      ⟨ordered_silent world entry silent registry place name, ?_⟩
    rw [stands]
    exact after registry place name

end Entries

namespace Recounts

/-- It is enough to look at the entries. -/
theorem of_later {before after : World H} (recent : List (Entry H.Note))
    (later : Later before after) (journal : after.journal = recent ++ before.journal)
    (ordered : Ordered before recent) : Recounts before after := by
  obtain ⟨entries, accounts⟩ := later
  obtain rfl : entries = recent := List.append_cancel_right (accounts.journal.symm.trans journal)
  exact ⟨entries, accounts, ordered⟩

/-- A world that is recounted is a later one. -/
theorem later {before after : World H} : Recounts before after → Later before after :=
  fun ⟨recent, accounts, _⟩ => ⟨recent, accounts⟩

/-- What is entered in order after an orderly history makes an orderly history. -/
theorem append {start middle : World H} {early : List (Entry H.Note)}
    (accounts : Accounts start middle early) (before : Ordered start early)
    {late : List (Entry H.Note)} (after : Ordered middle late) : Ordered start (late ++ early) := by
  intro registry cpu name
  refine (orderly_append late early).mpr ⟨before registry cpu name, ?_⟩
  rw [standing, ← accounts.view]
  exact after registry cpu name

/-- What was recounted in two stretches, one after the other, is recounted as a whole. -/
theorem trans {start middle finish : World H} (first : Recounts start middle)
    (second : Recounts middle finish) : Recounts start finish := by
  have passed : start.Later finish := Later.trans first.later second.later
  obtain ⟨early, before, ordered⟩ := first
  obtain ⟨late, after, followed⟩ := second
  refine of_later (late ++ early) passed ?_ (append before ordered followed)
  rw [after.journal, before.journal, List.append_assoc]

/-- Nothing that can happen to a name escapes its history.

Proof: one case per kind of step. A step that registers or removes a name enters this in the journal
at the same time, so the journal and the registry stay in order. A detector that is told may leave,
which is such a removal. Every other step says nothing about names. -/
theorem steady : Steady (Recounts (H := H)) where
  refl world := of_later [] (Later.refl world) rfl fun _ _ _ => trivial
  trans := trans
  grows kept := Later.steady.grows kept.later
  host world state := of_later [] (Later.steady.host world state) rfl fun _ _ _ => trivial
  mark world entry marks := by
    refine of_later [entry] (Later.steady.mark world entry marks) rfl
      (ordered_silent world entry ?_)
    intro registry cpu name
    cases entry with
    | registered => cases marks
    | registeredBoth => cases marks
    | removed => cases marks
    | retired => cases marks
    | _ => rfl
  enlist world registry cpu name listener free :=
    of_later [_] (Later.steady.enlist world registry cpu name listener free) rfl
      (ordered_registered world listener free)
  enlistBoth world registry name listener free :=
    of_later [_] (Later.steady.enlistBoth world registry name listener free) rfl
      (ordered_registeredBoth world listener free)
  strike world registry cpu name used :=
    of_later [_] (Later.steady.strike world registry cpu name used) rfl
      (ordered_removed world used)
  furnish world registry config free :=
    of_later [_] (Later.steady.furnish world registry config free) rfl
      (ordered_registeredBoth world _ free)
  clear world number cpu :=
    of_later [_] (Later.steady.clear world number cpu) rfl
      (ordered_silent world _ fun _ _ _ => rfl)
  openRegistry world :=
    of_later [_] (Later.steady.openRegistry world) rfl (ordered_silent world _ fun _ _ _ => rfl)
  retire world registry := by
    refine of_later [.retired registry] (Later.steady.retire world registry) rfl ?_
    intro seen place sought
    refine ⟨⟨?_, fun same => by cases same⟩, trivial⟩
    intro other told
    rw [Entry.tells?] at told
    split at told <;> cases told
  begin world registry cpu event :=
    of_later [_] (Later.steady.begin world registry cpu event) rfl
      (ordered_silent world _ fun _ _ _ => rfl)
  notify world number cpu event := by
    obtain ⟨recent, journal, ordered⟩ := ordered_told world
      (.notified (.detector number) cpu event) (fun _ _ _ => rfl) number cpu event
    exact of_later recent (Later.steady.notify world number cpu event) journal ordered
  call := by
    intro origin world registry cpu event listener member since kept
    have called : origin.Later ((world.record (.called origin.fires listener cpu event)).told
        listener cpu event) := Later.steady.call member since kept.later
    obtain ⟨early, accounts, before⟩ := kept
    obtain ⟨late, journal, after⟩ : ∃ late, ((world.record (.called origin.fires listener cpu
        event)).told listener cpu event).journal = late ++ world.journal ∧ Ordered world late := by
      cases listener with
      | hosted number => exact ⟨[_], rfl, ordered_silent world _ fun _ _ _ => rfl⟩
      | detector number => exact ordered_told world _ (fun _ _ _ => rfl) number cpu event
    refine of_later (late ++ early) called ?_ (append accounts before after)
    rw [journal, accounts.journal, List.append_assoc]

/-- A turn that was passed over concerns no name. -/
theorem passes (terms : SliceConfig × Nat × Option Nat) :
    Machine.PassesWithin (Recounts (H := H)) terms := by
  intro scheduler world cpu cycles _ _
  have passed : Later world (world.record (.skipped cpu cycles)) :=
    Later.entry _ (Nat.le_refl _) rfl (fun _ => rfl) (fun _ _ _ => rfl)
  exact of_later [_] passed rfl (ordered_silent world _ fun _ _ _ => rfl)

end Recounts

end World

end Sh2Pair
