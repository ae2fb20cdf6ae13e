import Sh2Pair.Proofs.History
import Sh2Pair.Proofs.Moments
import Sh2Pair.Proofs.NameOrder

/-!
# What a registry owes to its history

A registry that was opened empty is at every moment what the journal says: a listener stands under a
name exactly if the latest entry about the name registered him, and a processor has as many
registrations as were made for it, less those that were removed. What an operation gives and what
it leaves follows from that. It does not matter whether the operations came from the surroundings,
from an executor or from inside the calls of a fire, nor what panicked in between.
-/

namespace Sh2Pair

namespace Entry

variable {ν : Type} (registry : Nat) (cpu : Cpu)

/-- The registry is emptied because nothing refers to it any more. -/
def retires : Entry ν → Bool
  | .retired seen => decide (registry = seen)
  | _ => false

/-- A registration is made for a processor. -/
def admits : Entry ν → Bool
  | .registered seen place _ _ => decide (registry = seen ∧ cpu = place)
  | .registeredBoth seen _ _ => decide (registry = seen)
  | _ => false

/-- A registration of a processor is removed. -/
def expels : Entry ν → Bool
  | .removed seen place _ => decide (registry = seen ∧ cpu = place)
  | _ => false

end Entry

/-- The entries since a registry was emptied as a whole. -/
def current {ν : Type} (registry : Nat) (journal : List (Entry ν)) : List (Entry ν) :=
  journal.takeWhile fun entry => !entry.retires registry

namespace Roster

/-- A registration makes a roster longer by one. -/
theorem size_insert (roster : Roster) {name : String} (listener : Listener)
    (free : roster.has name = false) :
    (roster.insert name listener free).size = roster.size + 1 :=
  List.length_append

/-- Names are unique, so removing a name that is in use removes one registration. -/
theorem size_erase (roster : Roster) {name : String} (used : roster.has name = true) :
    (roster.erase name).size + 1 = roster.size := by
  have once : roster.entries.countP (fun entry => decide (entry.name = name)) = 1 := by
    rw [has, List.any_eq_true] at used
    obtain ⟨entry, inside, same⟩ := used
    have single : (roster.entries.map Registration.name).count name = 1 :=
      List.count_eq_one_of_mem roster.nodup
        (List.mem_map.mpr ⟨entry, inside, of_decide_eq_true same⟩)
    rw [List.count, List.countP_map] at single
    exact single
  have split :
      roster.entries.length = roster.entries.countP (fun entry => decide (entry.name = name)) +
        roster.entries.countP (fun a => decide ¬decide (a.name = name) = true) :=
    List.length_eq_countP_add_countP
      (fun entry : Registration => decide (entry.name = name)) (l := roster.entries)
  rw [once] at split
  rw [size, size, erase, ← List.countP_eq_length_filter, split, Nat.add_comm]
  simp only [decide_eq_true_eq]

end Roster

namespace World

variable {H : Host}

section Sizes

variable (world : World H) (registry seen : Nat) (cpu place : Cpu) (name : String)

/-- A registration adds one to the roster that it is made in. -/
theorem size_enlisted (listener : Listener)
    (free : (world.hub.roster registry cpu).has name = false) :
    ((world.enlisted registry cpu name listener free).hub.roster seen place).size =
      (world.hub.roster seen place).size + (decide (seen = registry ∧ place = cpu)).toNat := by
  rw [enlisted, Hub.roster_setRoster]
  by_cases here : seen = registry ∧ place = cpu
  · obtain ⟨rfl, rfl⟩ := here
    simp [Roster.size_insert]
  · simp [here]

/-- A registration for both processors adds one to either roster of the registry. -/
theorem size_enlistedBoth (listener : Listener)
    (free : ∀ cpu, (world.hub.roster registry cpu).has name = false) :
    ((world.enlistedBoth registry name listener free).hub.roster seen place).size =
      (world.hub.roster seen place).size + (decide (seen = registry)).toNat := by
  rw [enlistedBoth, Hub.roster_setRoster, Hub.roster_setRoster]
  by_cases here : seen = registry
  · subst here
    cases place <;> simp [Roster.size_insert]
  · simp [here]

/-- A removal of a name in use takes one away from its roster. -/
theorem size_struck (used : (world.hub.roster registry cpu).has name = true) :
    ((world.struck registry cpu name).hub.roster seen place).size +
        (decide (seen = registry ∧ place = cpu)).toNat = (world.hub.roster seen place).size := by
  rw [struck, Hub.roster_setRoster]
  by_cases here : seen = registry ∧ place = cpu
  · obtain ⟨rfl, rfl⟩ := here
    simp [Roster.size_erase _ used]
  · simp [here]

end Sizes

/-- Each processor of each registry has as many registrations as were made for it since the registry
was empty, less those that were removed. -/
def Balanced (world : World H) : Prop :=
  ∀ registry cpu, (world.hub.roster registry cpu).size +
      (current registry world.journal).countP (Entry.expels registry cpu) =
    (current registry world.journal).countP (Entry.admits registry cpu)

/-- Whatever happened between two worlds, the later one is balanced if the earlier one was. -/
def Balances (before after : World H) : Prop :=
  before.journal <:+ after.journal ∧ (before.Balanced → after.Balanced)

namespace Balances

/-- One entry that says what becomes of the number of registrations. -/
theorem entry {before after : World H} (entry : Entry H.Note)
    (journal : after.journal = entry :: before.journal)
    (sizes : ∀ registry cpu,
      if entry.retires registry then (after.hub.roster registry cpu).size = 0
      else (after.hub.roster registry cpu).size + (entry.expels registry cpu).toNat =
        (before.hub.roster registry cpu).size + (entry.admits registry cpu).toNat) :
    Balances before after := by
  refine ⟨journal ▸ List.suffix_cons .., ?_⟩
  intro balanced registry cpu
  have size : if Entry.retires registry entry = true then (after.hub.roster registry cpu).size =
      0 else (after.hub.roster registry cpu).size + (Entry.expels registry cpu entry).toNat =
      (before.hub.roster registry cpu).size + (Entry.admits registry cpu entry).toNat :=
    sizes registry cpu
  rw [journal, current, List.takeWhile_cons]
  cases emptied : entry.retires registry with
  | true =>
    rw [emptied, if_pos rfl] at size
    simp [size]
  | false =>
    rw [emptied, if_neg (by decide)] at size
    have before : (before.hub.roster registry cpu).size +
        (current registry before.journal).countP (Entry.expels registry cpu) =
        (current registry before.journal).countP (Entry.admits registry cpu) :=
      balanced registry cpu
    rw [current] at before
    simp only [Bool.not_false, if_true, List.countP_cons]
    cases admitted : entry.admits registry cpu <;> cases expelled : entry.expels registry cpu <;>
      simp [admitted, expelled] at size ⊢ <;> omega

/-- Something that leaves no entry and no trace in any registry. -/
theorem silent {before after : World H} (journal : after.journal = before.journal)
    (rosters : after.hub.roster = before.hub.roster) : Balances before after := by
  refine ⟨journal ▸ List.suffix_rfl, ?_⟩
  intro balanced registry cpu
  rw [journal, rosters]
  exact balanced registry cpu

/-- One entry that concerns no registration. -/
theorem aside {before after : World H} (entry : Entry H.Note)
    (journal : after.journal = entry :: before.journal)
    (rosters : after.hub.roster = before.hub.roster)
    (stays : ∀ registry, entry.retires registry = false)
    (silent : ∀ registry cpu, entry.admits registry cpu = false ∧
      entry.expels registry cpu = false) : Balances before after := by
  refine Balances.entry entry journal ?_
  intro registry cpu
  rw [stays registry, (silent registry cpu).1, (silent registry cpu).2, rosters]
  rfl

/-- A world balances itself. -/
theorem refl (world : World H) : Balances world world := silent rfl rfl

/-- What balances over two stretches, one after the other, balances over both together. -/
theorem trans {start middle finish : World H} (first : Balances start middle)
    (second : Balances middle finish) : Balances start finish :=
  ⟨first.1.trans second.1, fun balanced => second.2 (first.2 balanced)⟩

/-- Striking a name that is in use, and noting it, keeps the balance. -/
theorem struck (world : World H) (registry : Nat) (cpu : Cpu) (name : String)
    (used : (world.hub.roster registry cpu).has name = true) :
    Balances world ((world.struck registry cpu name).record (.removed registry cpu name)) := by
  refine Balances.entry _ rfl ?_
  intro seen place
  exact world.size_struck registry seen cpu place name used

/-- A detector that is told about an event balances what it removes. -/
theorem signal (world : World H) (number : Nat) (cpu : Cpu) (event : Event) :
    Balances world (world.signal number cpu event) := by
  have informed : Balances world (world.informed number cpu event) := silent rfl rfl
  have ended : Balances world
      ((world.informed number cpu event).record (.pollEnded number cpu event)) :=
    trans informed (aside _ rfl rfl (fun _ => rfl) (fun _ _ => ⟨rfl, rfl⟩))
  rcases world.signal_cases number cpu event with
    ⟨_, after⟩ | ⟨_, after⟩ | ⟨_, _, after⟩ | ⟨_, _, used, after⟩
  · exact after ▸ informed
  · exact after ▸ trans informed
      (aside (.pollStarted number cpu) rfl rfl (fun _ => rfl) (fun _ _ => ⟨rfl, rfl⟩))
  · exact after ▸ ended
  · exact after ▸ trans ended (struck _ _ cpu Detector.name used)

/-- Nothing that can happen unbalances a registry.

Proof: one case per kind of step. A registration is entered and adds one name, a removal is entered
and takes one away, and nothing else changes how many there are, except for a registry that is given
up, whose history starts anew. -/
theorem steady : Steady (Balances (H := H)) where
  refl := refl
  trans := trans
  grows kept := kept.1
  host world state := silent rfl rfl
  mark world entry marks := by
    refine aside entry rfl rfl ?_ ?_
    · intro registry
      cases entry with
      | retired => cases marks
      | _ => rfl
    · intro registry cpu
      cases entry with
      | registered => cases marks
      | registeredBoth => cases marks
      | removed => cases marks
      | _ => exact ⟨rfl, rfl⟩
  enlist world registry cpu name listener free :=
    Balances.entry _ rfl fun seen place =>
      world.size_enlisted registry seen cpu place name listener free
  enlistBoth world registry name listener free :=
    Balances.entry _ rfl fun seen place =>
      world.size_enlistedBoth registry seen place name listener free
  strike := struck
  furnish world registry config free :=
    Balances.entry _ rfl fun seen place =>
      world.size_enlistedBoth registry seen place Detector.name _ free
  clear world number cpu := aside _ rfl rfl (fun _ => rfl) (fun _ _ => ⟨rfl, rfl⟩)
  openRegistry world := by
    refine aside _ rfl ?_ (fun _ => rfl) (fun _ _ => ⟨rfl, rfl⟩)
    funext registry cpu
    rw [Hub.roster, Hub.roster, registry_openRegistry]
  retire world registry := by
    refine Balances.entry _ rfl ?_
    intro seen place
    rw [Hub.roster, registry_retire]
    by_cases here : seen = registry
    · simp [Entry.retires, here, Registry.empty, Roster.empty, Roster.size]
    · simp [Entry.retires, Entry.admits, Entry.expels, here, Hub.roster]
  begin world registry cpu event := aside _ rfl rfl (fun _ => rfl) (fun _ _ => ⟨rfl, rfl⟩)
  notify world number cpu event := by
    have noted : Balances world (world.record (.notified (.detector number) cpu event)) :=
      aside _ rfl rfl (fun _ => rfl) (fun _ _ => ⟨rfl, rfl⟩)
    exact trans noted (signal _ number cpu event)
  call := by
    intro origin world registry cpu event listener _ _ kept
    have called : Balances origin (world.record (.called origin.fires listener cpu event)) :=
      trans kept (aside _ rfl rfl (fun _ => rfl) (fun _ _ => ⟨rfl, rfl⟩))
    cases listener with
    | detector number => exact trans called (signal _ number cpu event)
    | hosted number => exact called

/-- Passing over a turn keeps the balance. -/
theorem passes (terms : SliceConfig × Nat × Option Nat) :
    Machine.PassesWithin (Balances (H := H)) terms := by
  intro scheduler world cpu cycles _ _
  exact aside _ rfl rfl (fun _ => rfl) (fun _ _ => ⟨rfl, rfl⟩)

end Balances

/-- What a registry that was opened empty owes to its history, for whatever is asked next. -/
structure FollowsHistory (world : World H) (registry : Nat) : Prop where
  /-- A listener stands under a name exactly if the latest entry about it registered him. -/
  lookup_iff : ∀ cpu name listener, world.hub.lookup registry cpu name = some listener ↔
    latest? registry cpu name world.journal = some (some listener)
  has_iff : ∀ cpu name, (world.hub.roster registry cpu).has name = true ↔
    ∃ listener, latest? registry cpu name world.journal = some (some listener)
  /-- Whoever was registered found the name free, and whoever was removed stood there. -/
  orderly : ∀ cpu name, Orderly registry cpu name none world.journal
  register_ok_iff : ∀ cpu name listener, (world.register registry cpu name listener).1 = .ok () ↔
    (world.hub.roster registry cpu).has name = false
  register_ok : ∀ cpu name listener after,
    world.register registry cpu name listener = (.ok (), after) →
      after.journal = .registered registry cpu name listener :: world.journal
  register_error : ∀ cpu name listener duplicate after,
    world.register registry cpu name listener = (.error duplicate, after) →
      duplicate = ⟨cpu, name⟩ ∧ after.hub = world.hub
  registerBoth_ok_iff : ∀ name listener, (world.registerBoth registry name listener).1 = .ok () ↔
    ∀ cpu, (world.hub.roster registry cpu).has name = false
  registerBoth_ok : ∀ name listener after,
    world.registerBoth registry name listener = (.ok (), after) →
      after.journal = .registeredBoth registry name listener :: world.journal
  /-- The master is named if it has the name, and the slave otherwise. -/
  registerBoth_error : ∀ name listener duplicate after,
    world.registerBoth registry name listener = (.error duplicate, after) →
      duplicate.name = name ∧ (world.hub.roster registry duplicate.cpu).has name = true ∧
        (duplicate.cpu = .master ↔ (world.hub.roster registry .master).has name = true) ∧
          after.hub = world.hub
  remove_eq : ∀ cpu name,
    (world.remove registry cpu name).1 = (world.hub.roster registry cpu).has name
  remove_true : ∀ cpu name after, world.remove registry cpu name = (true, after) →
    after.journal = .removed registry cpu name :: world.journal
  remove_false : ∀ cpu name after, world.remove registry cpu name = (false, after) → after = world
  /-- Removing for both processors removes for each that has the name, and counts them. -/
  removeBoth_eq : ∀ name count after, world.removeBoth registry name = (count, after) →
    let holders := Cpu.all.filter fun cpu => (world.hub.roster registry cpu).has name
    count = holders.length ∧
      after.journal = (holders.map fun cpu => .removed registry cpu name).reverse ++ world.journal
  /-- As many registrations as were made since the registry was empty, less those removed since. -/
  size_eq : ∀ cpu, ((world.hub.roster registry cpu).size : Int) =
    (current registry world.journal).countP (Entry.admits registry cpu) -
      (current registry world.journal).countP (Entry.expels registry cpu)
  names_ascending : ∀ cpu, (world.hub.roster registry cpu).names.Pairwise
    fun left right => nameBytes left < nameBytes right
  mem_names_iff : ∀ cpu name, name ∈ (world.hub.roster registry cpu).names ↔
    ∃ listener, latest? registry cpu name world.journal = some (some listener)

section Laws

variable (world : World H) (registry : Nat)

/-- A registration succeeds exactly if its name is free. -/
theorem register_ok_iff (cpu : Cpu) (name : String) (listener : Listener) :
    (world.register registry cpu name listener).1 = .ok () ↔
      (world.hub.roster registry cpu).has name = false := by
  cases occupied : (world.hub.roster registry cpu).has name with
  | false => simp [world.register_free listener occupied]
  | true => simp [world.register_used listener occupied]

/-- A registration for both processors succeeds exactly if its name is free for both. -/
theorem registerBoth_ok_iff (name : String) (listener : Listener) :
    (world.registerBoth registry name listener).1 = .ok () ↔
      ∀ cpu, (world.hub.roster registry cpu).has name = false := by
  rcases world.registerBoth_cases registry name listener with ⟨free, added⟩ | ⟨cpu, used, refused⟩
  · simp [added, free]
  · simp only [refused, reduceCtorEq, false_iff, not_forall]
    exact ⟨cpu, by simp [used]⟩

/-- A removal tells whether the name was in use. -/
theorem remove_eq_has (cpu : Cpu) (name : String) :
    (world.remove registry cpu name).1 = (world.hub.roster registry cpu).has name := by
  cases occupied : (world.hub.roster registry cpu).has name with
  | false => rw [world.remove_free occupied]
  | true => rw [world.remove_used occupied]

/-- Removing a name for one processor leaves the other as it was. -/
theorem has_remove_other (cpu : Cpu) (name : String) :
    ((world.remove registry cpu name).2.hub.roster registry cpu.other).has name =
      (world.hub.roster registry cpu.other).has name := by
  cases occupied : (world.hub.roster registry cpu).has name with
  | false => rw [world.remove_free occupied]
  | true =>
    rw [world.remove_used occupied, hub_record, struck, Hub.roster_setRoster,
      if_neg (fun here => cpu.other_ne here.2)]

/-- A removal is noted exactly if the name was in use. -/
theorem journal_remove (cpu : Cpu) (name : String) :
    (world.remove registry cpu name).2.journal =
      if (world.hub.roster registry cpu).has name then
        .removed registry cpu name :: world.journal else world.journal := by
  cases occupied : (world.hub.roster registry cpu).has name with
  | false => simp [world.remove_free occupied]
  | true =>
    rw [world.remove_used occupied]
    rfl

/-- A removal for both processors is noted for those that had the name, the master first. -/
theorem removeBoth_eq (name : String) :
    let holders := Cpu.all.filter fun cpu => (world.hub.roster registry cpu).has name
    (world.removeBoth registry name).1 = holders.length ∧
      (world.removeBoth registry name).2.journal =
        (holders.map fun cpu => .removed registry cpu name).reverse ++ world.journal := by
  simp only [removeBoth, remove_eq_has, journal_remove]
  have slave : ((world.remove registry .master name).2.hub.roster registry Cpu.master.other).has
      name = (world.hub.roster registry Cpu.master.other).has name :=
    world.has_remove_other registry .master name
  rw [Cpu.other] at slave
  rw [slave]
  cases first : (world.hub.roster registry .master).has name <;>
    cases second : (world.hub.roster registry .slave).has name <;>
      simp [Cpu.all, first, second]

/-- A refused registration for both processors names the master if it has the name, and changes no
registry. -/
theorem registerBoth_error {name : String} {listener : Listener} {duplicate : Duplicate}
    {after : World H}
    (failed : world.registerBoth registry name listener = (.error duplicate, after)) :
    duplicate.name = name ∧ (world.hub.roster registry duplicate.cpu).has name = true ∧
      (duplicate.cpu = .master ↔ (world.hub.roster registry .master).has name = true) ∧
        after.hub = world.hub := by
  cases first : (world.hub.roster registry .master).has name with
  | true =>
    rw [world.registerBoth_used_master listener first] at failed
    cases failed
    exact ⟨rfl, first, by simp, rfl⟩
  | false =>
    cases second : (world.hub.roster registry .slave).has name with
    | true =>
      rw [world.registerBoth_used_slave listener first second] at failed
      cases failed
      exact ⟨rfl, second, by simp, rfl⟩
    | false =>
      have free : ∀ cpu, (world.hub.roster registry cpu).has name = false := by
        intro cpu
        cases cpu <;> assumption
      rw [world.registerBoth_free listener free] at failed
      cases failed

/-- At first, all rosters are empty. -/
theorem roster_initial (host : H.State) :
    (initial host).hub.roster registry = fun _ => .empty := by
  funext cpu
  cases cpu <;> rfl

/-- A registry follows its history if the entries since a time when it was empty account for it, and
if it is balanced.

Proof: what is registered under a name is what the last entry about the name says, since nothing was
registered at first. That a name is in use, that it is among the names, and that an operation
succeeds are put in terms of this. The number of names is the balance. -/
theorem followsHistory {host : H.State} (recounts : Recounts (.initial host) world)
    (balanced : world.Balanced) : world.FollowsHistory registry := by
  obtain ⟨recent, accounts, ordered⟩ := recounts
  obtain rfl : world.journal = recent := accounts.journal.trans (List.append_nil recent)
  have nobody : ∀ cpu name, (initial host).hub.lookup registry cpu name = none := by
    intro cpu name
    rw [Hub.lookup, roster_initial, Roster.find?_empty]
  have lookup_iff : ∀ cpu name listener,
      world.hub.lookup registry cpu name = some listener ↔
        latest? registry cpu name world.journal = some (some listener) := by
    intro cpu name listener
    rw [accounts.view registry cpu name, nobody]
    cases latest? registry cpu name world.journal <;> simp
  have has_iff : ∀ cpu name, (world.hub.roster registry cpu).has name = true ↔
      ∃ listener, latest? registry cpu name world.journal = some (some listener) := by
    intro cpu name
    rw [Roster.has_eq_isSome_find?, Option.isSome_iff_exists]
    exact exists_congr (lookup_iff cpu name)
  constructor
  case lookup_iff => exact lookup_iff
  case has_iff => exact has_iff
  case orderly =>
    intro cpu name
    rw [← nobody cpu name]
    exact ordered registry cpu name
  case register_ok_iff => exact world.register_ok_iff registry
  case register_ok =>
    intro cpu name listener after added
    have free : (world.hub.roster registry cpu).has name = false :=
      (world.register_ok_iff registry cpu name listener).mp (congrArg Prod.fst added)
    rw [world.register_free listener free] at added
    cases added
    rfl
  case register_error =>
    intro cpu name listener duplicate after failed
    cases occupied : (world.hub.roster registry cpu).has name with
    | false =>
      rw [world.register_free listener occupied] at failed
      cases failed
    | true =>
      rw [world.register_used listener occupied] at failed
      cases failed
      exact ⟨rfl, rfl⟩
  case registerBoth_ok_iff => exact world.registerBoth_ok_iff registry
  case registerBoth_ok =>
    intro name listener after added
    have free : ∀ (cpu : Cpu), (world.hub.roster registry cpu).has name = false :=
      (world.registerBoth_ok_iff registry name listener).mp (congrArg Prod.fst added)
    rw [world.registerBoth_free listener free] at added
    cases added
    rfl
  case registerBoth_error =>
    intro name listener duplicate after failed
    exact world.registerBoth_error registry failed
  case remove_eq => exact world.remove_eq_has registry
  case remove_true =>
    intro cpu name after removed
    have used : (world.hub.roster registry cpu).has name = (true, after).1 :=
      (world.remove_eq_has registry cpu name).symm.trans (congrArg Prod.fst removed)
    have journal :
        (world.remove registry cpu name).2.journal = if (world.hub.roster registry cpu).has name =
          true then .removed registry cpu name :: world.journal else world.journal :=
      world.journal_remove registry cpu name
    rw [used, if_pos rfl, removed] at journal
    exact journal
  case remove_false =>
    intro cpu name after stayed
    have free : (world.hub.roster registry cpu).has name = (false, after).1 :=
      (world.remove_eq_has registry cpu name).symm.trans (congrArg Prod.fst stayed)
    rw [world.remove_free free] at stayed
    exact (congrArg Prod.snd stayed).symm
  case removeBoth_eq =>
    intro name count after removed
    have counted := world.removeBoth_eq registry name
    rw [removed] at counted
    exact counted
  case size_eq =>
    intro cpu
    have size : (world.hub.roster registry cpu).size +
        (current registry world.journal).countP (Entry.expels registry cpu) =
        (current registry world.journal).countP (Entry.admits registry cpu) := balanced registry cpu
    omega
  case names_ascending => exact fun cpu => (world.hub.roster registry cpu).pairwise_names
  case mem_names_iff =>
    intro cpu name
    rw [Roster.mem_names_iff]
    exact has_iff cpu name

end Laws

end World

namespace Machine

variable {H : Host} {ε : Type}

/-- Start where nothing has happened, and let programs, executors and listeners register, remove and
fire as they please, also from inside calls. At every moment of the course, every registry follows
its history.

Proof: both what the entries account for and the balance are kept by every step, so they relate the
first world to every moment of the course. In the first world, nothing is registered. -/
theorem registry_follows_history (setting : Setting H) (depth : Nat) (start : Machine H ε)
    (host : H.State) (fresh : start.world = .initial host) (moves : List (Move H ε)) :
    ∀ moment ∈ start.moments setting depth moves, ∀ registry, moment.FollowsHistory registry := by
  intro moment inside registry
  have recounts : start.world.Recounts moment :=
    Follows.moments World.Recounts.steady setting depth start moves
      (World.Recounts.passes _) moment inside
  have balances : start.world.Balances moment :=
    Follows.moments World.Balances.steady setting depth start moves
      (World.Balances.passes _) moment inside
  rw [fresh] at recounts balances
  refine moment.followsHistory registry recounts (balances.2 ?_)
  intro seen cpu
  rw [World.roster_initial]
  rfl

/-- A listener that is called removes itself for the master and asks for its name for the slave,
which still has it. At this moment of the call, the name stands for the slave only. -/
theorem registry_follows_history_inside_call :
    let setting : Setting ⟨Unit, Unit⟩ := { Setting.still (H := ⟨Unit, Unit⟩) with
      behave := fun _ _ _ =>
        .request (.remove 0 .master "guard") fun _ =>
          .request (.register 0 .slave "guard" (.hosted 1)) fun _ => .ret () }
    let start : Machine ⟨Unit, Unit⟩ Unit :=
      ⟨.fresh .standard 0 none, SliceConfig.standard.contexts, (), .initial ()⟩
    let moves : List (Move ⟨Unit, Unit⟩ Unit) :=
      [.act (.request (.registerBoth 0 "guard" (.hosted 0)) fun _ =>
        .request (.fire 0 .master .comm) fun _ => .ret ())]
    ∃ moment ∈ start.moments setting 1 moves,
      latest? 0 .master "guard" moment.journal = some none ∧
        moment.hub.lookup 0 .slave "guard" = some (.hosted 0) ∧
        (moment.hub.roster 0 .slave).size = 1 ∧
        (moment.register 0 .slave "guard" (.hosted 1)).1 ≠ .ok () ∧
        moment.FollowsHistory 0 := by
  intro setting start moves
  have inside := List.mem_of_getElem? (show (start.moments setting 1 moves)[4]? = some _ from rfl)
  have follows := registry_follows_history setting 1 start () rfl moves _ inside 0
  refine ⟨_, inside, rfl, (follows.lookup_iff .slave "guard" (.hosted 0)).mpr rfl, rfl, ?_, follows⟩
  intro added
  cases (follows.register_ok_iff .slave "guard" (.hosted 1)).mp added

end Machine

end Sh2Pair
