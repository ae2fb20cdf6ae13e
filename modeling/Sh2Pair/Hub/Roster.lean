/-!
# Who listens

Listeners are registered under names, separately for each processor. A listener is a poll
detector or something hosted outside the library, each known by a number. A roster holds the
registrations of one processor in the order in which they were made; no name occurs twice.
-/

namespace Sh2Pair

/-- Something that can be told about events. -/
inductive Listener where
  /-- The poll detector of a number. -/
  | detector (number : Nat)
  /-- The outside listener of a number. -/
  | hosted (number : Nat)
  deriving DecidableEq, Inhabited

/-- A listener under a name. -/
structure Registration where
  name : String
  listener : Listener
  deriving DecidableEq

/-- The registrations of one processor. -/
structure Roster where
  entries : List Registration
  nodup : (entries.map Registration.name).Nodup

namespace Roster

/-- The roster without registrations. -/
def empty : Roster := ⟨[], List.nodup_nil⟩

instance : Inhabited Roster := ⟨empty⟩

/-- The listener under a name. -/
def find? (roster : Roster) (name : String) : Option Listener :=
  (roster.entries.find? fun entry => entry.name = name).map Registration.listener

/-- Whether something is registered under a name. -/
def has (roster : Roster) (name : String) : Bool :=
  roster.entries.any fun entry => entry.name = name

/-- The number of registrations. -/
def size (roster : Roster) : Nat := roster.entries.length

/-- The listeners, in the order of their registrations. -/
def listeners (roster : Roster) : List Listener := roster.entries.map Registration.listener

/-- A name that is not in use is not among the names of the registrations. -/
theorem not_mem_of_has_eq_false {roster : Roster} {name : String}
    (free : roster.has name = false) : name ∉ roster.entries.map Registration.name := by
  intro member
  obtain ⟨entry, inside, same⟩ := List.mem_map.mp member
  have used : roster.has name = true :=
    List.any_eq_true.mpr ⟨entry, inside, decide_eq_true same⟩
  rw [free] at used
  contradiction

/-- Adds a registration under a name that is not in use. -/
def insert (roster : Roster) (name : String) (listener : Listener)
    (free : roster.has name = false) : Roster where
  entries := roster.entries ++ [⟨name, listener⟩]
  nodup := by
    rw [List.map_append, List.map_cons, List.map_nil, List.nodup_append]
    refine ⟨roster.nodup, by simp, ?_⟩
    intro left inLeft right inRight same
    have isName : left = name := same.trans (List.mem_singleton.mp inRight)
    exact not_mem_of_has_eq_false free (isName ▸ inLeft)

/-- Removes the registration under a name, if there is one. -/
def erase (roster : Roster) (name : String) : Roster where
  entries := roster.entries.filter fun entry => entry.name ≠ name
  nodup := roster.nodup.sublist (List.filter_sublist.map Registration.name)

/-- Nothing is registered in the empty roster. -/
@[simp] theorem find?_empty (name : String) : empty.find? name = none := rfl

/-- A name is in use exactly if there is a listener under it. -/
theorem has_eq_isSome_find? (roster : Roster) (name : String) :
    roster.has name = (roster.find? name).isSome := by
  rw [find?, Option.isSome_map, List.isSome_find?, has]

/-- A registration is found under its own name, and hides no other. -/
theorem find?_insert (roster : Roster) (name seen : String) (listener : Listener)
    (free : roster.has name = false) :
    (roster.insert name listener free).find? seen =
      if seen = name then some listener else roster.find? seen := by
  have absent : roster.find? name = none := by
    rw [has_eq_isSome_find?, Option.isSome_eq_false_iff, Option.isNone_iff_eq_none] at free
    exact free
  rw [find?, Option.map_eq_none_iff] at absent
  rw [find?, find?, insert, List.find?_append]
  by_cases same : seen = name
  · subst same
    rw [absent, if_pos rfl]
    simp
  · have differs : name ≠ seen := fun equal => same equal.symm
    rw [if_neg same]
    simp [differs]

/-- Nothing is found under a removed name, and the others stay. -/
theorem find?_erase (roster : Roster) (name seen : String) :
    (roster.erase name).find? seen = if seen = name then none else roster.find? seen := by
  rw [find?, find?, erase, List.find?_filter]
  by_cases same : seen = name
  · subst same
    rw [if_pos rfl, Option.map_eq_none_iff, List.find?_eq_none]
    simp
  · rw [if_neg same]
    congr 2
    funext entry
    by_cases hit : entry.name = seen
    · simp [hit, same]
    · simp [hit]

/-- The names in use, in ascending order of their characters. -/
def names (roster : Roster) : List String :=
  (roster.entries.map Registration.name).mergeSort fun left right => decide (left ≤ right)

end Roster

end Sh2Pair
