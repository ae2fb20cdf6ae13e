/-!
# Numbered tables

A table gives a value for every number. All but finitely many numbers have the default value,
so a table is stored as the list of its first values. Entries are added at the first number
that the list does not reach.
-/

namespace Sh2Pair

/-- A value for every number, the default one for all but finitely many. -/
structure Table (α : Type) where
  entries : List α

namespace Table

variable {α : Type} [Inhabited α]

/-- The table of default values only. -/
def empty : Table α := ⟨[]⟩

/-- The first number that has never been written. -/
def size (table : Table α) : Nat := table.entries.length

/-- The value of a number. -/
def get (table : Table α) (number : Nat) : α := table.entries.getD number default

/-- Writes a place of a list, which is filled up with default values if it is too short. -/
def put : List α → Nat → α → List α
  | [], 0, value => [value]
  | [], number + 1, value => default :: put [] number value
  | _ :: later, 0, value => value :: later
  | first :: later, number + 1, value => first :: put later number value

/-- Replaces the value of a number. -/
def set (table : Table α) (number : Nat) (value : α) : Table α :=
  ⟨put table.entries number value⟩

/-- Changes the value of a number by a function. -/
def modify (table : Table α) (number : Nat) (change : α → α) : Table α :=
  table.set number (change (table.get number))

/-- Adds a value at the first unwritten number. -/
def push (table : Table α) (value : α) : Table α := table.set table.size value

/-- The entry that is put at a place is found there, and the other places show what they showed. -/
theorem getD_put (entries : List α) (number seen : Nat) (value : α) :
    (put entries number value).getD seen default =
      if seen = number then value else entries.getD seen default := by
  induction entries generalizing number seen with
  | nil =>
    induction number generalizing seen with
    | zero => cases seen <;> simp [put]
    | succ number inductionHypothesis =>
      cases seen with
      | zero => simp [put]
      | succ seen => simpa [put] using inductionHypothesis seen
  | cons first later inductionHypothesis =>
    cases number with
    | zero => cases seen <;> simp [put]
    | succ number =>
      cases seen with
      | zero => simp [put]
      | succ seen => simpa [put] using inductionHypothesis number seen

/-- Writing a number changes the value of that number only. -/
theorem get_set (table : Table α) (number seen : Nat) (value : α) :
    (table.set number value).get seen = if seen = number then value else table.get seen :=
  getD_put table.entries number seen value

/-- What is set at a place is found there. -/
@[simp] theorem get_set_self (table : Table α) (number : Nat) (value : α) :
    (table.set number value).get number = value := by
  rw [get_set, if_pos rfl]

/-- Setting a value at one place leaves the others alone. -/
theorem get_set_ne (table : Table α) {number seen : Nat} (differs : seen ≠ number) (value : α) :
    (table.set number value).get seen = table.get seen := by
  rw [get_set, if_neg differs]

/-- A list grows up to the place where something is put. -/
theorem length_put (entries : List α) (number : Nat) (value : α) :
    (put entries number value).length = max entries.length (number + 1) := by
  induction entries generalizing number with
  | nil =>
    induction number with
    | zero => rfl
    | succ number inductionHypothesis =>
      simp only [put, List.length_cons, List.length_nil] at inductionHypothesis ⊢
      omega
  | cons first later inductionHypothesis =>
    cases number with
    | zero => simp [put]
    | succ number =>
      simp only [put, List.length_cons, inductionHypothesis]
      omega

/-- Writing a number makes the table reach it, and never shortens the table. -/
theorem size_set (table : Table α) (number : Nat) (value : α) :
    (table.set number value).size = max table.size (number + 1) :=
  length_put table.entries number value

/-- A table does not shrink when a value is set. -/
theorem size_le_size_set (table : Table α) (number : Nat) (value : α) :
    table.size ≤ (table.set number value).size := by
  rw [size_set]
  exact Nat.le_max_left ..

/-- A place at which a value was set is inside the table. -/
theorem lt_size_set (table : Table α) (number : Nat) (value : α) :
    number < (table.set number value).size := by
  rw [size_set]
  exact Nat.le_max_right ..

/-- A number that the table does not reach has the default value. -/
theorem get_of_size_le (table : Table α) {number : Nat} (beyond : table.size ≤ number) :
    table.get number = default := by
  rw [get, List.getD_eq_getElem?_getD, List.getElem?_eq_none beyond, Option.getD_none]

/-- Adding a value changes no value that is there already. -/
theorem get_push (table : Table α) {number : Nat} (inside : number < table.size) (value : α) :
    (table.push value).get number = table.get number :=
  get_set_ne table (Nat.ne_of_lt inside) value

/-- Putting what is there changes nothing. -/
theorem put_getD (entries : List α) {number : Nat} (inside : number < entries.length) :
    put entries number (entries.getD number default) = entries := by
  induction entries generalizing number with
  | nil => cases inside
  | cons first later inductionHypothesis =>
    cases number with
    | zero => rfl
    | succ number =>
      exact congrArg (first :: ·) (inductionHypothesis (Nat.lt_of_succ_lt_succ inside))

/-- Writing what is there already changes nothing. -/
theorem set_get (table : Table α) {number : Nat} (inside : number < table.size) :
    table.set number (table.get number) = table :=
  congrArg Table.mk (put_getD table.entries inside)

/-- Two tables of one size that agree at each number are equal. -/
theorem ext_get {left right : Table α} (size : left.size = right.size)
    (agree : ∀ number, left.get number = right.get number) : left = right := by
  refine congrArg Table.mk (List.ext_getElem size fun number inLeft inRight => ?_)
  have same : left.get number = right.get number := agree number
  rwa [get, get, List.getD_eq_getElem?_getD, List.getD_eq_getElem?_getD,
    List.getElem?_eq_getElem inLeft, List.getElem?_eq_getElem inRight, Option.getD_some,
    Option.getD_some] at same

/-- Writes of different numbers may change places. -/
theorem set_comm (table : Table α) {first second : Nat} (apart : first ≠ second)
    (value other : α) :
    (table.set first value).set second other = (table.set second other).set first value := by
  refine ext_get ?_ fun number => ?_
  · rw [size_set, size_set, size_set, size_set]
    omega
  · rw [get_set, get_set, get_set, get_set]
    by_cases here : number = second
    · rw [if_pos here, if_neg (here ▸ apart.symm), if_pos here]
    · rw [if_neg here, if_neg here]

/-- So may changes. -/
theorem modify_comm (table : Table α) {first second : Nat} (apart : first ≠ second)
    (change other : α → α) :
    (table.modify first change).modify second other =
      (table.modify second other).modify first change := by
  rw [modify, modify, modify, modify, get_set_ne _ apart.symm, get_set_ne _ apart]
  exact set_comm table apart _ _

end Table

end Sh2Pair
