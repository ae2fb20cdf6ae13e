/-!
# The two processors

The machine has exactly two processors, which differ in name only. `Cpu` is the identity that
keys every table of the library, and `Pair` is a value for each of the two. A pair is read and
changed at one processor at a time; a change at one never shows at the other, which
`Pair.get_set_other` states.
-/

namespace Sh2Pair

/-- The identity of a processor. -/
inductive Cpu where
  | master
  | slave
  deriving DecidableEq, Inhabited

namespace Cpu

/-- Both processors, in the order of their positions. -/
def all : List Cpu := [.master, .slave]

/-- The position of a processor in tables written as lists. -/
def index : Cpu → Nat
  | .master => 0
  | .slave => 1

/-- The name used in diagnostics. -/
def name : Cpu → String
  | .master => "MASTER"
  | .slave => "SLAVE"

/-- The name used in configuration texts. -/
def key : Cpu → String
  | .master => "master"
  | .slave => "slave"

/-- The name used in structural dumps. -/
def title : Cpu → String
  | .master => "Master"
  | .slave => "Slave"

/-- The one-letter tag of a processor: the first letter of its name. -/
def letter (cpu : Cpu) : Char := cpu.name.toList.headD '?'

/-- The partner of a processor. -/
def other : Cpu → Cpu
  | .master => .slave
  | .slave => .master

/-- Processors compare by position. -/
def compare (left right : Cpu) : Ordering := Ord.compare left.index right.index

/-- The other of the other processor is the processor itself. -/
@[simp] theorem other_other (cpu : Cpu) : cpu.other.other = cpu := by cases cpu <;> rfl

/-- No processor is its own other. -/
theorem other_ne (cpu : Cpu) : cpu.other ≠ cpu := by cases cpu <;> decide

/-- There are two processors only. -/
theorem eq_or_eq_other (left right : Cpu) : left = right ∨ left = right.other := by
  cases left <;> cases right <;> decide

end Cpu

/-- One value for each processor. -/
structure Pair (α : Type) where
  master : α
  slave : α
  deriving DecidableEq, Inhabited

namespace Pair

variable {α β : Type}

/-- The same value for both processors. -/
def both (value : α) : Pair α := ⟨value, value⟩

/-- The value of one processor. -/
def get (pair : Pair α) : Cpu → α
  | .master => pair.master
  | .slave => pair.slave

/-- Replaces the value of one processor. -/
def set (pair : Pair α) : Cpu → α → Pair α
  | .master, value => { pair with master := value }
  | .slave, value => { pair with slave := value }

/-- Changes the value of one processor by a function. -/
def modify (pair : Pair α) (cpu : Cpu) (change : α → α) : Pair α :=
  pair.set cpu (change (pair.get cpu))

/-- Applies a function to both values. -/
def map (f : α → β) (pair : Pair α) : Pair β := ⟨f pair.master, f pair.slave⟩

/-- The same pair with the processors exchanged. -/
def swap (pair : Pair α) : Pair α := ⟨pair.slave, pair.master⟩

/-- Both values, the master's first. -/
def toList (pair : Pair α) : List α := [pair.master, pair.slave]

/-- A pair of one value for both has it for either. -/
@[simp] theorem get_both (value : α) (cpu : Cpu) : (both value).get cpu = value := by
  cases cpu <;> rfl

/-- What is set for a processor is what it has. -/
@[simp] theorem get_set_self (pair : Pair α) (cpu : Cpu) (value : α) :
    (pair.set cpu value).get cpu = value := by
  cases cpu <;> rfl

/-- Setting a value for a processor leaves the other one what it had. -/
@[simp] theorem get_set_other (pair : Pair α) (cpu : Cpu) (value : α) :
    (pair.set cpu value).get cpu.other = pair.get cpu.other := by
  cases cpu <;> rfl

/-- Setting a value for the other processor leaves this one what it had. -/
@[simp] theorem get_other_set (pair : Pair α) (cpu : Cpu) (value : α) :
    (pair.set cpu.other value).get cpu = pair.get cpu := by
  cases cpu <;> rfl

/-- What a processor has after a value was set for one of the two. -/
theorem get_set (pair : Pair α) (cpu seen : Cpu) (value : α) :
    (pair.set cpu value).get seen = if seen = cpu then value else pair.get seen := by
  cases cpu <;> cases seen <;> rfl

/-- Setting what is there changes nothing. -/
@[simp] theorem set_get (pair : Pair α) (cpu : Cpu) : pair.set cpu (pair.get cpu) = pair := by
  cases cpu <;> rfl

/-- Of two values that are set for one processor, the later one stays. -/
@[simp] theorem set_set (pair : Pair α) (cpu : Cpu) (first second : α) :
    (pair.set cpu first).set cpu second = pair.set cpu second := by
  cases cpu <;> rfl

/-- What is changed for a processor is what it had. -/
@[simp] theorem get_modify_self (pair : Pair α) (cpu : Cpu) (change : α → α) :
    (pair.modify cpu change).get cpu = change (pair.get cpu) :=
  get_set_self ..

/-- A change is lost when a value is set for the same processor. -/
@[simp] theorem set_modify (pair : Pair α) (cpu : Cpu) (change : α → α) (value : α) :
    (pair.modify cpu change).set cpu value = pair.set cpu value :=
  set_set ..

/-- Mapping a pair maps what each processor has. -/
@[simp] theorem get_map (f : α → β) (pair : Pair α) (cpu : Cpu) :
    (pair.map f).get cpu = f (pair.get cpu) := by
  cases cpu <;> rfl

/-- Mapping after setting a value is setting the mapped value. -/
theorem map_set (f : α → β) (pair : Pair α) (cpu : Cpu) (value : α) :
    (pair.set cpu value).map f = (pair.map f).set cpu (f value) := by
  cases cpu <;> rfl

/-- In the swapped pair, a processor has what the other one had. -/
@[simp] theorem get_swap (pair : Pair α) (cpu : Cpu) :
    pair.swap.get cpu = pair.get cpu.other := by
  cases cpu <;> rfl

/-- Two pairs are equal when they agree at each processor. -/
theorem ext_get {left right : Pair α} (agree : ∀ cpu, left.get cpu = right.get cpu) :
    left = right := by
  cases left with
  | mk leftMaster leftSlave =>
    cases right with
    | mk rightMaster rightSlave =>
      have atMaster : leftMaster = rightMaster := agree .master
      have atSlave : leftSlave = rightSlave := agree .slave
      rw [atMaster, atSlave]

end Pair

end Sh2Pair
