import Sh2Pair.Proofs.Steady

/-!
# The order of wake-ups and reports

What a detector did about a processor, and what was reported to it, is read off the journal in
the order in which it happened. A report of polling is stale if its fire began before a wake-up
of the detector and delivers it only afterwards. This can happen since a fire goes on with its
snapshot whatever its listeners fire in the meantime.
-/

namespace Sh2Pair

namespace Entry

variable {ν : Type}

/-- A detector woke a processor. -/
def wakes (number : Nat) (cpu : Cpu) : Entry ν → Bool
  | .pollEnded seen place _ => seen = number && place = cpu
  | _ => false

/-- A detector began to take a processor to be polling. -/
def starts (number : Nat) (cpu : Cpu) : Entry ν → Bool
  | .pollStarted seen place => seen = number && place = cpu
  | _ => false

/-- A scheduler passed over the turn of a processor. -/
def passes (cpu : Cpu) : Entry ν → Bool
  | .skipped place _ => place = cpu
  | _ => false

/-- A fire began to report that a processor polls. -/
def begins (fire : Nat) (cpu : Cpu) : Entry ν → Bool
  | .fired seen _ place event _ => seen = fire && place = cpu && event = .startPolling
  | _ => false

/-- A fire reported to a detector that a processor polls. -/
def reports (fire number : Nat) (cpu : Cpu) : Entry ν → Bool
  | .called seen (.detector callee) place event =>
    seen = fire && callee = number && place = cpu && event = .startPolling
  | _ => false

/-- Something that says what a detector or its scheduler did about a processor, or what the
detector was told about it. -/
def concerns (number : Nat) (cpu : Cpu) : Entry ν → Bool
  | .pollEnded seen place _ => seen = number && place = cpu
  | .pollStarted seen place => seen = number && place = cpu
  | .skipped place _ => place = cpu
  | .called _ (.detector seen) place _ => seen = number && place = cpu
  | _ => false

/-- Somebody registered a detector, or told it about an event without a fire. -/
def meddles (number : Nat) : Entry ν → Bool
  | .registered _ _ _ (.detector seen) => seen = number
  | .registeredBoth _ _ (.detector seen) => seen = number
  | .notified (.detector seen) _ _ => seen = number
  | _ => false

variable {number : Nat} {cpu : Cpu} {entry : Entry ν}

/-- An entry that does not concern a detector wakes nobody in it. -/
theorem wakes_eq_false (aside : entry.concerns number cpu = false) :
    entry.wakes number cpu = false := by
  cases entry <;> simp_all [wakes, concerns]

/-- An entry that does not concern a detector begins no poll in it. -/
theorem starts_eq_false (aside : entry.concerns number cpu = false) :
    entry.starts number cpu = false := by
  cases entry <;> simp_all [starts, concerns]

/-- An entry that does not concern a detector and a processor passes over no turn of the processor.
-/
theorem passes_eq_false (aside : entry.concerns number cpu = false) :
    entry.passes cpu = false := by
  cases entry <;> simp_all [passes, concerns]

/-- An entry that does not concern a detector reports nothing to it. -/
theorem reports_eq_false (aside : entry.concerns number cpu = false) (fire : Nat) :
    entry.reports fire number cpu = false := by
  cases entry with
  | called seen listener place event =>
    cases listener <;> simp_all [reports, concerns]
  | _ => rfl

end Entry

section Order

variable {ν : Type}

/-- In a journal that has the latest entry first, some entry of a kind comes after one of
another kind. -/
def comesAfter (earlier later : Entry ν → Bool) : List (Entry ν) → Bool
  | [] => false
  | entry :: older => (later entry && older.any earlier) || comesAfter earlier later older

variable {earlier later : Entry ν → Bool} {recent : List (Entry ν)}

/-- The latest entry comes after one of the earlier kind if there is one, and the others come as
they did. -/
theorem comesAfter_cons (entry : Entry ν) :
    comesAfter earlier later (entry :: recent) = true ↔
      (later entry = true ∧ recent.any earlier = true) ∨
        comesAfter earlier later recent = true := by
  rw [comesAfter, Bool.or_eq_true, Bool.and_eq_true]

/-- A latest entry of another kind than the later one makes no difference. -/
theorem comesAfter_cons_of_not {entry : Entry ν} (other : later entry = false) :
    comesAfter earlier later (entry :: recent) = comesAfter earlier later recent := by
  rw [comesAfter, other, Bool.false_and, Bool.false_or]

/-- Later entries of other kinds than the later one make no difference. -/
theorem comesAfter_append_of_quiet {entries : List (Entry ν)}
    (quiet : ∀ entry ∈ entries, later entry = false) :
    comesAfter earlier later (entries ++ recent) = comesAfter earlier later recent := by
  induction entries with
  | nil => rfl
  | cons entry entries inductionHypothesis =>
    rw [List.cons_append, comesAfter_cons_of_not (quiet entry (List.mem_cons_self ..))]
    exact inductionHypothesis (fun other inside => quiet other (List.mem_cons_of_mem _ inside))

/-- What came after something goes on having come after it. -/
theorem comesAfter_append (entries : List (Entry ν))
    (before : comesAfter earlier later recent = true) :
    comesAfter earlier later (entries ++ recent) = true := by
  induction entries with
  | nil => exact before
  | cons entry entries inductionHypothesis =>
    exact (comesAfter_cons entry).mpr (.inr inductionHypothesis)

/-- A later kind in the later stretch comes after an earlier kind in the earlier one. -/
theorem comesAfter_of_append {entries : List (Entry ν)} (late : entries.any later = true)
    (early : recent.any earlier = true) :
    comesAfter earlier later (entries ++ recent) = true := by
  induction entries with
  | nil => cases late
  | cons entry entries inductionHypothesis =>
    rw [List.cons_append, comesAfter_cons]
    rw [List.any_cons, Bool.or_eq_true] at late
    rcases late with here | late
    · refine .inl ⟨here, ?_⟩
      rw [List.any_append, early, Bool.or_true]
    · exact .inr (inductionHypothesis late)

/-- If one kind comes after another, there are entries of both. -/
theorem any_of_comesAfter (before : comesAfter earlier later recent = true) :
    recent.any earlier = true ∧ recent.any later = true := by
  induction recent with
  | nil => cases before
  | cons entry recent inductionHypothesis =>
    rw [List.any_cons, List.any_cons, Bool.or_eq_true, Bool.or_eq_true]
    rcases (comesAfter_cons entry).mp before with ⟨here, older⟩ | before
    · exact ⟨.inr older, .inl here⟩
    · obtain ⟨first, second⟩ := inductionHypothesis before
      exact ⟨.inr first, .inr second⟩

/-- What never comes after itself happens once at most. -/
theorem countP_le_one {kind : Entry ν → Bool} (single : comesAfter kind kind recent = false) :
    recent.countP kind ≤ 1 := by
  induction recent with
  | nil => exact Nat.zero_le 1
  | cons entry recent inductionHypothesis =>
    rw [comesAfter, Bool.or_eq_false_iff, Bool.and_eq_false_iff] at single
    obtain ⟨here, older⟩ := single
    rcases here with other | first
    · rw [List.countP_cons_of_neg (Bool.eq_false_iff.mp other)]
      exact inductionHypothesis older
    · have none : recent.countP kind = 0 := List.countP_eq_zero.mpr fun seen inside =>
        List.any_eq_false.mp first seen inside
      rw [List.countP_cons, none]
      split <;> omega

/-- Entries of other kinds add none of this kind. -/
theorem any_append_of_quiet {kind : Entry ν → Bool} {entries : List (Entry ν)}
    (quiet : ∀ entry ∈ entries, kind entry = false) :
    (entries ++ recent).any kind = recent.any kind := by
  rw [List.any_append, List.any_eq_false.mpr fun entry inside => by simp [quiet entry inside],
    Bool.false_or]

/-- A fire that began to report polling before a wake-up delivered its report after it. -/
def Stale (number : Nat) (cpu : Cpu) (recent : List (Entry ν)) : Prop :=
  ∃ fire, comesAfter (Entry.begins fire cpu) (Entry.wakes number cpu) recent = true ∧
    comesAfter (Entry.wakes number cpu) (Entry.reports fire number cpu) recent = true

variable {number : Nat} {cpu : Cpu}

/-- What is stale stays so. -/
theorem Stale.append (entries : List (Entry ν)) (stale : Stale number cpu recent) :
    Stale number cpu (entries ++ recent) := by
  obtain ⟨fire, began, delivered⟩ := stale
  exact ⟨fire, comesAfter_append entries began, comesAfter_append entries delivered⟩

/-- Entries that do not concern a detector make no report stale. -/
theorem stale_append_of_quiet {entries : List (Entry ν)}
    (quiet : ∀ entry ∈ entries, entry.concerns number cpu = false) :
    Stale number cpu (entries ++ recent) ↔ Stale number cpu recent := by
  have wakes : ∀ entry ∈ entries, entry.wakes number cpu = false :=
    fun entry inside => Entry.wakes_eq_false (quiet entry inside)
  have reports : ∀ fire, ∀ entry ∈ entries, entry.reports fire number cpu = false :=
    fun fire entry inside => Entry.reports_eq_false (quiet entry inside) fire
  constructor
  · rintro ⟨fire, began, delivered⟩
    rw [comesAfter_append_of_quiet wakes] at began
    rw [comesAfter_append_of_quiet (reports fire)] at delivered
    exact ⟨fire, began, delivered⟩
  · exact Stale.append entries

/-- Only after a wake-up can a report be stale. -/
theorem Stale.woken (stale : Stale number cpu recent) :
    recent.any (Entry.wakes number cpu) = true := by
  obtain ⟨fire, _, delivered⟩ := stale
  exact (any_of_comesAfter delivered).1

/-- A stale report is something that concerns the processor after the wake-up. -/
theorem Stale.concerned (stale : Stale number cpu recent) :
    comesAfter (Entry.wakes number cpu) (Entry.concerns number cpu) recent = true := by
  obtain ⟨fire, _, delivered⟩ := stale
  clear * - delivered
  induction recent with
  | nil => cases delivered
  | cons entry recent inductionHypothesis =>
    refine (comesAfter_cons entry).mpr ?_
    rcases (comesAfter_cons entry).mp delivered with ⟨report, woken⟩ | delivered
    · refine .inl ⟨?_, woken⟩
      by_contra aside
      have silent : Entry.reports fire number cpu entry = false :=
        Entry.reports_eq_false (Bool.eq_false_iff.mpr aside) fire
      exact Bool.noConfusion (silent.symm.trans report)
    · exact .inr (inductionHypothesis delivered)

end Order

end Sh2Pair
