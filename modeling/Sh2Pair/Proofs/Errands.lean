import Mathlib.Algebra.Group.Nat.Defs
import Sh2Pair.Proofs.Footprints
import Sh2Pair.Session.Bench

/-!
# What a bus asks of its memory

A bus serves errands: reads and writes through the accessors of the three widths, fetches, purges,
and being taken apart and put together again. Its memory may be any memory, whose answers change
with every read and are wider than what was asked for. To see what reaches it, the memory is put
behind an overseer, which notes every access and every answer and passes both on.

Each errand reaches the memory once, at the alignment of its width and with no more bits than the
width holds; a purge reaches it only behind a cache. By induction, a row of errands reaches it in
that order, and nothing else does.
-/

namespace Sh2Pair

open Session (wire readTyped writeTyped)

/-- One thing that is asked of a bus. -/
inductive Errand where
  | read (cpu : Cpu) (address : UInt32) (width : Width)
  | write (cpu : Cpu) (address : UInt32) (width : Width) (value : UInt32)
  /-- Fetches the instruction at the program counter of a context. -/
  | fetch (context : Context)
  /-- Fetches the instruction of a delay slot. -/
  | fetchSlot (context : Context) (pc : UInt32)
  | purge (cpu : Cpu) (address : UInt32) (width : Width)
  /-- Takes the memory out and puts it behind another bus. -/
  | rewrap (cached : Bool)

/-- What comes back from a bus. -/
inductive Reply where
  | value (value : UInt32)
  | taken (taken : Bool)
  | opcode (opcode : UInt16) (context : Context)
  | forwarded (forwarded : Bool)
  | rewrapped

namespace Bus

variable {M : Type} [Store M] [CacheControl M]

/-- Serves one errand. -/
def serve (bus : Bus M) : Errand → Reply × Bus M
  | .read cpu address width =>
    let (value, bus) := readTyped bus cpu address width
    (.value value, bus)
  | .write cpu address width value =>
    let (taken, bus) := writeTyped bus cpu address width value
    (.taken taken, bus)
  | .fetch context =>
    let (opcode, context, bus) := bus.fetch context
    (.opcode opcode context, bus)
  | .fetchSlot context pc =>
    let (opcode, context, bus) := bus.fetchSlot context pc
    (.opcode opcode context, bus)
  | .purge cpu address width =>
    let (forwarded, bus) := bus.purge cpu address width
    (.forwarded forwarded, bus)
  | .rewrap cached => (.rewrapped, wire bus.memory cached)

/-- Serves errands in their order. -/
def serveAll (bus : Bus M) : List Errand → List Reply × Bus M
  | [] => ([], bus)
  | errand :: errands =>
    let (reply, bus) := bus.serve errand
    let (replies, bus) := bus.serveAll errands
    (reply :: replies, bus)

end Bus

/-- An access that reached a memory, with the answer if it was a read. -/
structure Sight where
  access : Access
  answer : Option UInt32

/-- A memory behind an overseer, with the accesses that reached it, the latest last. -/
structure Overseen (M : Type) where
  memory : M
  sights : List Sight

namespace Overseen

variable {M : Type}

/-- Notes an access. -/
def note (overseen : Overseen M) (memory : M) (access : Access) (answer : Option UInt32) :
    Overseen M :=
  ⟨memory, overseen.sights ++ [⟨access, answer⟩]⟩

instance [Store M] : Store (Overseen M) where
  read cpu address width overseen :=
    let (answer, memory) := Store.read cpu address width overseen.memory
    (answer, overseen.note memory (.read cpu address width) (some answer))
  write cpu address width value overseen :=
    let (taken, memory) := Store.write cpu address width value overseen.memory
    (taken, overseen.note memory (.write cpu address width value) none)

instance [CacheControl M] : CacheControl (Overseen M) where
  purge cpu address width overseen :=
    overseen.note (CacheControl.purge cpu address width overseen.memory)
      (.purge cpu address width) none

end Overseen

namespace Width

/-- A place where an access at an address may be made: a multiple of the width, less than the width
below the address. -/
structure Aligns (width : Width) (address place : UInt32) : Prop where
  multiple : width.bytes ∣ place.toNat
  below : place.toNat ≤ address.toNat
  near : address.toNat < place.toNat + width.bytes

/-- What is kept of a value when no more bits than the width holds are carried. -/
structure Keeps (width : Width) (value kept : UInt32) : Prop where
  modulo : kept.toNat = value.toNat % 2 ^ (8 * width.bytes)
  bounded : kept.toNat < 2 ^ (8 * width.bytes)

/-- The aligned address of an access is the address that the width asks for. -/
theorem aligns_align (width : Width) (address : UInt32) :
    width.Aligns address (width.align address) where
  multiple := Nat.dvd_of_mod_eq_zero (toNat_align_mod width address)
  below := by
    rw [toNat_align]
    exact Nat.sub_le _ _
  near := by
    have remainder : address.toNat % width.bytes < width.bytes :=
      Nat.mod_lt address.toNat width.bytes_pos
    rw [toNat_align]
    omega

/-- Truncating a value keeps what an access of the width can hold. -/
theorem keeps_truncate (width : Width) (value : UInt32) :
    width.Keeps value (width.truncate value) := by
  have same : (width.truncate value).toNat = value.toNat % 2 ^ (8 * width.bytes) := by
    rw [toNat_truncate, Nat.one_shiftLeft]
  refine ⟨same, ?_⟩
  rw [same]
  exact Nat.mod_lt _ (Nat.two_pow_pos _)

/-- A byte has room for what is kept at its width. -/
theorem toUInt32_byte (answer : UInt32) :
    (Width.byte.truncate answer).toUInt8.toUInt32 = Width.byte.truncate answer := by
  have bounded : (Width.byte.truncate answer).toNat < 2 ^ 8 :=
    (Width.byte.keeps_truncate answer).bounded
  apply UInt32.toNat_inj.mp
  rw [UInt8.toNat_toUInt32, UInt32.toNat_toUInt8]
  exact Nat.mod_eq_of_lt bounded

/-- A word has room for what is kept at its width. -/
theorem toUInt32_opcode (answer : UInt32) :
    (Width.word.truncate answer).toUInt16.toUInt32 = Width.word.truncate answer := by
  have bounded : (Width.word.truncate answer).toNat < 2 ^ 16 :=
    (Width.word.keeps_truncate answer).bounded
  apply UInt32.toNat_inj.mp
  rw [UInt16.toNat_toUInt32, UInt32.toNat_toUInt16]
  exact Nat.mod_eq_of_lt bounded

/-- The low byte of a value is what is kept of it. -/
theorem truncate_toUInt8 (value : UInt32) :
    Width.byte.truncate value.toUInt8.toUInt32 = Width.byte.truncate value := by
  have narrow : value.toNat % 2 ^ 8 < 2 ^ 8 := Nat.mod_lt _ (by decide)
  apply UInt32.toNat_inj.mp
  rw [toNat_truncate, toNat_truncate, UInt8.toNat_toUInt32, UInt32.toNat_toUInt8]
  exact Nat.mod_eq_of_lt narrow

/-- The low word of a value is what is kept of it. -/
theorem truncate_toUInt16 (value : UInt32) :
    Width.word.truncate value.toUInt16.toUInt32 = Width.word.truncate value := by
  have narrow : value.toNat % 2 ^ 16 < 2 ^ 16 := Nat.mod_lt _ (by decide)
  apply UInt32.toNat_inj.mp
  rw [toNat_truncate, toNat_truncate, UInt16.toNat_toUInt32, UInt32.toNat_toUInt16]
  exact Nat.mod_eq_of_lt narrow

/-- Reading an opcode keeps the word that the memory answered. -/
theorem keeps_opcode (answer : UInt32) :
    Width.word.Keeps answer (Width.word.truncate answer).toUInt16.toUInt32 := by
  rw [toUInt32_opcode]
  exact Width.word.keeps_truncate answer

end Width

/-- An errand is served as it should be, by a bus with or without a cache: this is what the memory
sees of it, this is what comes back, and this says whether there is a cache afterwards. -/
inductive Served : Bool → Errand → List Sight → Reply → Bool → Prop where
  | read {cached : Bool} {cpu : Cpu} {address place answer value : UInt32} {width : Width}
      (aligned : width.Aligns address place) (kept : width.Keeps answer value) :
      Served cached (.read cpu address width) [⟨.read cpu place width, some answer⟩] (.value value)
        cached
  | write {cached taken : Bool} {cpu : Cpu} {address place value offered : UInt32} {width : Width}
      (aligned : width.Aligns address place) (kept : width.Keeps value offered) :
      Served cached (.write cpu address width value) [⟨.write cpu place width offered, none⟩]
        (.taken taken) cached
  | fetch {cached : Bool} {context : Context} {place answer : UInt32} {opcode : UInt16}
      (aligned : Width.word.Aligns context.pc place)
      (kept : Width.word.Keeps answer opcode.toUInt32) :
      Served cached (.fetch context) [⟨.read context.cpu place .word, some answer⟩]
        (.opcode opcode
          { context with opcode := opcode, fetched := ⟨context.pc, opcode, .missing⟩ })
        cached
  | fetchSlot {cached : Bool} {context : Context} {pc place answer : UInt32} {opcode : UInt16}
      (aligned : Width.word.Aligns pc place) (kept : Width.word.Keeps answer opcode.toUInt32) :
      Served cached (.fetchSlot context pc) [⟨.read context.cpu place .word, some answer⟩]
        (.opcode opcode { context with opcode := opcode }) cached
  | forwarded {cpu : Cpu} {address place : UInt32} {width : Width}
      (aligned : width.Aligns address place) :
      Served true (.purge cpu address width) [⟨.purge cpu place width, none⟩] (.forwarded true) true
  | dropped {cpu : Cpu} {address : UInt32} {width : Width} :
      Served false (.purge cpu address width) [] (.forwarded false) false
  | rewrapped {before after : Bool} : Served before (.rewrap after) [] .rewrapped after

/-- Errands are served one after the other. -/
inductive ServedAll : Bool → List Errand → List Sight → List Reply → Bool → Prop where
  | done {cached : Bool} : ServedAll cached [] [] [] cached
  | next {before between after : Bool} {errand : Errand} {errands : List Errand}
      {sights later : List Sight} {reply : Reply} {replies : List Reply}
      (first : Served before errand sights reply between)
      (others : ServedAll between errands later replies after) :
      ServedAll before (errand :: errands) (sights ++ later) (reply :: replies) after

namespace Bus

variable {M : Type} [Store M]

/-- The accessor of a width gives what the shared read gives, which fits into the type of the
accessor. -/
theorem readTyped_eq (bus : Bus M) (cpu : Cpu) (address : UInt32) (width : Width) :
    readTyped bus cpu address width = bus.read cpu address width := by
  cases width with
  | byte => exact Prod.ext (Width.toUInt32_byte _) rfl
  | word => exact Prod.ext (Width.toUInt32_opcode _) rfl
  | long => rfl

/-- The accessor of a width writes what the shared write keeps of a value. -/
theorem writeTyped_eq (bus : Bus M) (cpu : Cpu) (address : UInt32) (width : Width)
    (value : UInt32) :
    writeTyped bus cpu address width value = bus.write cpu address width value := by
  cases width with
  | byte => simp only [writeTyped, write8, write, Width.truncate_toUInt8]
  | word => simp only [writeTyped, write16, write, Width.truncate_toUInt16]
  | long => rfl

/-- A fetch gives what a read at the program counter gives, and leaves the same bus. -/
theorem fetch_eq_read (bus : Bus M) (context : Context) :
    ((bus.fetch context).1.toUInt32, (bus.fetch context).2.2) =
      bus.read context.cpu context.pc .word :=
  Prod.ext (Width.toUInt32_opcode _) rfl

variable [CacheControl M]

/-- What a bus over a memory does with an errand, a bus over the overseen memory does as well, and
the memory sees what it should.

Proof: one case per errand. An access reaches the memory with its address aligned to its width, and
the overseer notes it and hands it on. A purge reaches it only behind a cache. -/
theorem serve_overseen (memory : M) (cached : Bool) (seen : List Sight) (errand : Errand) :
    ∃ sights reply left after,
      (wire memory cached).serve errand = (reply, wire left after) ∧
      (wire (Overseen.mk memory seen) cached).serve errand =
        (reply, wire ⟨left, seen ++ sights⟩ after) ∧
      Served cached errand sights reply after := by
  cases errand with
  | read cpu address width =>
    have aligned : width.Aligns address (width.align address) := width.aligns_align address
    have kept : width.Keeps (Store.read cpu (width.align address) width memory).1
        (width.truncate (Store.read cpu (width.align address) width memory).1) :=
      width.keeps_truncate (Store.read cpu (width.align address) width memory).1
    refine ⟨_, _, (Store.read cpu (width.align address) width memory).2, cached, ?_, ?_,
      .read aligned kept⟩
    · rw [serve, readTyped_eq]
      cases cached <;> rfl
    · rw [serve, readTyped_eq]
      cases cached <;> rfl
  | write cpu address width value =>
    let taken := Store.write cpu (width.align address) width (width.truncate value) memory
    have aligned : width.Aligns address (width.align address) := width.aligns_align address
    have kept : width.Keeps value (width.truncate value) := width.keeps_truncate value
    refine ⟨_, .taken taken.1, taken.2, cached, ?_, ?_, .write aligned kept⟩
    · rw [serve, writeTyped_eq]
      cases cached <;> rfl
    · rw [serve, writeTyped_eq]
      cases cached <;> rfl
  | fetch context =>
    let answered := Store.read context.cpu (Width.word.align context.pc) .word memory
    have aligned : Width.word.Aligns context.pc (Width.word.align context.pc) :=
      Width.aligns_align .word context.pc
    refine ⟨_, _, answered.2, cached, ?_, ?_, .fetch aligned (Width.keeps_opcode answered.1)⟩
    · cases cached <;> rfl
    · cases cached <;> rfl
  | fetchSlot context pc =>
    let answered := Store.read context.cpu (Width.word.align pc) .word memory
    have aligned : Width.word.Aligns pc (Width.word.align pc) := Width.aligns_align .word pc
    refine ⟨_, _, answered.2, cached, ?_, ?_, .fetchSlot aligned (Width.keeps_opcode answered.1)⟩
    · cases cached <;> rfl
    · cases cached <;> rfl
  | purge cpu address width =>
    cases cached with
    | false => exact ⟨[], _, memory, false, rfl, by rw [List.append_nil]; rfl, .dropped⟩
    | true => exact ⟨_, _, _, true, rfl, rfl, .forwarded (width.aligns_align address)⟩
  | rewrap after =>
    refine ⟨[], _, memory, after, ?_, ?_, .rewrapped⟩
    · cases cached <;> rfl
    · rw [List.append_nil]
      cases cached <;> rfl

/-- The same for errands that are served one after the other. -/
theorem serveAll_from (errands : List Errand) (memory : M) (cached : Bool) (seen : List Sight) :
    ∃ sights replies left after,
      (wire memory cached).serveAll errands = (replies, wire left after) ∧
      (wire (Overseen.mk memory seen) cached).serveAll errands =
        (replies, wire ⟨left, seen ++ sights⟩ after) ∧
      ServedAll cached errands sights replies after := by
  induction errands generalizing memory cached seen with
  | nil =>
    refine ⟨[], [], memory, cached, rfl, ?_, .done⟩
    rw [List.append_nil]
    rfl
  | cons errand errands inductionHypothesis =>
    obtain ⟨sights, reply, between, caching, bare, overseen, served⟩ :=
      serve_overseen memory cached seen errand
    obtain ⟨later, replies, left, after, others, overseenToo, servedToo⟩ :=
      inductionHypothesis between caching (seen ++ sights)
    refine ⟨sights ++ later, reply :: replies, left, after, ?_, ?_, .next served servedToo⟩
    · simp only [serveAll, bare, others]
    · simp only [serveAll, overseen, overseenToo, List.append_assoc]

/-- What a bus asks of its memory, whatever memory it is and whatever is asked of the bus. An
overseer in front of the memory changes nothing about the replies and about the memory that is left,
and it sees what each errand should send, in the order of the errands, and nothing else. A fetch,
moreover, is a read at the program counter. For a memory that knows no purges, any way to take them
will do, as long as no errand puts it behind a cache.

Proof: by induction on the errands, what the overseer has seen so far grows by what each errand
should send. A fetch is a read of a word by definition, up to the width of the answer. -/
theorem serveAll_overseen (memory : M) (cached : Bool) (errands : List Errand) :
    (∃ sights replies left after,
      (wire memory cached).serveAll errands = (replies, wire left after) ∧
      (wire (Overseen.mk memory []) cached).serveAll errands =
        (replies, wire ⟨left, sights⟩ after) ∧
      ServedAll cached errands sights replies after) ∧
    ∀ (bus : Bus M) (context : Context),
      ((bus.fetch context).1.toUInt32, (bus.fetch context).2.2) =
        bus.read context.cpu context.pc .word := by
  refine ⟨?_, fetch_eq_read⟩
  exact serveAll_from errands memory cached []

end Bus

end Sh2Pair
