import Sh2Pair.Context.Basic
import Sh2Pair.Text.Numeral
import Sh2Pair.Text.Outline

/-!
# Texts of a context

A context has a listing for people, a few lines with the registers in hexadecimal, and an
outline that names every field. Neither shows what the devices hold: the listing tells whether
they are attached, the outline shows a fixed mark in their place.
-/

namespace Sh2Pair

open Text

namespace Fetched

/-- The outline of a fetch holder. -/
def outline (fetched : Fetched) : Outline :=
  .group (.record "FetchResult") [
    .field "pc" (.text (decimal fetched.pc.toNat)),
    .field "opcode" (.text (decimal fetched.opcode.toNat)),
    .field "block" (.group (.tuple "BlockRef") [
      .text (decimal fetched.block.number.toNat)])]

end Fetched

namespace Context

/-- A word as eight hexadecimal digits. -/
def wordText (value : UInt32) : List Char := hexFixed 8 value.toNat

/-- An opcode as four hexadecimal digits. -/
def opcodeText (value : UInt16) : List Char := hexFixed 4 value.toNat

/-- The label of a register, two columns wide behind its letter. -/
def registerLabel (number : Nat) : List Char :=
  if number < 10 then 'R' :: (decimal number ++ [' ']) else 'R' :: decimal number

/-- One register of the listing: its label and its value. -/
def registerEntry (context : Context) (number : Nat) : List Char :=
  registerLabel number ++ ['='] ++ wordText (context.reg number)

/-- One line of the listing: four registers from a number on. -/
def registerRow (context : Context) (first : Nat) : List Char :=
  context.registerEntry first ++ [' '] ++ context.registerEntry (first + 1) ++ [' '] ++
    context.registerEntry (first + 2) ++ [' '] ++ context.registerEntry (first + 3) ++ ['\n']

/-- The lines of the general registers. -/
def registerRows (context : Context) : List Char :=
  context.registerRow 0 ++ context.registerRow 4 ++ context.registerRow 8 ++
    context.registerRow 12

/-- The line of the control registers. -/
def controlRow (context : Context) : List Char :=
  "PC=".toList ++ wordText context.pc ++ " PR=".toList ++ wordText context.pr ++
    " SR=".toList ++ wordText context.sr ++ " GBR=".toList ++ wordText context.gbr ++
    " VBR=".toList ++ wordText context.vbr ++ " MACH=".toList ++ wordText context.mach ++
    " MACL=".toList ++ wordText context.macl ++ ['\n']

/-- The line of the decoding state and the cycle counts. -/
def progressRow (context : Context) : List Char :=
  "opcode=".toList ++ opcodeText context.opcode ++
    " delay_slot=".toList ++ truth context.delaySlot ++
    " delay_pc=".toList ++ wordText context.delayPc ++
    " cycles=".toList ++ integer context.cycles.toInt ++
    " cycles_ran=".toList ++ integer context.ran.toInt ++ ['\n']

/-- The line of the fetch holder and the devices. -/
def fetchRow (context : Context) : List Char :=
  "fetch pc=".toList ++ wordText context.fetched.pc ++
    " opcode=".toList ++ opcodeText context.fetched.opcode ++ " block=".toList ++
    (match context.fetched.block.index? with
      | some index => decimal index.toNat
      | none => "<invalid>".toList) ++
    (if context.devices.isSome then " devices=attached".toList else [])

/-- The listing of a context. -/
def listing (context : Context) : List Char :=
  [context.letter] ++ "SH2 cpu=".toList ++ context.cpu.name.toList ++
    " debug=".toList ++ truth context.debug ++ ['\n'] ++
    context.registerRows ++ context.controlRow ++ context.progressRow ++ context.fetchRow

/-- A field that holds an unsigned number. -/
def numberField (name : String) (value : Nat) : Outline := .field name (.text (decimal value))

/-- A field that holds a truth value. -/
def truthField (name : String) (value : Bool) : Outline := .field name (.text (truth value))

/-- The outline of the devices: a mark in place of the handle. -/
def devicesOutline : Option Device → Outline
  | some _ => .group (.tuple "Some") [.group (.tuple "DeviceHandle") [.text "PTR".toList]]
  | none => .text "None".toList

/-- The outline of a context. -/
def outline (context : Context) : Outline :=
  .group (.record "Sh2Context") [
    .field "regs" (.group .sequence
      (context.regs.toList.map fun value => .text (decimal value.toNat))),
    numberField "gbr" context.gbr.toNat,
    numberField "vbr" context.vbr.toNat,
    numberField "sr" context.sr.toNat,
    numberField "mach" context.mach.toNat,
    numberField "macl" context.macl.toNat,
    numberField "pr" context.pr.toNat,
    numberField "pc" context.pc.toNat,
    numberField "opcode" context.opcode.toNat,
    numberField "delay_pc" context.delayPc.toNat,
    truthField "delay_slot" context.delaySlot,
    .field "cycles" (.text (integer context.cycles.toInt)),
    .field "cycles_ran" (.text (integer context.ran.toInt)),
    .field "devices" (devicesOutline context.devices),
    .field "fetch" context.fetched.outline,
    .field "cpu" (.text context.cpu.title.toList),
    .field "type_code" (.text ['\'', context.letter, '\'']),
    truthField "debug" context.debug]

end Context

end Sh2Pair
