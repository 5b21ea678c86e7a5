import ThumbSoc.Core.Special
import ThumbSoc.Fault
import ThumbSoc.Instruction

/-!
# Listings

The assembler text of an instruction at an address. An instruction is first taken apart into
a mnemonic and a list of operands, and only then written out, with commas between the
operands. A word that encodes no instruction is listed as data.
-/

namespace ThumbSoc

/-- An operand as it is written. -/
inductive Operand where
  /-- A register; nothing is written for a missing one. -/
  | register (number : Option Nat)
  /-- A number after a hash sign. -/
  | immediate (value : Int)
  /-- The target of a branch. -/
  | target (address : Word)
  /-- Data in at least the given count of digits. -/
  | data (digits : Nat) (value : Word)
  /-- A base register and an offset: an index register if there is one, else a number, which
  is not written when it is zero. -/
  | memory (base index : Option Nat) (displacement : Int)
  /-- The base of a multiple transfer, marked if it is updated. -/
  | base (number : Option Nat) (updated : Bool)
  /-- A set of registers. -/
  | registers (list : RegisterList)
  /-- A special register by selector. -/
  | special (selector : Nat)
  /-- The interrupt mask of the instructions that switch it. -/
  | interrupts
  deriving DecidableEq, Repr

namespace Operand

/-- The name of a register given by number. -/
def registerName : Option Nat → String
  | some n => (Register.ofNumber n).name
  | none => ""

/-- The text of an operand. -/
def text : Operand → String
  | .register n => registerName n
  | .immediate value => "#" ++ toString value
  | .target address => Hex.address address
  | .data digits value => "0x" ++ Hex.digits digits value.toNat
  | .memory rn rm displacement =>
    let offset :=
      if rm.isSome then ", " ++ registerName rm
      else if displacement = 0 then ""
      else ", #" ++ toString displacement
    "[" ++ registerName rn ++ offset ++ "]"
  | .base rn updated => registerName rn ++ (if updated then "!" else "")
  | .registers list =>
    "\x7b" ++ ", ".intercalate (list.numbers.map fun n => registerName (some n)) ++ "\x7d"
  | .special selector => Special.selectorName selector
  | .interrupts => "i"

end Operand

namespace Instruction

/-- The immediate as it is written. -/
def immediateOperand (i : Instruction) : Operand :=
  .immediate i.immediate.toInt

/-- Whether a move shifts its operand by a written amount. A left shift by zero is a plain
move. -/
def shiftsByAmount (i : Instruction) : Bool :=
  i.rm.isSome && (i.shiftAmount ≠ 0 || i.shift ≠ .lsl)

/-- The second operand of an operation: a register if there is one, else the immediate. -/
def secondOperand (i : Instruction) : Operand :=
  if i.rm.isSome then .register i.rm else i.immediateOperand

/-- The mnemonic with its suffixes. Shifting moves are written as shifts. -/
def mnemonic (i : Instruction) : String :=
  let flagSuffix := if i.setFlags then "s" else ""
  match i.opcode with
  | .udf => ".inst"
  | .mov =>
    (if i.rs.isSome || i.shiftsByAmount then i.shift.mnemonic else "mov") ++ flagSuffix
  | .add | .sub | .and | .orr | .eor => i.opcode.mnemonic ++ flagSuffix
  | .b => "b" ++ i.condition.suffix
  | .ldr | .str =>
    let width := match i.width with
      | .byte => "b"
      | .halfword => "h"
      | .word => ""
    i.opcode.mnemonic ++ (if i.signed then "s" else "") ++ width
  | .msr =>
    if i.rn.isSome then "msr" else if i.immediate = 0 then "cpsie" else "cpsid"
  | opcode => opcode.mnemonic

/-- The operands of a move. -/
def moveOperands (i : Instruction) : List Operand :=
  let source := [.register i.rd, .register i.rm]
  if i.rm.isNone then [.register i.rd, i.immediateOperand]
  else if i.rs.isSome then source ++ [.register i.rs]
  else if i.shiftsByAmount then source ++ [.immediate i.shiftAmount]
  else source

/-- The operands in the order in which they are written, for an instruction at `pc`. A first
operand that is also the destination is written once. -/
def operands (i : Instruction) (pc : Word) : List Operand :=
  match i.opcode with
  | .udf => [.data (if i.length = 4 then 8 else 4) i.raw]
  | .nop | .wfi => []
  | .svc => [i.immediateOperand]
  | .b | .bl => [.target (i.branchTarget pc)]
  | .bx | .blx => [.register i.rm]
  | .mov => i.moveOperands
  | .cmp | .tst => [.register i.rn, i.secondOperand]
  | .add | .sub | .and | .orr | .eor =>
    if i.rn = i.rd ∨ i.rn = none then [.register i.rd, i.secondOperand]
    else [.register i.rd, .register i.rn, i.secondOperand]
  | .ldr | .str => [.register i.rd, .memory i.rn i.rm i.immediate.toInt]
  | .ldm | .stm => [.base i.rn i.writeback, .registers i.registers]
  | .push | .pop => [.registers i.registers]
  | .mrs => [.register i.rd, .special i.selector]
  | .msr =>
    if i.rn.isSome then [.special i.selector, .register i.rn] else [.interrupts]

/-- The text of the operands. -/
def operandText (i : Instruction) (pc : Word) : String :=
  ", ".intercalate ((i.operands pc).map Operand.text)

end Instruction

/-- A line of a listing. -/
structure Row where
  address : Word
  length : Nat
  raw : Word
  mnemonic : String
  operands : String
  /-- Whether the word encodes no instruction. -/
  isData : Bool
  deriving DecidableEq, Repr

namespace Row

/-- The mnemonic, and the operands if there are any. -/
def statement (row : Row) : String :=
  if row.operands.isEmpty then row.mnemonic else row.mnemonic ++ " " ++ row.operands

/-- The encoding by halfwords, the first one first, with the place of a missing second
halfword left blank. -/
def encoding (row : Row) : String :=
  if row.length = 4 then
    Hex.digits 4 (Word.field row.raw 0 16) ++ " " ++ Hex.digits 4 (Word.field row.raw 16 16)
  else Hex.digits 4 row.raw.toNat ++ "     "

/-- The line as it is printed. -/
def line (row : Row) : String :=
  Hex.digits 8 row.address.toNat ++ ":  " ++ row.encoding ++ "  " ++ row.statement

end Row

namespace Instruction

/-- The line of an instruction at `pc`. -/
def row (i : Instruction) (pc : Word) : Row where
  address := pc
  length := i.length
  raw := i.raw
  mnemonic := i.mnemonic
  operands := i.operandText pc
  isData := i.opcode = .udf

/-- The text of an instruction at `pc`. -/
def text (i : Instruction) (pc : Word) : String :=
  (i.row pc).statement

end Instruction

end ThumbSoc
