import ThumbSoc.Condition
import ThumbSoc.Register
import ThumbSoc.Word
import ThumbSoc.Word.Shift

/-!
# Instructions

An instruction is an operation with its operand fields. Which fields an operation looks at is
laid down by execution and by the listing; a field that an encoding does not have holds its
neutral value.
-/

namespace ThumbSoc

/-- The operations. -/
inductive Opcode where
  | add
  | sub
  | mov
  | ldr
  | str
  | b
  | bl
  | and
  | orr
  | eor
  | ldm
  | stm
  | cmp
  | tst
  | bx
  | blx
  | mrs
  | msr
  | push
  | pop
  | nop
  | wfi
  | svc
  /-- Stands for a word that encodes no operation. -/
  | udf
  deriving DecidableEq, Repr

/-- The assembler mnemonic without suffixes. -/
def Opcode.mnemonic : Opcode → String
  | add => "add"
  | sub => "sub"
  | mov => "mov"
  | ldr => "ldr"
  | str => "str"
  | b => "b"
  | bl => "bl"
  | and => "and"
  | orr => "orr"
  | eor => "eor"
  | ldm => "ldm"
  | stm => "stm"
  | cmp => "cmp"
  | tst => "tst"
  | bx => "bx"
  | blx => "blx"
  | mrs => "mrs"
  | msr => "msr"
  | push => "push"
  | pop => "pop"
  | nop => "nop"
  | wfi => "wfi"
  | svc => "svc"
  | udf => "udf"

/-- An operation with its operand fields. Registers are given by number. -/
structure Instruction where
  opcode : Opcode
  /-- The encoding; of two halfwords, the second is in the high bits. -/
  raw : Word
  /-- The length of the encoding in bytes. -/
  length : Nat
  condition : Condition
  /-- Destination, or the register that a load or store transfers. -/
  rd : Option Nat
  /-- The register that holds a shift amount. -/
  rs : Option Nat
  /-- Second operand. -/
  rm : Option Nat
  /-- First operand or base address. -/
  rn : Option Nat
  /-- Immediate operand, offset or branch displacement. -/
  immediate : Int32
  setFlags : Bool
  /-- The amount by which the second operand is shifted. For an immediate operand, the
  rotation that produced it. -/
  shiftAmount : Nat
  shift : Shift
  /-- Width of a load or store. -/
  width : Width
  /-- Whether a load extends the sign. -/
  signed : Bool
  /-- The registers that a multiple transfer moves. -/
  registers : RegisterList
  /-- Selector of a special register. -/
  selector : Nat
  /-- Whether a multiple transfer updates its base register. -/
  writeback : Bool
  deriving DecidableEq, Repr

namespace Instruction

/-- The instruction of the given operation and encoding with all operand fields neutral. -/
def plain (opcode : Opcode) (raw : Word) (length : Nat) : Instruction where
  opcode := opcode
  raw := raw
  length := length
  condition := .al
  rd := none
  rs := none
  rm := none
  rn := none
  immediate := 0
  setFlags := false
  shiftAmount := 0
  shift := .lsl
  width := .word
  signed := false
  registers := .empty
  selector := 0
  writeback := false

/-- Whether execution depends on the condition flags. -/
def isConditional (i : Instruction) : Bool :=
  !i.condition.isAlways

/-- The immediate as an unsigned word. -/
def immediateWord (i : Instruction) : Word :=
  i.immediate.toUInt32

/-- The target of a branch at `pc`: displacements count from the address of the instruction
plus four. -/
def branchTarget (i : Instruction) (pc : Word) : Word :=
  pc + 4 + i.immediateWord

/-- The address of the instruction that follows this one at `pc`. -/
def next (i : Instruction) (pc : Word) : Word :=
  pc + UInt32.ofNat i.length

end Instruction

end ThumbSoc
