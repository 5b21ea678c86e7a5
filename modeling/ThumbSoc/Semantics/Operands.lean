import ThumbSoc.Core.Special
import ThumbSoc.Instruction

/-!
# Operands

The values that an instruction at an address finds in its operand fields. As an operand the
program counter reads as the address of the instruction plus four; as the base of an
immediate offset it is rounded down to a word as well.
-/

namespace ThumbSoc

/-- The value of a register, given by number, as an operand of the instruction at `pc`. -/
def ThumbCore.operand (core : ThumbCore) (pc : Word) (number : Nat) : Word :=
  if number = 15 then pc + 4 else core.read (Register.ofNumber number)

/-- The value of a register that may be missing, or a default. -/
def ThumbCore.operandOr (core : ThumbCore) (pc : Word) (number : Option Nat) (default : Word) :
    Word :=
  match number with
  | some n => core.operand pc n
  | none => default

namespace Instruction

variable (i : Instruction) (core : ThumbCore) (pc : Word)

/-- The first operand, zero if there is none. -/
def firstValue : Word :=
  match i.rn with
  | none => 0
  | some n =>
    if n = 15 ∧ i.rm = none then Word.align (pc + 4) 4 else core.operand pc n

/-- The second operand after shifting, with the shifter carry. An immediate that was rotated
carries out its top bit. -/
def secondValue : Word × Bool :=
  let carryIn := core.flag Psr.c
  match i.rm with
  | some n =>
    let amount := match i.rs with
      | some s => (core.operand pc s).toNat % 256
      | none => i.shiftAmount
    i.shift.apply (core.operand pc n) amount carryIn
  | none =>
    (i.immediateWord, if i.shiftAmount = 0 then carryIn else Word.negative i.immediateWord)

/-- The address of a load or store: the base plus a register or the immediate. -/
def address : Word :=
  let offset := match i.rm with
    | some n => core.operand pc n
    | none => i.immediateWord
  i.firstValue core pc + offset

end Instruction

end ThumbSoc
