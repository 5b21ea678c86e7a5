import ThumbSoc.Encoding.Format
import ThumbSoc.Encoding.Immediate
import ThumbSoc.Instruction

/-!
# Wide encodings

How the bits of a pair of halfwords are read, format by format. The word holds the first
halfword in its low bits.
-/

namespace ThumbSoc.Wide

open Word (field bit signExtend)

/-- The instruction of a four-byte encoding with neutral operands. -/
private def wide (opcode : Opcode) (w : Word) : Instruction :=
  .plain opcode w 4

/-- The displacement of a branch with link. Of its 25 bits the highest is the sign, and the
next two are stored as their equality with the sign. -/
def linkDisplacement (w : Word) : Int32 :=
  let sign := field w 10 1
  let i1 := if field w 29 1 = sign then 1 else 0
  let i2 := if field w 27 1 = sign then 1 else 0
  let offset := 0x1000000 * sign + 0x800000 * i1 + 0x400000 * i2
    + 0x1000 * field w 0 10 + 2 * field w 16 11
  signExtend (UInt32.ofNat offset) 25

/-- Branch with link. -/
def branchWithLink (w : Word) : Instruction :=
  { wide .bl w with immediate := linkDisplacement w }

/-- The memory barriers, which have no effect on a core that completes each transfer before
the next. -/
def barrier (w : Word) : Option Instruction :=
  match field w 20 4 with
  | 4 | 5 | 6 => some (wide .nop w)
  | _ => none

/-- A move from a register to a special register. -/
def moveToSpecial (w : Word) : Instruction :=
  { wide .msr w with rn := some (field w 0 4), selector := field w 16 8 }

/-- A move from a special register to a register. -/
def moveFromSpecial (w : Word) : Instruction :=
  { wide .mrs w with rd := some (field w 24 4), selector := field w 16 8 }

/-- The twelve bits of a modified immediate, which are spread over both halfwords. -/
def immediateField (w : Word) : Nat :=
  0x800 * field w 10 1 + 0x100 * field w 28 3 + field w 16 8

/-- Data processing with a modified immediate. A flag-setting operation whose destination is
the program counter only compares. -/
def modifiedImmediate (w : Word) : Option Instruction :=
  let rn := field w 0 4
  let rd := field w 24 4
  let setFlags := bit w 4
  let compares := rd == 15 && setFlags
  let operation (opcode : Opcode) : Instruction :=
    { wide opcode w with
      immediate := (Immediate.expand (immediateField w)).toInt32
      shift := .ror
      shiftAmount := Immediate.rotation (immediateField w)
      setFlags }
  let binary (opcode : Opcode) : Instruction :=
    { operation opcode with rd := some rd, rn := some rn }
  let test (opcode : Opcode) : Instruction :=
    { operation opcode with rn := some rn }
  match field w 5 4 with
  | 0x0 => some (if compares then test .tst else binary .and)
  | 0x2 => some (if rn = 15 then { operation .mov with rd := some rd } else binary .orr)
  | 0x4 => if compares then none else some (binary .eor)
  | 0x8 => if compares then none else some (binary .add)
  | 0xD => some (if compares then test .cmp else binary .sub)
  | _ => none

/-- Word loads and stores with a twelve-bit offset. A store cannot be relative to the program
counter. -/
def wordOffset (w : Word) : Option Instruction :=
  let rn := field w 0 4
  if !bit w 4 && rn == 15 then none
  else some { wide (if bit w 4 then .ldr else .str) w with
    rd := some (field w 28 4)
    rn := some rn
    immediate := Int32.ofNat (field w 16 12) }

/-- Reads a word in the given format. -/
def read (format : WideFormat) (w : Word) : Option Instruction :=
  match format with
  | .branchWithLink => some (branchWithLink w)
  | .barrier => barrier w
  | .moveToSpecial => some (moveToSpecial w)
  | .moveFromSpecial => some (moveFromSpecial w)
  | .modifiedImmediate => modifiedImmediate w
  | .wordOffset => wordOffset w

/-- The instruction that a pair of halfwords encodes. -/
def decode (w : Word) : Option Instruction := do
  read (← WideFormat.of? w) w

end ThumbSoc.Wide
