import ThumbSoc.Encoding.Format
import ThumbSoc.Instruction

/-!
# Narrow encodings

How the bits of a single halfword are read, format by format. A format yields no instruction
where the operation it selects is outside the supported subset.
-/

namespace ThumbSoc.Narrow

open Word (field bit signExtend)

/-- The instruction of a two-byte encoding with neutral operands. -/
private def narrow (opcode : Opcode) (w : Word) : Instruction :=
  .plain opcode w 2

/-- A nonnegative immediate. -/
private def unsigned (n : Nat) : Int32 :=
  Int32.ofNat n

/-- A load if bit 11 is set, else a store. -/
private def loadOrStore (w : Word) : Opcode :=
  if bit w 11 then .ldr else .str

/-- Shifts of a low register by a five-bit amount, where zero means 32 except for a left
shift. -/
def shiftImmediate (w : Word) : Instruction :=
  let shift := Shift.ofBits (field w 11 2)
  let amount := field w 6 5
  { narrow .mov w with
    rd := some (field w 0 3)
    rm := some (field w 3 3)
    shift := shift
    shiftAmount := if amount = 0 ∧ shift ≠ .lsl then 32 else amount
    setFlags := true }

/-- Addition and subtraction of a low register or a three-bit number. -/
def addSubtract (w : Word) : Instruction :=
  { narrow (if bit w 9 then .sub else .add) w with
    rd := some (field w 0 3)
    rn := some (field w 3 3)
    rm := if bit w 10 then none else some (field w 6 3)
    immediate := if bit w 10 then unsigned (field w 6 3) else 0
    setFlags := true }

/-- Move, compare, add and subtract with an eight-bit number. -/
def moveCompareImmediate (w : Word) : Instruction :=
  let register := some (field w 8 3)
  let operation (opcode : Opcode) : Instruction :=
    { narrow opcode w with immediate := unsigned (field w 0 8), setFlags := true }
  match field w 11 2 with
  | 0 => { operation .mov with rd := register }
  | 1 => { operation .cmp with rn := register }
  | 2 => { operation .add with rd := register, rn := register }
  | _ => { operation .sub with rd := register, rn := register }

/-- The two-operand operations on low registers. -/
def dataProcessing (w : Word) : Option Instruction :=
  let first := some (field w 0 3)
  let second := some (field w 3 3)
  let combine (opcode : Opcode) : Instruction :=
    { narrow opcode w with rd := first, rn := first, rm := second, setFlags := true }
  let compare (opcode : Opcode) : Instruction :=
    { narrow opcode w with rn := first, rm := second, setFlags := true }
  let shiftBy (shift : Shift) : Instruction :=
    { narrow .mov w with rd := first, rm := first, rs := second, shift, setFlags := true }
  match field w 6 4 with
  | 0x0 => some (combine .and)
  | 0x1 => some (combine .eor)
  | 0x2 => some (shiftBy .lsl)
  | 0x3 => some (shiftBy .lsr)
  | 0x4 => some (shiftBy .asr)
  | 0x7 => some (shiftBy .ror)
  | 0x8 => some (compare .tst)
  | 0xA => some (compare .cmp)
  | 0xC => some (combine .orr)
  | _ => none

/-- Operations on any two registers, and branches to a register. -/
def highRegisterOrExchange (w : Word) : Option Instruction :=
  let first := some (8 * field w 7 1 + field w 0 3)
  let second := some (field w 3 4)
  match field w 8 2 with
  | 0 => some { narrow .add w with rd := first, rn := first, rm := second }
  | 1 => some { narrow .cmp w with rn := first, rm := second, setFlags := true }
  | 2 => some { narrow .mov w with rd := first, rm := second }
  | _ =>
    if field w 0 3 ≠ 0 then none
    else some { narrow (if bit w 7 then .blx else .bx) w with rm := second }

/-- A load from an address relative to the program counter. -/
def loadLiteral (w : Word) : Instruction :=
  { narrow .ldr w with
    rd := some (field w 8 3)
    rn := some 15
    immediate := unsigned (4 * field w 0 8) }

/-- Loads and stores whose offset is a register. -/
def registerOffset (w : Word) : Instruction :=
  let transfer (opcode : Opcode) (width : Width) (signed : Bool) : Instruction :=
    { narrow opcode w with
      rd := some (field w 0 3)
      rn := some (field w 3 3)
      rm := some (field w 6 3)
      width
      signed }
  match field w 9 3 with
  | 0 => transfer .str .word false
  | 1 => transfer .str .halfword false
  | 2 => transfer .str .byte false
  | 3 => transfer .ldr .byte true
  | 4 => transfer .ldr .word false
  | 5 => transfer .ldr .halfword false
  | 6 => transfer .ldr .byte false
  | _ => transfer .ldr .halfword true

/-- Loads and stores whose offset is a five-bit multiple of the width. -/
def scaledOffset (width : Width) (w : Word) : Instruction :=
  { narrow (loadOrStore w) w with
    rd := some (field w 0 3)
    rn := some (field w 3 3)
    immediate := unsigned (field w 6 5 * width.bytes)
    width }

/-- Loads and stores at an offset from the stack pointer. -/
def stackOffset (w : Word) : Instruction :=
  { narrow (loadOrStore w) w with
    rd := some (field w 8 3)
    rn := some 13
    immediate := unsigned (4 * field w 0 8) }

/-- The address at an offset from the stack pointer or the program counter. -/
def addressGeneration (w : Word) : Instruction :=
  { narrow .add w with
    rd := some (field w 8 3)
    rn := some (if bit w 11 then 13 else 15)
    immediate := unsigned (4 * field w 0 8) }

/-- The adjustment of the stack pointer by a seven-bit number of words. -/
def adjustStack (w : Word) : Instruction :=
  { narrow (if bit w 7 then .sub else .add) w with
    rd := some 13
    rn := some 13
    immediate := unsigned (4 * field w 0 7) }

/-- Pushes and pops of low registers, and with bit 8 of the link register or into the program
counter. -/
def pushPop (w : Word) : Option Instruction :=
  let isPop := bit w 11
  let extra := if bit w 8 then (if isPop then 0x8000 else 0x4000) else 0
  let list := field w 0 8 + extra
  if list = 0 then none
  else some { narrow (if isPop then .pop else .push) w with
    rn := some 13
    registers := ⟨UInt16.ofNat list⟩ }

/-- The hints: those that wait and those that do nothing. -/
def hint (w : Word) : Option Instruction :=
  match field w 4 4 with
  | 0 | 1 | 4 => some (narrow .nop w)
  | 2 | 3 => some (narrow .wfi w)
  | _ => none

/-- The group of stack adjustment, push and pop, masking of interrupts, and hints. -/
def miscellaneous (w : Word) : Option Instruction :=
  if w &&& 0xFF00 == 0xB000 then some (adjustStack w)
  else if w &&& 0xF600 == 0xB400 then pushPop w
  else if w &&& 0xFFEF == 0xB662 then
    some { narrow .msr w with selector := 16, immediate := unsigned (field w 4 1) }
  else if w &&& 0xFF0F == 0xBF00 then hint w
  else none

/-- Loads and stores of several low registers. A load keeps the loaded value of a listed
base. -/
def multiple (w : Word) : Option Instruction :=
  let base := field w 8 3
  let list := field w 0 8
  if list = 0 then none
  else some { narrow (if bit w 11 then .ldm else .stm) w with
    rn := some base
    registers := ⟨UInt16.ofNat list⟩
    writeback := !bit w 11 || !list.testBit base }

/-- Conditional branches, and the supervisor call in the place of the last condition. -/
def conditionalBranchOrCall (w : Word) : Option Instruction :=
  match field w 8 4 with
  | 14 => none
  | 15 => some { narrow .svc w with immediate := unsigned (field w 0 8) }
  | condition => some { narrow .b w with
      condition := .ofBits condition
      immediate := signExtend (UInt32.ofNat (2 * field w 0 8)) 9 }

/-- The unconditional branch. -/
def branch (w : Word) : Instruction :=
  { narrow .b w with immediate := signExtend (UInt32.ofNat (2 * field w 0 11)) 12 }

/-- Reads a halfword in the given format. -/
def read (format : NarrowFormat) (w : Word) : Option Instruction :=
  match format with
  | .shiftImmediate => some (shiftImmediate w)
  | .addSubtract => some (addSubtract w)
  | .moveCompareImmediate => some (moveCompareImmediate w)
  | .dataProcessing => dataProcessing w
  | .highRegisterOrExchange => highRegisterOrExchange w
  | .loadLiteral => some (loadLiteral w)
  | .registerOffset => some (registerOffset w)
  | .wordOffset => some (scaledOffset .word w)
  | .byteOffset => some (scaledOffset .byte w)
  | .halfwordOffset => some (scaledOffset .halfword w)
  | .stackOffset => some (stackOffset w)
  | .addressGeneration => some (addressGeneration w)
  | .miscellaneous => miscellaneous w
  | .multiple => multiple w
  | .conditionalBranchOrCall => conditionalBranchOrCall w
  | .branch => some (branch w)

/-- The instruction that a halfword encodes. -/
def decode (w : Word) : Option Instruction := do
  read (← NarrowFormat.of? w) w

end ThumbSoc.Narrow
