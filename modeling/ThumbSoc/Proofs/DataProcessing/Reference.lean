import ThumbSoc.Core.Thumb
import ThumbSoc.Word.Shift

/-!
# Data processing from the bits

A second account of the instructions that compute, which goes from the bits of an encoding
straight to the core afterwards. Results are those of bit vectors and integers: a carry is a
comparison, an overflow is an integer that is out of range, and a shift by some amount is that
many shifts by one place.
-/

namespace ThumbSoc.Reference

open Word (field bit)

/-! ### Instructions -/

/-- The number of the stack pointer. -/
def stackPointer : Fin 16 := 13

/-- The number of the program counter. -/
def programCounter : Fin 16 := 15

/-- What is computed. All but a move have a first operand, which is a register. -/
inductive Operation where
  | add (first : Fin 16)
  | subtract (first : Fin 16)
  | and (first : Fin 16)
  | or (first : Fin 16)
  | xor (first : Fin 16)
  | move
  deriving DecidableEq, Repr

/-- The second operand. -/
inductive Operand where
  | number (n : Nat)
  /-- A modified immediate, by its twelve bits. -/
  | modified (bits : Fin 4096)
  | register (m : Fin 16)
  | shifted (shift : Shift) (m : Fin 16) (amount : Nat)
  /-- A register shifted by the low byte of another one. -/
  | shiftedBy (shift : Shift) (m amount : Fin 16)
  deriving DecidableEq, Repr

/-- A data-processing instruction. Without a destination it only compares. -/
structure DataProcessing where
  operation : Operation
  destination : Option (Fin 16)
  operand : Operand
  setsFlags : Bool
  deriving DecidableEq, Repr

/-! ### Encodings -/

section Encodings

variable (w : Word)

/-- The register that three bits name. -/
def low (lsb : Nat) : Fin 16 :=
  ⟨field w lsb 3, Nat.lt_trans (Word.field_lt w lsb 3) (by decide)⟩

/-- The register that four bits name. -/
def any (lsb : Nat) : Fin 16 :=
  ⟨field w lsb 4, Word.field_lt w lsb 4⟩

/-- The register that the low three bits name together with bit 7. -/
def high : Fin 16 :=
  ⟨8 * field w 7 1 + field w 0 3, by
    have htop := Word.field_lt w 7 1
    have hrest := Word.field_lt w 0 3
    change _ < 2 at htop
    change _ < 8 at hrest
    omega⟩

/-- The twelve bits of a modified immediate. -/
def immediateBits : Fin 4096 :=
  ⟨0x800 * field w 10 1 + 0x100 * field w 28 3 + field w 16 8, by
    have htop := Word.field_lt w 10 1
    have hmiddle := Word.field_lt w 28 3
    have hrest := Word.field_lt w 16 8
    change _ < 2 at htop
    change _ < 8 at hmiddle
    change _ < 256 at hrest
    omega⟩

/-- The amount of a right shift, where zero stands for 32. -/
def rightAmount : Nat :=
  if field w 6 5 = 0 then 32 else field w 6 5

/-- Two low registers. -/
def twoRegisters? : Option DataProcessing :=
  let first := low w 0
  let second := low w 3
  match field w 6 4 with
  | 0b0000 => some ⟨.and first, some first, .register second, true⟩
  | 0b0001 => some ⟨.xor first, some first, .register second, true⟩
  | 0b0010 => some ⟨.move, some first, .shiftedBy .lsl first second, true⟩
  | 0b0011 => some ⟨.move, some first, .shiftedBy .lsr first second, true⟩
  | 0b0100 => some ⟨.move, some first, .shiftedBy .asr first second, true⟩
  | 0b0111 => some ⟨.move, some first, .shiftedBy .ror first second, true⟩
  | 0b1000 => some ⟨.and first, none, .register second, true⟩
  | 0b1010 => some ⟨.subtract first, none, .register second, true⟩
  | 0b1100 => some ⟨.or first, some first, .register second, true⟩
  | _ => none

/-- Any two registers. -/
def anyRegisters? : Option DataProcessing :=
  match field w 8 2 with
  | 0b00 => some ⟨.add (high w), some (high w), .register (any w 3), false⟩
  | 0b01 => some ⟨.subtract (high w), none, .register (any w 3), true⟩
  | 0b10 => some ⟨.move, some (high w), .register (any w 3), false⟩
  | _ => none

/-- The instruction that a halfword encodes. -/
def narrow? : Option DataProcessing :=
  match field w 11 5 with
  | 0b00000 => some ⟨.move, some (low w 0), .shifted .lsl (low w 3) (field w 6 5), true⟩
  | 0b00001 => some ⟨.move, some (low w 0), .shifted .lsr (low w 3) (rightAmount w), true⟩
  | 0b00010 => some ⟨.move, some (low w 0), .shifted .asr (low w 3) (rightAmount w), true⟩
  | 0b00011 =>
    let operation := if bit w 9 then Operation.subtract else .add
    let operand := if bit w 10 then Operand.number (field w 6 3) else .register (low w 6)
    some ⟨operation (low w 3), some (low w 0), operand, true⟩
  | 0b00100 => some ⟨.move, some (low w 8), .number (field w 0 8), true⟩
  | 0b00101 => some ⟨.subtract (low w 8), none, .number (field w 0 8), true⟩
  | 0b00110 => some ⟨.add (low w 8), some (low w 8), .number (field w 0 8), true⟩
  | 0b00111 => some ⟨.subtract (low w 8), some (low w 8), .number (field w 0 8), true⟩
  | 0b01000 => if bit w 10 then anyRegisters? w else twoRegisters? w
  | 0b10100 => some ⟨.add 15, some (low w 8), .number (4 * field w 0 8), false⟩
  | 0b10101 => some ⟨.add 13, some (low w 8), .number (4 * field w 0 8), false⟩
  | 0b10110 =>
    let operation := if bit w 7 then Operation.subtract else .add
    if field w 8 3 = 0 then some ⟨operation 13, some 13, .number (4 * field w 0 7), false⟩
    else none
  | _ => none

/-- The instruction that two halfwords encode, the first one in the low bits. With the program
counter as destination, an instruction that sets the flags only compares. -/
def wide? : Option DataProcessing :=
  let first := any w 0
  let destination := any w 24
  let setsFlags := bit w 4
  let operand := Operand.modified (immediateBits w)
  let compares := destination = 15 ∧ setsFlags = true
  if field w 11 5 = 0b11110 ∧ bit w 9 = false ∧ bit w 31 = false then
    match field w 5 4 with
    | 0b0000 =>
      some ⟨.and first, if compares then none else some destination, operand, setsFlags⟩
    | 0b0010 =>
      some ⟨if first = 15 then .move else .or first, some destination, operand, setsFlags⟩
    | 0b0100 =>
      if compares then none else some ⟨.xor first, some destination, operand, setsFlags⟩
    | 0b1000 =>
      if compares then none else some ⟨.add first, some destination, operand, setsFlags⟩
    | 0b1101 =>
      some ⟨.subtract first, if compares then none else some destination, operand, setsFlags⟩
    | _ => none
  else none

end Encodings

/-- The data-processing instruction that a word encodes in `length` bytes, if it is one. -/
def decode? (w : Word) (length : Nat) : Option DataProcessing :=
  match length with
  | 2 => if w ≤ 0xFFFF then narrow? w else none
  | 4 => wide? w
  | _ => none

/-! ### Values -/

/-- One shift by one place, with the bit that falls out. -/
def shiftOnce (x : BitVec 32) : Shift → BitVec 32 × Bool
  | .lsl => (x <<< 1, x.msb)
  | .lsr => (x >>> 1, x.getLsbD 0)
  | .asr => (x.sshiftRight 1, x.getLsbD 0)
  | .ror => (x.rotateRight 1, x.getLsbD 0)

/-- Shifts by one place, with the bit that falls out last; the incoming carry if none does. -/
def shiftBy (shift : Shift) (x : BitVec 32) (carry : Bool) : Nat → BitVec 32 × Bool
  | 0 => (x, carry)
  | amount + 1 => shiftOnce (shiftBy shift x carry amount).1 shift

/-- The value of a modified immediate: a byte in one of four patterns, or a byte with its top
bit set that is rotated to the right. -/
def modifiedValue (bits : Nat) : BitVec 32 :=
  let byte := BitVec.ofNat 32 (bits % 256)
  match bits / 256 with
  | 0 => byte
  | 1 => 0x00010001 * byte
  | 2 => 0x01000100 * byte
  | 3 => 0x01010101 * byte
  | _ => (BitVec.ofNat 32 (128 + bits % 128)).rotateRight (bits / 128)

section Values

variable (core : ThumbCore) (pc : Word)

/-- The value of a register for the instruction at `pc`. -/
def valueOf (n : Fin 16) : Word :=
  if h : n.val < 13 then core.general[n.val]
  else if n = 13 then core.sp
  else if n = 14 then core.lr
  else pc + 4

/-- The value of the first operand. Next to an immediate the program counter is rounded down to
a multiple of four. -/
def firstOf (n : Fin 16) : Operand → Word
  | .number _ | .modified _ => if n = 15 then (pc + 4) / 4 * 4 else valueOf core pc n
  | _ => valueOf core pc n

/-- The value of the second operand, with the carry that it leaves. -/
def secondOf (carry : Bool) : Operand → BitVec 32 × Bool
  | .number n => (BitVec.ofNat 32 n, carry)
  | .modified bits =>
    (modifiedValue bits, if bits.val < 1024 then carry else (modifiedValue bits).msb)
  | .register m => ((valueOf core pc m).toBitVec, carry)
  | .shifted shift m amount => shiftBy shift (valueOf core pc m).toBitVec carry amount
  | .shiftedBy shift m amount =>
    shiftBy shift (valueOf core pc m).toBitVec carry ((valueOf core pc amount).toNat % 256)

/-- A result with the carry and, of an addition or subtraction, the overflow. -/
structure Outcome where
  value : BitVec 32
  carry : Bool
  overflow : Option Bool

/-- Whether a number is out of the range of signed words. -/
def outOfRange (n : Int) : Bool :=
  n < -0x80000000 ∨ 0x7FFFFFFF < n

/-- The result of an operation. -/
def outcome (second : BitVec 32) (carry : Bool) (operand : Operand) : Operation → Outcome
  | .add n =>
    let first := (firstOf core pc n operand).toBitVec
    ⟨first + second, 0x100000000 ≤ first.toNat + second.toNat,
      some (outOfRange (first.toInt + second.toInt))⟩
  | .subtract n =>
    let first := (firstOf core pc n operand).toBitVec
    ⟨first - second, second.toNat ≤ first.toNat, some (outOfRange (first.toInt - second.toInt))⟩
  | .and n => ⟨(firstOf core pc n operand).toBitVec &&& second, carry, none⟩
  | .or n => ⟨(firstOf core pc n operand).toBitVec ||| second, carry, none⟩
  | .xor n => ⟨(firstOf core pc n operand).toBitVec ^^^ second, carry, none⟩
  | .move => ⟨second, carry, none⟩

end Values

/-! ### The core afterwards -/

/-- A status register with the four flags in its top bits. -/
def withFlags (psr : BitVec 32) (n z c v : Bool) : BitVec 32 :=
  BitVec.ofBool n ++ (BitVec.ofBool z ++ (BitVec.ofBool c ++
    (BitVec.ofBool v ++ psr.extractLsb' 0 28)))

/-- The core with a value in a register. The program counter loses its lowest bit. -/
def put (core : ThumbCore) (n : Fin 16) (value : Word) : ThumbCore :=
  if h : n.val < 13 then { core with general := core.general.set n value h }
  else if n = 13 then { core with sp := value }
  else if n = 14 then { core with lr := value }
  else { core with pc := value / 2 * 2 }

namespace DataProcessing

variable (d : DataProcessing) (core : ThumbCore) (pc : Word)

/-- The result of the instruction at `pc`. -/
def result : Outcome :=
  let (second, carry) := secondOf core pc (core.psr.toBitVec.getLsbD 29) d.operand
  outcome core pc second carry d.operand d.operation

/-- The status register afterwards. An instruction whose result cannot overflow leaves the
overflow flag as it is. -/
def status : Word :=
  let psr := core.psr.toBitVec
  let result := d.result core pc
  if d.setsFlags then
    ⟨withFlags psr result.value.msb (result.value == 0) result.carry
      (result.overflow.getD (psr.getLsbD 28))⟩
  else core.psr

/-- The core after the instruction of the given length at `pc`. -/
def after (length : Nat) : ThumbCore :=
  let next := { core with psr := d.status core pc, pc := pc + UInt32.ofNat length }
  match d.destination with
  | none => next
  | some n => put next n ⟨(d.result core pc).value⟩

end DataProcessing

end ThumbSoc.Reference
