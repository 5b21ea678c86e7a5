import ThumbSoc.Proofs.Bus.ByteMemory
import ThumbSoc.Proofs.DataProcessing.Reference

/-!
# Single loads and stores from the bits

A second account of the instructions that load or store one register, which goes from the bits
of an encoding to what is transferred: which register, which bytes, and whether a loaded number is
extended with zeros or with its sign. Memory is looked at byte by byte.
-/

namespace ThumbSoc.Reference

open Word (field bit)

/-! ### Transfers -/

/-- Which way a register is transferred, and whether a loaded number keeps its sign. -/
inductive Direction where
  | load (signed : Bool)
  | store
  deriving DecidableEq, Repr

/-- Where a register is loaded from or stored to. -/
inductive Place where
  /-- At a fixed distance above a base, which may be the program counter. -/
  | above (base : Fin 16) (distance : Nat)
  /-- At the sum of two low registers. -/
  | indexed (base index : Fin 8)
  deriving DecidableEq, Repr

/-- The load or store of one register. -/
structure SingleTransfer where
  direction : Direction
  width : Width
  register : Fin 16
  place : Place
  deriving DecidableEq, Repr

namespace SingleTransfer

/-! ### Encodings -/

section Encodings

variable (w : Word)

/-- The low register that three bits name. -/
def index (lsb : Nat) : Fin 8 :=
  ⟨field w lsb 3, Word.field_lt w lsb 3⟩

/-- The sum of two low registers; three bits give direction and width. -/
def sumOfRegisters : SingleTransfer :=
  let transfer (direction : Direction) (width : Width) : SingleTransfer :=
    ⟨direction, width, low w 0, .indexed (index w 3) (index w 6)⟩
  match field w 9 3 with
  | 0b000 => transfer .store .word
  | 0b001 => transfer .store .halfword
  | 0b010 => transfer .store .byte
  | 0b011 => transfer (.load true) .byte
  | 0b100 => transfer (.load false) .word
  | 0b101 => transfer (.load false) .halfword
  | 0b110 => transfer (.load false) .byte
  | _ => transfer (.load true) .halfword

/-- A distance of five bits, counted in transfers of the width. -/
def scaled (direction : Direction) (width : Width) : SingleTransfer :=
  ⟨direction, width, low w 0, .above (low w 3) (field w 6 5 * width.bytes)⟩

/-- A distance of eight bits, counted in words. -/
def wordsAbove (direction : Direction) (base : Fin 16) : SingleTransfer :=
  ⟨direction, .word, low w 8, .above base (4 * field w 0 8)⟩

/-- The load or store that a halfword encodes. -/
def narrow? : Option SingleTransfer :=
  match field w 11 5 with
  | 0b01001 => some (wordsAbove w (.load false) programCounter)
  | 0b01010 | 0b01011 => some (sumOfRegisters w)
  | 0b01100 => some (scaled w .store .word)
  | 0b01101 => some (scaled w (.load false) .word)
  | 0b01110 => some (scaled w .store .byte)
  | 0b01111 => some (scaled w (.load false) .byte)
  | 0b10000 => some (scaled w .store .halfword)
  | 0b10001 => some (scaled w (.load false) .halfword)
  | 0b10010 => some (wordsAbove w .store stackPointer)
  | 0b10011 => some (wordsAbove w (.load false) stackPointer)
  | _ => none

/-- The load or store that two halfwords encode, the first one in the low bits: of a word, at a
distance of twelve bits that counts bytes. No store is relative to the program counter. -/
def wide? : Option SingleTransfer :=
  let transfer (direction : Direction) : SingleTransfer :=
    ⟨direction, .word, any w 28, .above (any w 0) (field w 16 12)⟩
  if field w 5 11 = 0b11111000110 then
    if bit w 4 then some (transfer (.load false))
    else if any w 0 = programCounter then none
    else some (transfer .store)
  else none

end Encodings

/-- The load or store that a word encodes in `length` bytes, if it is one. -/
def decode? (w : Word) (length : Nat) : Option SingleTransfer :=
  match length with
  | 2 => if w ≤ 0xFFFF then narrow? w else none
  | 4 => wide? w
  | _ => none

/-! ### What is transferred -/

section Values

variable (t : SingleTransfer) (core : ThumbCore) (pc : Word)

/-- The address of the transfer for the instruction at `pc`. As a base the program counter is
rounded down to a multiple of four. -/
def address : Word :=
  match t.place with
  | .above base distance =>
    (if base = programCounter then (pc + 4) / 4 * 4 else valueOf core pc base)
      + UInt32.ofNat distance
  | .indexed base index => core.general[base.val] + core.general[index.val]

/-- The value that is loaded where memory has the given bytes: the number that they spell, the
least significant byte first, extended with zeros or with its sign. -/
def loaded (signed : Bool) (byte : Nat → UInt8) : Word :=
  let number := BitVec.ofNat (8 * t.width.bytes)
    (littleEndian byte (t.address core pc).toNat t.width.bytes)
  ⟨if signed then number.signExtend 32 else number.setWidth 32⟩

/-- The byte at an address of memory after a store: the low bytes of the register go to the
addresses of the transfer. -/
def stored (byte : Nat → UInt8) (a : Nat) : UInt8 :=
  let start := (t.address core pc).toNat
  if start ≤ a ∧ a < start + t.width.bytes then
    (valueOf core pc t.register).byteAt (a - start)
  else byte a

end Values

end SingleTransfer

end ThumbSoc.Reference
