import ThumbSoc.Word

/-!
# Working memory

A memory is an array of bytes; a word of it is stored with its least significant byte first.
Reads and writes of spans that do not fit are refused as a whole.
-/

namespace ThumbSoc

/-- A memory of fixed size. -/
structure Sram where
  bytes : Array UInt8
  deriving DecidableEq

namespace Sram

/-- A memory of `size` zero bytes. -/
def zeroed (size : Nat) : Sram :=
  ⟨Array.replicate size 0⟩

/-- The size in bytes. -/
def size (memory : Sram) : Nat :=
  memory.bytes.size

/-- Whether `length` bytes at `offset` lie in the memory. -/
def fits (memory : Sram) (offset length : Nat) : Bool :=
  offset + length ≤ memory.size

/-- The byte at `offset`, and zero beyond the end. -/
def byte (memory : Sram) (offset : Nat) : UInt8 :=
  memory.bytes.getD offset 0

/-- Replaces the byte at `offset`, if there is one. -/
def setByte (memory : Sram) (offset : Nat) (value : UInt8) : Sram :=
  ⟨memory.bytes.setIfInBounds offset value⟩

/-- The number whose `length` little-endian bytes start at `offset`. -/
def value (memory : Sram) (offset : Nat) : Nat → Word
  | 0 => 0
  | length + 1 =>
    (memory.byte offset).toUInt32 ||| (memory.value (offset + 1) length <<< 8)

/-- Stores the low `length` bytes of `value` from `offset` on, the least significant one
first. -/
def setValue (memory : Sram) (offset : Nat) (value : Word) : Nat → Sram
  | 0 => memory
  | length + 1 =>
    (memory.setByte offset value.toUInt8).setValue (offset + 1) (value >>> 8) length

/-- Stores a list of bytes from `offset` on. -/
def setBytes (memory : Sram) (offset : Nat) : List UInt8 → Sram
  | [] => memory
  | b :: rest => (memory.setByte offset b).setBytes (offset + 1) rest

/-- The bytes of a span, if it fits. -/
def readBytes? (memory : Sram) (offset length : Nat) : Option (List UInt8) :=
  if memory.fits offset length then
    some ((List.range length).map fun i => memory.byte (offset + i))
  else none

/-- The memory with a list of bytes stored from `offset` on, if they fit. -/
def load? (memory : Sram) (offset : Nat) (data : List UInt8) : Option Sram :=
  if memory.fits offset data.length then some (memory.setBytes offset data) else none

/-- The memory with the low `length` bytes of `value` stored at `offset`, if they fit. -/
def store? (memory : Sram) (offset : Nat) (value : Word) (length : Nat) : Option Sram :=
  if memory.fits offset length then some (memory.setValue offset value length) else none

/-! ### Sizes -/

@[simp]
theorem size_zeroed (n : Nat) :
  (zeroed n).size = n
  := by simp [zeroed, size]

@[simp]
theorem size_setByte (memory : Sram) (offset : Nat) (value : UInt8) :
  (memory.setByte offset value).size = memory.size
  := by simp [setByte, size]

@[simp]
theorem size_setValue (memory : Sram) (offset : Nat) (value : Word) (length : Nat) :
  (memory.setValue offset value length).size = memory.size
  := by
  induction length generalizing memory offset value with
  | zero => rfl
  | succ n ih => simp [setValue, ih]

@[simp]
theorem size_setBytes (memory : Sram) (offset : Nat) (data : List UInt8) :
  (memory.setBytes offset data).size = memory.size
  := by
  induction data generalizing memory offset with
  | nil => rfl
  | cons b rest ih => simp [setBytes, ih]

end Sram

end ThumbSoc
