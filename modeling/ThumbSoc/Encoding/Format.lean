import ThumbSoc.Word

/-!
# Encoding formats

The high bits of a halfword fix the format in which its other bits are read, and likewise for
a pair of halfwords. A format table lists patterns in order, and the first pattern that
matches decides. A halfword that matches no narrow pattern begins a wide encoding.
-/

namespace ThumbSoc

/-- A set of words: those that agree with `value` on the bits of `mask`. -/
structure Pattern where
  mask : Word
  value : Word
  deriving DecidableEq, Repr

/-- Whether `w` is in the set. -/
def Pattern.matches (p : Pattern) (w : Word) : Bool :=
  w &&& p.mask == p.value

/-- The formats of a single halfword. -/
inductive NarrowFormat where
  | shiftImmediate
  | addSubtract
  | moveCompareImmediate
  | dataProcessing
  | highRegisterOrExchange
  | loadLiteral
  | registerOffset
  | wordOffset
  | byteOffset
  | halfwordOffset
  | stackOffset
  | addressGeneration
  | miscellaneous
  | multiple
  | conditionalBranchOrCall
  | branch
  deriving DecidableEq, Repr

/-- The formats of a pair of halfwords. -/
inductive WideFormat where
  | branchWithLink
  | barrier
  | moveToSpecial
  | moveFromSpecial
  | modifiedImmediate
  | wordOffset
  deriving DecidableEq, Repr

/-- The format of the first entry of a table whose pattern matches. -/
def Pattern.lookup {α : Type} (table : List (Pattern × α)) (w : Word) : Option α :=
  (table.find? fun entry => entry.1.matches w).map (·.2)

namespace NarrowFormat

/-- The patterns of the narrow formats. The second one contains the first. -/
def table : List (Pattern × NarrowFormat) :=
  [(⟨0xF800, 0x1800⟩, addSubtract),
   (⟨0xE000, 0x0000⟩, shiftImmediate),
   (⟨0xE000, 0x2000⟩, moveCompareImmediate),
   (⟨0xFC00, 0x4000⟩, dataProcessing),
   (⟨0xFC00, 0x4400⟩, highRegisterOrExchange),
   (⟨0xF800, 0x4800⟩, loadLiteral),
   (⟨0xF000, 0x5000⟩, registerOffset),
   (⟨0xF000, 0x6000⟩, wordOffset),
   (⟨0xF000, 0x7000⟩, byteOffset),
   (⟨0xF000, 0x8000⟩, halfwordOffset),
   (⟨0xF000, 0x9000⟩, stackOffset),
   (⟨0xF000, 0xA000⟩, addressGeneration),
   (⟨0xF000, 0xB000⟩, miscellaneous),
   (⟨0xF000, 0xC000⟩, multiple),
   (⟨0xF000, 0xD000⟩, conditionalBranchOrCall),
   (⟨0xF800, 0xE000⟩, branch)]

/-- The format of a halfword; none for the first half of a wide encoding. -/
def of? (halfword : Word) : Option NarrowFormat :=
  Pattern.lookup table halfword

end NarrowFormat

namespace WideFormat

/-- The patterns of the wide formats, over words that hold the second halfword in the high
bits. -/
def table : List (Pattern × WideFormat) :=
  [(⟨0xD000F800, 0xD000F000⟩, branchWithLink),
   (⟨0xFF00FFFF, 0x8F00F3BF⟩, barrier),
   (⟨0xFF00FFF0, 0x8800F380⟩, moveToSpecial),
   (⟨0xF000FFFF, 0x8000F3EF⟩, moveFromSpecial),
   (⟨0x8000FA00, 0x0000F000⟩, modifiedImmediate),
   (⟨0x0000FFE0, 0x0000F8C0⟩, wordOffset)]

/-- The format of a pair of halfwords, if it has one. -/
def of? (word : Word) : Option WideFormat :=
  Pattern.lookup table word

/-- Whether a halfword is the first half of a wide encoding. -/
def startsWith (halfword : Word) : Bool :=
  halfword &&& 0xE000 == 0xE000 && halfword &&& 0x1800 != 0

/-- The word of a wide encoding with the given halves. -/
def join (first second : Word) : Word :=
  (second <<< 16) ||| first

end WideFormat

end ThumbSoc
