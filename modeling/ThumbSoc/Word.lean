/-!
# Machine words

A word is a 32-bit pattern. This module holds the views of a word that the rest of the
library uses: its bit fields as natural numbers, its single bits, the signed number its low
bits stand for, and rounding down to an alignment.
-/

namespace ThumbSoc

/-- A 32-bit machine word. Arithmetic on words wraps. -/
abbrev Word := UInt32

namespace Word

/-- The number held by the `width` bits of `w` from bit `lsb` upwards. -/
def field (w : Word) (lsb width : Nat) : Nat :=
  w.toNat >>> lsb % Nat.pow 2 width

/-- Bit `i` of `w`. -/
def bit (w : Word) (i : Nat) : Bool :=
  w.toNat.testBit i

/-- The sign of `w` as a two's complement number. -/
def negative (w : Word) : Bool :=
  w >>> 31 == 1

/-- The low `bits` bits of `w` read as a two's complement number: the number congruent to `w`
modulo `2 ^ bits` that lies in `[-2 ^ (bits - 1), 2 ^ (bits - 1))`. -/
def signExtend (w : Word) (bits : Nat) : Int32 :=
  Int32.ofInt (Int.bmod w.toNat (Nat.pow 2 bits))

/-- Rounds `w` down to a multiple of `alignment`, a power of two. -/
def align (w alignment : Word) : Word :=
  w &&& ~~~(alignment - 1)

/-- `w` with bit 0 cleared: the form in which code addresses are held. -/
def even (w : Word) : Word :=
  w &&& ~~~1

/-- `w` rotated right by `amount` bits. -/
def rotateRight (w : Word) (amount : Nat) : Word :=
  let r := UInt32.ofNat (amount % 32)
  (w >>> r) ||| (w <<< (32 - r))

theorem field_lt (w : Word) (lsb width : Nat) :
  field w lsb width < Nat.pow 2 width
  := Nat.mod_lt _ (Nat.two_pow_pos width)

end Word

/-- The width of a single transfer. -/
inductive Width where
  | byte
  | halfword
  | word
  deriving DecidableEq, Repr

namespace Width

/-- Number of bytes moved by a transfer. -/
def bytes : Width → Nat
  | byte => 1
  | halfword => 2
  | word => 4

/-- The name of the width in messages. -/
def name : Width → String
  | byte => "byte"
  | halfword => "halfword"
  | word => "word"

/-- The low bytes of `value` that a transfer of this width carries. -/
def truncate (value : Word) : Width → Word
  | byte => value &&& 0xFF
  | halfword => value &&& 0xFFFF
  | word => value

/-- A loaded `value` of this width as a signed number, extended to a whole word. -/
def signExtend (width : Width) (value : Word) : Word :=
  (Word.signExtend value (8 * width.bytes)).toUInt32

end Width

end ThumbSoc
