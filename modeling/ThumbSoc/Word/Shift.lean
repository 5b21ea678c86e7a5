import ThumbSoc.Word

/-!
# The barrel shifter

A shift of a word by any amount, with the last bit shifted out as carry. An amount of zero
leaves the word alone and passes the incoming carry through.
-/

namespace ThumbSoc

/-- The operations of the barrel shifter. -/
inductive Shift where
  | lsl
  | lsr
  | asr
  | ror
  deriving DecidableEq, Repr

namespace Shift

/-- The operation that a two-bit field selects. -/
def ofBits (bits : Nat) : Shift :=
  match bits % 4 with
  | 0 => lsl
  | 1 => lsr
  | 2 => asr
  | _ => ror

/-- The assembler mnemonic. -/
def mnemonic : Shift → String
  | lsl => "lsl"
  | lsr => "lsr"
  | asr => "asr"
  | ror => "ror"

/-- The result of a nonzero shift and the last bit shifted out; for a rotation that bit is
the one that arrives at the top. -/
def applyNonzero (value : Word) (amount : Nat) : Shift → Word × Bool
  | lsl =>
    if amount < 32 then (value <<< UInt32.ofNat amount, Word.bit value (32 - amount))
    else (0, amount == 32 && Word.bit value 0)
  | lsr =>
    if amount < 32 then (value >>> UInt32.ofNat amount, Word.bit value (amount - 1))
    else (0, amount == 32 && Word.bit value 31)
  | asr =>
    if amount < 32 then
      ((value.toInt32 >>> Int32.ofNat amount).toUInt32, Word.bit value (amount - 1))
    else if Word.negative value then (0xFFFFFFFF, true)
    else (0, false)
  | ror =>
    let result := Word.rotateRight value amount
    (result, Word.negative result)

/-- Shifts `value` by `amount`. The second component is the shifter carry. -/
def apply (shift : Shift) (value : Word) (amount : Nat) (carryIn : Bool) : Word × Bool :=
  if amount = 0 then (value, carryIn)
  else shift.applyNonzero value amount

@[simp]
theorem apply_zero (shift : Shift) (value : Word) (carryIn : Bool) :
  shift.apply value 0 carryIn = (value, carryIn)
  := rfl

end Shift

end ThumbSoc
