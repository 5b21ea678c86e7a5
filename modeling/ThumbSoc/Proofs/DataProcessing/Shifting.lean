import Mathlib.Logic.Function.Iterate
import ThumbSoc.Proofs.DataProcessing.Values

/-!
# Shifts place by place

The barrel shifter moves a word by any number of places at once. It does what as many shifts by
one place do, where each leaves the bit that it shifts out as the carry. So nothing breaks off
at the width of a word, and a shift by a sum of amounts is one shift after another.
-/

namespace ThumbSoc.Shift

/-- A shift by one place of a word that is held with a carry. The bit that is shifted out becomes
the carry; in a rotation it is the bit that arrives at the top. -/
def once (shift : Shift) (held : Word × Bool) : Word × Bool :=
  let value := held.1
  match shift with
  | lsl => (value <<< 1, Word.bit value 31)
  | lsr => (value >>> 1, Word.bit value 0)
  | asr => ((value.toInt32 >>> 1).toUInt32, Word.bit value 0)
  | ror =>
    let rotated := (value >>> 1) ||| (value <<< 31)
    (rotated, Word.bit rotated 31)

variable (shift : Shift) (value : Word) (carry : Bool) (amount : Nat)

/-- A rotation by one place brings the lowest bit in at the top. -/
theorem bit_rotated :
  Word.bit ((value >>> 1) ||| (value <<< 31)) 31 = Word.bit value 0
  := by
  have htop : (value.toBitVec.rotateRight 1).msb = value.toBitVec.getLsbD 0 := by
    rw [BitVec.msb_rotateRight]
    rfl
  have hrotated : (value.toBitVec.rotateRight 1)
      = ((value >>> 1) ||| (value <<< 31)).toBitVec := (Word.toBitVec_rotateRight value 1).symm
  rw [hrotated, BitVec.msb_eq_getLsbD_last] at htop
  exact htop

/-- One place of the shifter is one place of the reference. -/
theorem once_eq :
  shift.once (value, carry)
    = (⟨(Reference.shiftOnce value.toBitVec shift).1⟩,
      (Reference.shiftOnce value.toBitVec shift).2)
  := by
  cases shift with
  | lsl =>
    have hvalue : (value <<< 1).toBitVec = value.toBitVec <<< 1 :=
      Word.toBitVec_shiftLeft value (by decide)
    have hcarry : Word.bit value 31 = value.toBitVec.msb :=
      (BitVec.msb_eq_getLsbD_last value.toBitVec).symm
    rw [once, hcarry, Reference.shiftOnce, ← hvalue]
  | lsr =>
    have hvalue : (value >>> 1).toBitVec = value.toBitVec >>> 1 :=
      Word.toBitVec_shiftRight value (by decide)
    rw [once, Reference.shiftOnce, ← hvalue]
    rfl
  | asr =>
    have hvalue : (value.toInt32 >>> 1).toUInt32.toBitVec = value.toBitVec.sshiftRight 1 :=
      Word.toBitVec_signedShiftRight value (by decide)
    rw [once, Reference.shiftOnce, ← hvalue]
    rfl
  | ror =>
    have hvalue : ((value >>> 1) ||| (value <<< 31)).toBitVec = value.toBitVec.rotateRight 1 :=
      Word.toBitVec_rotateRight value 1
    rw [once, bit_rotated, Reference.shiftOnce, ← hvalue]
    rfl

/-- A shift by one more place shifts the result by one place, at whatever amount. -/
theorem apply_succ :
  shift.apply value (amount + 1) carry = shift.once (shift.apply value amount carry)
  := by
  rw [apply_eq, apply_eq, once_eq, Reference.shiftBy]

theorem apply_iterate :
  shift.apply value amount carry = shift.once^[amount] (value, carry)
  := by
  induction amount with
  | zero => rw [apply_zero, Function.iterate_zero_apply]
  | succ amount ih => rw [apply_succ, ih, Function.iterate_succ_apply']

/-- **A shift is as many shifts by one place.** This holds for every shift and every amount, below
the width of a word, at it and above it: the result and the carry are those of that many single
shifts, which start from the value and the incoming carry. So a shift by a sum shifts, by the
rest of the amount, what a shift by a part of it has left. -/
theorem apply_eq_places :
  shift.apply value amount carry = shift.once^[amount] (value, carry)
    ∧ ∀ rest,
      shift.apply value (amount + rest) carry
        = shift.apply (shift.apply value amount carry).1 rest (shift.apply value amount carry).2
  := by
  constructor
  · apply apply_iterate
  · intro rest
    rw [apply_iterate, Nat.add_comm, Function.iterate_add_apply, ← apply_iterate, ← apply_iterate]

/-- Rotations by the width of a word and by one place more. -/
example : ror.apply 0x80000001 32 false = (0x80000001, true)
    ∧ ror.apply 0x80000001 33 false = ror.once (0x80000001, true) := by
  decide

end ThumbSoc.Shift
