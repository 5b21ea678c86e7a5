import Mathlib.Tactic.IntervalCases
import ThumbSoc.Encoding.Immediate
import ThumbSoc.Proofs.DataProcessing.Reference
import ThumbSoc.Proofs.Word
import ThumbSoc.Word.Sum

/-!
# Values of data processing

The barrel shifter, the expansion of immediates and the adder give the values of the reference.
A shift by some amount is that many shifts by one place, copies of a byte are a multiple of it,
and a subtraction that adds the complement carries when nothing is borrowed.
-/

namespace ThumbSoc

/-! ### Shifts of words -/

namespace Word

theorem negative_eq (w : Word) :
  negative w = w.toBitVec.msb
  := by
  have hw := w.toNat_lt
  rw [negative, BitVec.msb_eq_decide]
  apply Bool.eq_iff_iff.mpr
  rw [beq_iff_eq, ← UInt32.toNat_inj, UInt32.toNat_shiftRight, decide_eq_true_iff,
    Nat.shiftRight_eq_div_pow]
  change w.toNat / 0x80000000 = 1 ↔ 0x80000000 ≤ w.toNat
  omega

variable {n : Nat}

/-- A shift looks at the amount modulo 32. -/
theorem toNat_amount (h : n < 32) :
  ((UInt32.ofNat n).toBitVec % 32).toNat = n
  := by
  rw [BitVec.toNat_umod]
  change n % Nat.pow 2 32 % 32 = n
  rw [Nat.mod_eq_of_lt (Nat.lt_trans h (by decide)), Nat.mod_eq_of_lt h]

theorem toBitVec_shiftLeft (w : Word) (h : n < 32) :
  (w <<< UInt32.ofNat n).toBitVec = w.toBitVec <<< n
  := by rw [UInt32.toBitVec_shiftLeft, BitVec.shiftLeft_eq', toNat_amount h]

theorem toBitVec_shiftRight (w : Word) (h : n < 32) :
  (w >>> UInt32.ofNat n).toBitVec = w.toBitVec >>> n
  := by rw [UInt32.toBitVec_shiftRight, BitVec.ushiftRight_eq', toNat_amount h]

theorem toBitVec_signedShiftRight (w : Word) (h : n < 32) :
  (w.toInt32 >>> Int32.ofNat n).toUInt32.toBitVec = w.toBitVec.sshiftRight n
  := by
  have hamount : ∀ n < 32, ((Int32.ofNat n).toBitVec.smod 32).toNat = n := by decide
  rw [Int32.toBitVec_toUInt32, Int32.toBitVec_shiftRight, UInt32.toBitVec_toInt32,
    BitVec.sshiftRight', hamount n h]

theorem toBitVec_rotateRight (w : Word) (amount : Nat) :
  (rotateRight w amount).toBitVec = w.toBitVec.rotateRight amount
  := by
  have hlt : amount % 32 < 32 := Nat.mod_lt _ (by decide)
  rw [rotateRight, BitVec.rotateRight_def, UInt32.toBitVec_or, toBitVec_shiftRight _ hlt]
  rcases Nat.eq_zero_or_pos (amount % 32) with hzero | hpos
  -- Without rotation the other half of the result is the word itself once more.
  · have hleft : (w <<< (32 - UInt32.ofNat 0)).toBitVec = w.toBitVec := by
      have hnone : (32 - UInt32.ofNat 0).toBitVec % 32 = 0 := by decide
      rw [UInt32.toBitVec_shiftLeft, hnone]
      apply BitVec.shiftLeft_zero
    rw [hzero, BitVec.shiftLeft_eq_zero (Nat.le_refl 32), BitVec.or_zero, BitVec.ushiftRight_zero,
      hleft, BitVec.or_self]
  · have hleft : 32 - UInt32.ofNat (amount % 32) = UInt32.ofNat (32 - amount % 32) := by
      rw [UInt32.ofNat_sub (Nat.le_of_lt hlt)]
      rfl
    rw [hleft, toBitVec_shiftLeft _ (by omega)]

end Word

namespace Reference

/-! ### Shifts by one place -/

variable (x : BitVec 32) (carry : Bool) (amount : Nat)

/-- A shift by all its places together. -/
def shifted : Shift → BitVec 32
  | .lsl => x <<< amount
  | .lsr => x >>> amount
  | .asr => x.sshiftRight amount
  | .ror => x.rotateRight amount

theorem rotateRight_succ :
  x.rotateRight (amount + 1) = (x.rotateRight amount).rotateRight 1
  := by
  have hlt : amount % 32 < 32 := Nat.mod_lt _ (by decide)
  have hsucc : (amount + 1) % 32 = if amount % 32 = 31 then 0 else amount % 32 + 1 := by
    split <;> omega
  have hone : 1 % 32 = 1 := rfl
  apply BitVec.eq_of_getElem_eq
  intro i hi
  simp only [BitVec.getElem_rotateRight, hone]
  -- Whether a bit wraps around, in either of the steps or in one go.
  split
  all_goals
    split
    all_goals
      split
      all_goals
        congr 1
        split at hsucc <;> omega

theorem rotateRight_zero :
  x.rotateRight 0 = x
  := by
  rw [BitVec.rotateRight_def, BitVec.shiftLeft_eq_zero (Nat.le_refl 32), BitVec.or_zero]
  apply BitVec.ushiftRight_zero

theorem value_shiftBy (shift : Shift) :
  (shiftBy shift x carry amount).1 = shifted x amount shift
  := by
  induction amount with
  | zero =>
    cases shift with
    | lsl => exact (BitVec.shiftLeft_zero x).symm
    | lsr => exact (BitVec.ushiftRight_zero x).symm
    | asr => exact BitVec.sshiftRight_zero.symm
    | ror => exact (rotateRight_zero x).symm
  | succ amount ih =>
    rw [shiftBy, ih]
    cases shift with
    | lsl => exact (BitVec.shiftLeft_add x amount 1).symm
    | lsr => exact (BitVec.shiftRight_add x amount 1).symm
    | asr => exact BitVec.sshiftRight_add.symm
    | ror => exact (rotateRight_succ x amount).symm

theorem shiftBy_succ (shift : Shift) :
  shiftBy shift x carry (amount + 1)
    = (shifted x (amount + 1) shift, (shiftOnce (shifted x amount shift) shift).2)
  := by
  rw [← value_shiftBy x carry, ← value_shiftBy x carry]
  rfl

variable {x amount}

/-- A signed shift by the whole width leaves copies of the sign. -/
theorem sshiftRight_of_le (h : 32 ≤ amount) :
  x.sshiftRight amount = if x.msb then BitVec.allOnes 32 else 0
  := by
  apply BitVec.eq_of_getElem_eq
  intro i hi
  rw [BitVec.getElem_sshiftRight, dif_neg (by omega)]
  cases x.msb with
  | false => exact (BitVec.getElem_zero hi).symm
  | true => exact (BitVec.getElem_allOnes i hi).symm

theorem getLsbD_sshiftRight_zero (x : BitVec 32) (amount : Nat) :
  (x.sshiftRight amount).getLsbD 0 = if amount < 31 then x.getLsbD amount else x.msb
  := by
  rw [BitVec.getLsbD_sshiftRight]
  change (if amount < 32 then x.getLsbD amount else x.msb) = _
  rcases Nat.lt_trichotomy amount 31 with h | rfl | h
  · rw [if_pos h, if_pos (by omega)]
  · rfl
  · rw [if_neg (by omega), if_neg (by omega)]

end Reference

/-! ### The barrel shifter -/

namespace Shift

variable (value : Word) (amount : Nat)

theorem applyNonzero_lsl :
  applyNonzero value (amount + 1) .lsl
    = (⟨value.toBitVec <<< (amount + 1)⟩, (value.toBitVec <<< amount).msb)
  := by
  rw [applyNonzero, BitVec.msb_shiftLeft, BitVec.getMsbD_eq_getLsbD, Nat.sub_sub, Nat.add_comm 1]
  rcases Nat.lt_trichotomy amount 31 with h | rfl | h
  · rw [if_pos (by omega), decide_eq_true (by omega), Bool.true_and,
      ← Word.toBitVec_shiftLeft value (by omega)]
    rfl
  · rw [BitVec.shiftLeft_eq_zero (Nat.le_refl 32)]
    rfl
  · have hcarry : (amount + 1 == 32) = false := beq_eq_false_iff_ne.mpr (by omega)
    rw [if_neg (by omega), decide_eq_false (by omega), hcarry,
      BitVec.shiftLeft_eq_zero (by omega)]
    rfl

theorem applyNonzero_lsr :
  applyNonzero value (amount + 1) .lsr
    = (⟨value.toBitVec >>> (amount + 1)⟩, (value.toBitVec >>> amount).getLsbD 0)
  := by
  have hlast : (value.toBitVec >>> amount).getLsbD 0 = value.toBitVec.getLsbD amount := by
    rw [BitVec.getLsbD_ushiftRight, Nat.add_zero]
  rw [applyNonzero, hlast]
  rcases Nat.lt_trichotomy amount 31 with h | rfl | h
  · rw [if_pos (by omega), ← Word.toBitVec_shiftRight value (by omega)]
    rfl
  · rw [BitVec.ushiftRight_eq_zero (Nat.le_refl 32)]
    rfl
  · have hcarry : (amount + 1 == 32) = false := beq_eq_false_iff_ne.mpr (by omega)
    rw [if_neg (by omega), hcarry, BitVec.ushiftRight_eq_zero (by omega),
      BitVec.getLsbD_of_ge _ _ h]
    rfl

theorem applyNonzero_asr :
  applyNonzero value (amount + 1) .asr
    = (⟨value.toBitVec.sshiftRight (amount + 1)⟩, (value.toBitVec.sshiftRight amount).getLsbD 0)
  := by
  rw [applyNonzero, Word.negative_eq, Reference.getLsbD_sshiftRight_zero]
  rcases Nat.lt_or_ge amount 31 with h | h
  · rw [if_pos (by omega), if_pos h, ← Word.toBitVec_signedShiftRight value (by omega)]
    rfl
  · have hwidth : ¬ amount + 1 < 32 := by omega
    have hlast : ¬ amount < 31 := by omega
    rw [if_neg hwidth, if_neg hlast, Reference.sshiftRight_of_le (by omega)]
    cases value.toBitVec.msb <;> rfl

theorem applyNonzero_ror :
  applyNonzero value (amount + 1) .ror
    = (⟨value.toBitVec.rotateRight (amount + 1)⟩, (value.toBitVec.rotateRight amount).getLsbD 0)
  := by
  have hcarry : (value.toBitVec.rotateRight (amount + 1)).msb
      = (value.toBitVec.rotateRight amount).getLsbD 0 := by
    rw [Reference.rotateRight_succ, BitVec.msb_rotateRight]
    rfl
  rw [applyNonzero, Word.negative_eq, Word.toBitVec_rotateRight, hcarry,
    ← Word.toBitVec_rotateRight value (amount + 1)]

/-- The shifter shifts by one place after the other. -/
theorem apply_eq (shift : Shift) (carry : Bool) :
  shift.apply value amount carry
    = (⟨(Reference.shiftBy shift value.toBitVec carry amount).1⟩,
      (Reference.shiftBy shift value.toBitVec carry amount).2)
  := by
  cases amount with
  | zero => rfl
  | succ amount =>
    rw [apply, if_neg (Nat.succ_ne_zero amount), Reference.shiftBy_succ]
    cases shift with
    | lsl => apply applyNonzero_lsl
    | lsr => apply applyNonzero_lsr
    | asr => apply applyNonzero_asr
    | ror => apply applyNonzero_ror

end Shift

/-! ### Modified immediates -/

namespace Immediate

variable (bits : Fin 4096)

theorem isRotated_eq :
  isRotated bits = decide (1024 ≤ bits.val)
  := by
  rw [isRotated, decide_eq_decide]
  omega

theorem rotation_eq_zero_iff :
  rotation bits = 0 ↔ bits.val < 1024
  := by
  rw [rotation, isRotated_eq]
  simp only [decide_eq_true_iff]
  split <;> omega

/-- Copies of a byte together are a multiple of it. -/
theorem copies :
  ∀ n < 256,
    UInt32.ofNat n ||| (UInt32.ofNat n <<< 16) = ⟨0x00010001 * BitVec.ofNat 32 n⟩
      ∧ (UInt32.ofNat n <<< 8) ||| (UInt32.ofNat n <<< 24) = ⟨0x01000100 * BitVec.ofNat 32 n⟩
      ∧ UInt32.ofNat n ||| (UInt32.ofNat n <<< 8) ||| (UInt32.ofNat n <<< 16)
          ||| (UInt32.ofNat n <<< 24)
        = ⟨0x01010101 * BitVec.ofNat 32 n⟩
  := by decide +kernel

theorem expand_eq :
  expand bits = ⟨Reference.modifiedValue bits⟩
  := by
  have hbits := bits.isLt
  rw [expand, rotation, isRotated_eq, Reference.modifiedValue]
  rcases Nat.lt_or_ge bits.val 1024 with h | h
  · obtain ⟨htwo, htwo', hfour⟩ := copies (bits.val % 256) (Nat.mod_lt _ (by decide))
    have hpattern : bits.val / 256 % 4 = bits.val / 256 := by omega
    have hlt : bits.val / 256 < 4 := by omega
    rw [decide_eq_false (Nat.not_le_of_lt h), if_neg Bool.false_ne_true, hpattern]
    generalize bits.val / 256 = pattern at *
    interval_cases pattern
    · rfl
    · exact htwo
    · exact htwo'
    · exact hfour
  · have hrotation : bits.val / 128 % 32 = bits.val / 128 := by omega
    have hpattern : 4 ≤ bits.val / 256 := by omega
    rw [decide_eq_true h, if_pos rfl, if_pos rfl, hrotation]
    apply UInt32.eq_of_toBitVec_eq
    rw [Word.toBitVec_rotateRight]
    split <;> first | omega | rfl

end Immediate

/-! ### Sums -/

section Sums

open Reference (outOfRange)

variable (a b : Word)

/-- A number is changed by reducing it to the range of signed words if it is out of it. -/
theorem bmod_ne_iff (n : Int) :
  n.bmod 0x100000000 ≠ n ↔ outOfRange n = true
  := by
  rw [outOfRange, decide_eq_true_iff, Int.bmod_def]
  split <;> omega

theorem toInt_not (x : BitVec 32) :
  (~~~x).toInt = -x.toInt - 1
  := by
  have hx := x.isLt
  rw [BitVec.toInt_not, BitVec.toInt_eq_toNat_bmod, Int.bmod_def, Int.bmod_def]
  omega

theorem addWithCarry_eq :
  addWithCarry a b false
    = ⟨a + b, 0x100000000 ≤ a.toNat + b.toNat, outOfRange (a.toBitVec.toInt + b.toBitVec.toInt)⟩
  := by
  have hvalue : a + b + UInt32.ofNat false.toNat = a + b := UInt32.add_zero _
  have hoverflow : decide ((a + b).toInt32.toInt ≠ a.toInt32.toInt + b.toInt32.toInt + false.toNat)
      = outOfRange (a.toBitVec.toInt + b.toBitVec.toInt) := by
    apply Bool.eq_iff_iff.mpr
    rw [decide_eq_true_iff, ← bmod_ne_iff]
    change (a.toBitVec + b.toBitVec).toInt ≠ a.toBitVec.toInt + b.toBitVec.toInt + 0 ↔ _
    rw [BitVec.toInt_add, Int.add_zero]
  rw [addWithCarry, hvalue, hoverflow]
  rfl

theorem subtract_eq :
  subtract a b
    = ⟨a - b, b.toNat ≤ a.toNat, outOfRange (a.toBitVec.toInt - b.toBitVec.toInt)⟩
  := by
  have hvalue : a + ~~~b + UInt32.ofNat true.toNat = a - b := by
    rw [UInt32.not_eq_neg_sub, UInt32.sub_eq_add_neg a b, UInt32.add_assoc]
    congr 1
    apply UInt32.sub_add_cancel
  have hcarry : decide (UInt32.size ≤ a.toNat + (~~~b).toNat + true.toNat)
      = decide (b.toNat ≤ a.toNat) := by
    have hb := b.toNat_lt
    rw [UInt32.toNat_not, decide_eq_decide]
    change 0x100000000 ≤ a.toNat + (0x100000000 - 1 - b.toNat) + 1 ↔ _
    omega
  have hsum : a.toBitVec.toInt + (~~~b.toBitVec).toInt + 1
      = a.toBitVec.toInt - b.toBitVec.toInt := by
    rw [toInt_not]
    omega
  have hoverflow :
      decide ((a - b).toInt32.toInt ≠ a.toInt32.toInt + (~~~b).toInt32.toInt + true.toNat)
        = outOfRange (a.toBitVec.toInt - b.toBitVec.toInt) := by
    apply Bool.eq_iff_iff.mpr
    rw [decide_eq_true_iff, ← bmod_ne_iff]
    change (a.toBitVec - b.toBitVec).toInt ≠ a.toBitVec.toInt + (~~~b.toBitVec).toInt + 1 ↔ _
    rw [BitVec.toInt_sub, hsum]
  rw [subtract, addWithCarry, hvalue, hcarry, hoverflow]

end Sums

end ThumbSoc
