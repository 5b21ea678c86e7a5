import Mathlib.Data.Nat.Bitwise
import ThumbSoc.Word

/-!
# Masked words

Masks of low bits in terms of numbers: clearing the low bits of a word rounds it down. Bits
that are clear in some words stay clear in the words that are made from them. A mask cuts a word
into two parts, whose sum it is.
-/

namespace ThumbSoc

/-- What is decided of the elements of a list one by one. Words are finitely many, and so a
statement about those in a list could also be decided by going through all words. -/
theorem forall_mem_of_all {α : Type} {list : List α} {P : α → Prop} [DecidablePred P]
    (h : list.all (fun a => decide (P a)) = true) :
  ∀ a ∈ list, P a
  := by
  intro a ha
  apply of_decide_eq_true
  apply List.all_eq_true.mp h a ha

namespace Word

/-- Clearing the low `k` bits of a word rounds it down to a multiple of `2 ^ k`. -/
theorem toNat_and_not {w mask : Word} {k : Nat} (hmask : mask.toNat = Nat.pow 2 k - 1) :
  (w &&& ~~~mask).toNat = w.toNat - w.toNat % Nat.pow 2 k
  := by
  have hw : w.toNat < Nat.pow 2 32 := w.toNat_lt
  have hround : w.toNat - w.toNat % Nat.pow 2 k = w.toNat >>> k <<< k := by
    rw [Nat.shiftRight_eq_div_pow, Nat.shiftLeft_eq]
    have hdiv := Nat.div_add_mod w.toNat (Nat.pow 2 k)
    rw [Nat.mul_comm] at hdiv
    change w.toNat - w.toNat % Nat.pow 2 k = w.toNat / Nat.pow 2 k * Nat.pow 2 k
    omega
  have hnot : UInt32.size - 1 - mask.toNat = 2 ^ 32 - (mask.toNat + 1) := by
    change UInt32.size - 1 - mask.toNat = UInt32.size - (mask.toNat + 1)
    omega
  have hlow : Nat.pow 2 k - 1 = 2 ^ k - 1 := rfl
  rw [hround, UInt32.toNat_and, UInt32.toNat_not, hnot]
  apply Nat.eq_of_testBit_eq
  intro i
  rw [Nat.testBit_and, Nat.testBit_shiftLeft, Nat.testBit_shiftRight,
    Nat.testBit_two_pow_sub_succ mask.toNat_lt, hmask, hlow, Nat.testBit_two_pow_sub_one]
  rcases Nat.lt_or_ge i k with hk | hk
  · simp [hk, Nat.not_le_of_lt hk]
  · rw [Nat.add_sub_of_le hk]
    rcases Nat.lt_or_ge i 32 with hi | hi
    · simp [hi, hk, Nat.not_lt_of_le hk]
    · have hout : w.toNat.testBit i = false :=
        Nat.testBit_lt_two_pow (Nat.lt_of_lt_of_le hw (Nat.pow_le_pow_right (by decide) hi))
      simp [hout]

theorem toNat_even (w : Word) :
  (even w).toNat = w.toNat - w.toNat % 2
  := toNat_and_not (k := 1) rfl

theorem even_even (w : Word) :
  (even w).toNat % 2 = 0
  := by
  rw [toNat_even]
  omega

theorem even_eq_self {w : Word} (h : w.toNat % 2 = 0) :
  even w = w
  := by
  apply UInt32.toNat_inj.mp
  rw [toNat_even, h, Nat.sub_zero]

theorem add_even {w v : Word} (h : w.toNat % 2 = 0) (h' : v.toNat % 2 = 0) :
  (w + v).toNat % 2 = 0
  := by
  have hsum : (w + v).toNat = (w.toNat + v.toNat) % 4294967296 := UInt32.toNat_add w v
  omega

theorem even_eq (w : Word) :
  even w = w / 2 * 2
  := by
  have hw := w.toNat_lt
  apply UInt32.toNat_inj.mp
  rw [toNat_even, UInt32.toNat_mul, UInt32.toNat_div]
  change _ = w.toNat / 2 * 2 % 4294967296
  omega

theorem toNat_and_not_three (w : Word) :
  (w &&& ~~~3).toNat = w.toNat - w.toNat % 4
  := toNat_and_not (k := 2) rfl

theorem align_four (w : Word) :
  align w 4 = w / 4 * 4
  := by
  have hround : (align w 4).toNat = w.toNat - w.toNat % 4 := toNat_and_not_three w
  have hw := w.toNat_lt
  apply UInt32.toNat_inj.mp
  rw [hround, UInt32.toNat_mul, UInt32.toNat_div]
  change _ = w.toNat / 4 * 4 % 4294967296
  omega

/-! ### Clear bits -/

/-- No bit of `mask` is set. -/
def Clear (mask w : Word) : Prop :=
  w &&& mask = 0

instance (mask w : Word) : Decidable (Clear mask w) :=
  inferInstanceAs (Decidable (w &&& mask = 0))

variable {mask w v : Word}

theorem clear_iff :
  Clear mask w ↔ ∀ i : Nat, mask.toNat.testBit i = true → w.toNat.testBit i = false
  := by
  rw [Clear, ← UInt32.toNat_inj, UInt32.toNat_and]
  constructor
  · intro h i hmask
    have hi := congrArg (·.testBit i) h
    simpa [hmask] using hi
  · intro h
    apply Nat.eq_of_testBit_eq
    intro i
    cases hmask : mask.toNat.testBit i with
    | false => simp [hmask]
    | true => simp [h i hmask]

namespace Clear

theorem and (h : Clear mask w) (v : Word) :
  Clear mask (w &&& v)
  := by
  rw [clear_iff] at h ⊢
  intro i hi
  rw [UInt32.toNat_and, Nat.testBit_and, h i hi, Bool.false_and]

theorem or (h : Clear mask w) (h' : Clear mask v) :
  Clear mask (w ||| v)
  := by
  rw [clear_iff] at h h' ⊢
  intro i hi
  rw [UInt32.toNat_or, Nat.testBit_or, h i hi, h' i hi, Bool.or_false]

theorem xor (h : Clear mask w) (h' : Clear mask v) :
  Clear mask (w ^^^ v)
  := by
  rw [clear_iff] at h h' ⊢
  intro i hi
  rw [UInt32.toNat_xor, Nat.testBit_xor, h i hi, h' i hi, Bool.xor_false]

theorem and_right (w : Word) (h : Clear mask v) :
  Clear mask (w &&& v)
  := by
  rw [UInt32.and_comm]
  apply h.and

end Clear

/-! ### Parts of a word -/

theorem and_or_and_not (w mask : Word) :
  (w &&& ~~~mask) ||| (w &&& mask) = w
  := by
  apply UInt32.eq_of_toBitVec_eq
  ext i hi
  simp only [UInt32.toBitVec_or, UInt32.toBitVec_and, UInt32.toBitVec_not, BitVec.getElem_or,
    BitVec.getElem_and, BitVec.getElem_not]
  cases w.toBitVec[i] with
  | false => rfl
  | true => cases mask.toBitVec[i] <;> rfl

theorem or_and_not (w mask : Word) :
  (w ||| mask) &&& ~~~mask = w &&& ~~~mask
  := by
  apply UInt32.eq_of_toBitVec_eq
  ext i hi
  simp only [UInt32.toBitVec_or, UInt32.toBitVec_and, UInt32.toBitVec_not, BitVec.getElem_or,
    BitVec.getElem_and, BitVec.getElem_not]
  cases mask.toBitVec[i] with
  | false => rw [Bool.or_false]
  | true => rw [Bool.not_true, Bool.and_false, Bool.and_false]

theorem or_and_mask (w mask : Word) :
  (w ||| mask) &&& mask = mask
  := by
  apply UInt32.eq_of_toBitVec_eq
  ext i hi
  simp only [UInt32.toBitVec_or, UInt32.toBitVec_and, BitVec.getElem_or, BitVec.getElem_and]
  cases mask.toBitVec[i] with
  | false => rw [Bool.and_false]
  | true => rw [Bool.or_true, Bool.and_true]

theorem Clear.and_not (h : Clear mask w) :
  w &&& ~~~mask = w
  := by
  have hparts := and_or_and_not w mask
  rwa [h, UInt32.or_zero] at hparts

/-- Words without common bits are joined by adding them. -/
theorem toNat_or_of_clear (h : Clear mask w) :
  (w ||| mask).toNat = w.toNat + mask.toNat
  := by
  have hclear : w.toBitVec &&& mask.toBitVec = 0#32 := by
    rw [← UInt32.toBitVec_and, h]
    rfl
  have hsum := BitVec.toNat_add_of_and_eq_zero hclear
  rwa [BitVec.add_eq_or_of_and_eq_zero _ _ hclear] at hsum

/-- The part of a word outside a mask and the part inside it. -/
theorem toNat_and_not_add_and (w mask : Word) :
  (w &&& ~~~mask).toNat + (w &&& mask).toNat = w.toNat
  := by
  have hclear : Clear (w &&& mask) (w &&& ~~~mask) := by
    rw [Clear, UInt32.and_comm w mask, ← UInt32.and_assoc, UInt32.and_assoc w, UInt32.not_and_self,
      UInt32.and_zero, UInt32.zero_and]
  rw [← toNat_or_of_clear hclear, and_or_and_not]

/-- A single bit of a word, in its place. -/
theorem toNat_and_bit (hmask : mask.toNat = Nat.pow 2 k) (w : Word) :
  (w &&& mask).toNat = w.toNat / Nat.pow 2 k % 2 * Nat.pow 2 k
  := by
  have hpow : Nat.pow 2 k = 2 ^ k := rfl
  rw [UInt32.toNat_and, hmask, hpow, Nat.and_two_pow, Nat.testBit_eq_decide_div_mod_eq]
  rcases Nat.mod_two_eq_zero_or_one (w.toNat / 2 ^ k) with hbit | hbit
  · simp [hbit]
  · simp [hbit]

end Word

end ThumbSoc
