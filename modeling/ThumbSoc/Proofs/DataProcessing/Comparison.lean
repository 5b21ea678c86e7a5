import ThumbSoc.Proofs.DataProcessing.Execution
import ThumbSoc.Proofs.Encoding.Operands

/-!
# Comparisons

A comparison subtracts and keeps nothing but the flags. After it the conditions say how the two
words are ordered, as unsigned and as signed numbers, although the difference may be out of the
range of either.
-/

namespace ThumbSoc

open Reference (outOfRange)

/-- The two's complement number that a word stands for. -/
def Word.signed (w : Word) : Int :=
  w.toInt32.toInt

/-- What a condition says about two words after a comparison of the first with the second. -/
def Condition.Orders (a b : Word) : Condition → Prop
  | eq => a = b
  | ne => a ≠ b
  | cs => b.toNat ≤ a.toNat
  | cc => a.toNat < b.toNat
  | mi => Word.bit (a - b) 31 = true
  | pl => Word.bit (a - b) 31 = false
  | vs => a.signed - b.signed < -0x80000000 ∨ 0x80000000 ≤ a.signed - b.signed
  | vc => -0x80000000 ≤ a.signed - b.signed ∧ a.signed - b.signed < 0x80000000
  | hi => b.toNat < a.toNat
  | ls => a.toNat ≤ b.toNat
  | ge => b.signed ≤ a.signed
  | lt => a.signed < b.signed
  | gt => b.signed < a.signed
  | le => a.signed ≤ b.signed
  | al | always => True

/-! ### The flags of a difference -/

section

variable (a b : Word)

/-- The flags that a comparison of two words leaves. -/
def comparedFlags : Flags :=
  ⟨Word.negative (a - b), a - b == 0, b.toNat ≤ a.toNat, outOfRange (a.signed - b.signed)⟩

theorem ofSum_subtract :
  FlagsUpdate.ofSum (subtract a b) = .arithmetic (comparedFlags a b)
  := by
  rw [subtract_eq]
  rfl

theorem compared_zero_iff :
  (comparedFlags a b).z = true ↔ a = b
  := by
  change (a - b == 0) = true ↔ a = b
  rw [beq_iff_eq]
  constructor
  · intro h
    rw [← UInt32.sub_add_cancel a b, h, UInt32.zero_add]
  · rintro rfl
    apply UInt32.sub_self

theorem compared_carry_iff :
  (comparedFlags a b).c = true ↔ b.toNat ≤ a.toNat
  := decide_eq_true_iff

theorem compared_overflow_iff :
  (comparedFlags a b).v = true
    ↔ a.signed - b.signed < -0x80000000 ∨ 0x80000000 ≤ a.signed - b.signed
  := decide_eq_true_iff

theorem compared_negative_iff :
  (comparedFlags a b).n = true ↔ Word.bit (a - b) 31 = true
  := by
  have hbit : Word.bit (a - b) 31 = (a - b).toBitVec.msb :=
    (BitVec.msb_eq_getLsbD_last (a - b).toBitVec).symm
  rw [hbit, ← Word.negative_eq]
  rfl

/-- The sign of a wrapped difference is that of the true one, unless it overflows. -/
theorem compared_less_iff :
  (comparedFlags a b).n ≠ (comparedFlags a b).v ↔ a.signed < b.signed
  := by
  have hnegative : (comparedFlags a b).n = true
      ↔ (a.signed - b.signed).bmod 0x100000000 < 0 := by
    change Word.negative (a - b) = true ↔ _
    rw [Word.negative_eq, BitVec.msb_eq_toInt, decide_eq_true_iff, UInt32.toBitVec_sub,
      BitVec.toInt_sub]
    rfl
  have hoverflow := compared_overflow_iff a b
  have hfirst : -0x80000000 ≤ a.signed ∧ a.signed < 0x80000000 :=
    ⟨a.toInt32.le_toInt, a.toInt32.toInt_lt⟩
  have hsecond : -0x80000000 ≤ b.signed ∧ b.signed < 0x80000000 :=
    ⟨b.toInt32.le_toInt, b.toInt32.toInt_lt⟩
  rw [ne_eq, Bool.eq_iff_iff, hnegative, hoverflow, Int.bmod_def]
  split <;> omega

theorem compared_greaterEqual_iff :
  (comparedFlags a b).n = (comparedFlags a b).v ↔ b.signed ≤ a.signed
  := by rw [← not_iff_not, ← ne_eq, compared_less_iff, Int.not_le]

end

theorem Word.signed_inj {a b : Word} :
  a.signed = b.signed ↔ a = b
  := by
  rw [signed, signed, Int32.toInt_inj, ← Int32.toBitVec_inj]
  apply UInt32.toBitVec_inj

/-- A condition holds after a comparison exactly when the two words are ordered as it says. -/
theorem Condition.holds_compared_iff (a b : Word) (c : Condition) :
  c.holds (comparedFlags a b) = true ↔ c.Orders a b
  := by
  have hzero := compared_zero_iff a b
  have hcarry := compared_carry_iff a b
  have hoverflow := compared_overflow_iff a b
  have hnegative := compared_negative_iff a b
  have hless := compared_less_iff a b
  have hgreaterEqual := compared_greaterEqual_iff a b
  have hsame : a.toNat = b.toNat ↔ a = b := UInt32.toNat_inj
  have hsigned : a.signed = b.signed ↔ a = b := Word.signed_inj
  cases c with
  | eq => exact hzero
  | cs => exact hcarry
  | mi => exact hnegative
  | vs => exact hoverflow
  | ne => simp only [holds, Orders, Bool.not_eq_true', ← Bool.not_eq_true, hzero, ne_eq]
  | pl => simp only [holds, Orders, Bool.not_eq_true', ← Bool.not_eq_true, hnegative]
  | cc =>
    simp only [holds, Orders, Bool.not_eq_true', ← Bool.not_eq_true, hcarry]
    omega
  | vc =>
    simp only [holds, Orders, Bool.not_eq_true', ← Bool.not_eq_true, hoverflow]
    omega
  | hi =>
    simp only [holds, Orders, Bool.and_eq_true, Bool.not_eq_true', ← Bool.not_eq_true, hcarry,
      hzero, ← hsame]
    omega
  | ls =>
    simp only [holds, Orders, Bool.or_eq_true, Bool.not_eq_true', ← Bool.not_eq_true, hcarry,
      hzero, ← hsame]
    omega
  | ge => simp only [holds, Orders, beq_iff_eq, hgreaterEqual]
  | lt => simp only [holds, Orders, bne_iff_ne, hless]
  | gt =>
    simp only [holds, Orders, Bool.and_eq_true, Bool.not_eq_true', ← Bool.not_eq_true, beq_iff_eq,
      hzero, hgreaterEqual, ← hsigned]
    omega
  | le =>
    simp only [holds, Orders, Bool.or_eq_true, bne_iff_ne, hzero, hless, ← hsigned]
    omega
  | al | always => exact iff_of_true rfl trivial

/-! ### The core after a comparison -/

namespace ThumbCore

variable (core : ThumbCore) (f : Flags)

theorem flag_setFlags {mask : Word} {k : Nat} (hmask : mask.toNat = Nat.pow 2 k) (hk : k < 32) :
  (core.setFlags f).flag mask
    = if k = 31 then f.n else if k = 30 then f.z else if k = 29 then f.c else if k = 28 then f.v
      else core.psr.toBitVec.getLsbD k
  := by
  have hpsr : (core.setFlags f).psr = (FlagsUpdate.arithmetic f).status core.psr :=
    (FlagsUpdate.arithmetic f).psr_apply core
  rw [flag, hpsr, Word.and_bit_beq hmask, FlagsUpdate.status, getLsbD_withFlags _ _ _ _ _ hk]

/-- The condition flags are those that were set. -/
theorem flags_setFlags :
  (core.setFlags f).flags = f
  := by
  have hn : (core.setFlags f).flag Psr.n = f.n := core.flag_setFlags f rfl (k := 31) (by decide)
  have hz : (core.setFlags f).flag Psr.z = f.z := core.flag_setFlags f rfl (k := 30) (by decide)
  have hc : (core.setFlags f).flag Psr.c = f.c := core.flag_setFlags f rfl (k := 29) (by decide)
  have hv : (core.setFlags f).flag Psr.v = f.v := core.flag_setFlags f rfl (k := 28) (by decide)
  rw [flags, hn, hz, hc, hv]

/-- The other bits of the status register stay. -/
theorem bit_setFlags {k : Nat} (hk : k < 28) :
  Word.bit (core.setFlags f).psr k = Word.bit core.psr k
  := by
  have hpsr : (core.setFlags f).psr = (FlagsUpdate.arithmetic f).status core.psr :=
    (FlagsUpdate.arithmetic f).psr_apply core
  have hbit := getLsbD_withFlags core.psr.toBitVec f.n f.z f.c f.v (i := k) (by omega)
  rw [if_neg (by omega), if_neg (by omega), if_neg (by omega), if_neg (by omega)] at hbit
  rw [hpsr]
  exact hbit

end ThumbCore

/-- Effects that only update the flags. -/
theorem Effects.commit_flagsOnly (core : ThumbCore) (nextPc : Word) (update : FlagsUpdate) :
  { goto nextPc with flags := update }.commit core = (update.apply core).setPc nextPc
  := by
  have hwrites : { goto nextPc with flags := update }.applyWrites core = core :=
    applyWrites_goto nextPc core
  rw [commit, hwrites]
  rfl

namespace Instruction

variable {w : Word} {length : Nat} {i : Instruction}

/-- Every encoding of a comparison sets the flags. -/
theorem decode_compare_setFlags (h : decode w length = .ok i) (hcompare : i.opcode = .cmp) :
  i.setFlags = true
  := by
  have htrimmed := congrArg setFlags (decode_encoded h).trimmed
  rw [trimmed, hcompare] at htrimmed
  exact htrimmed.symm

theorem execute_compare (hcompare : i.opcode = .cmp) (hflags : i.setFlags = true)
    (core : ThumbCore) (pc : Word) (bus : Bus) :
  i.execute core pc bus
    = .ok { Effects.goto (i.next pc) with
        flags := .arithmetic (comparedFlags (i.firstValue core pc) (i.secondValue core pc).1) } bus
  := by
  have heffects : i.arithmetic core pc subtract none
      = { Effects.goto (i.next pc) with
          flags := .ofSum (subtract (i.firstValue core pc) (i.secondValue core pc).1) } := by
    rw [arithmetic, Reference.updatingFlags_continuing, if_pos hflags]
    rfl
  rw [← ofSum_subtract, ← heffects]
  simp only [execute, hcompare]
  rfl

/-- **After a comparison the conditions are the order of the operands.** Every decoded comparison
of whatever operands is executed without a fault, and then each condition holds exactly when the
two words that the operands evaluate to are ordered as it says: as unsigned numbers, as signed
numbers, or in the sign and the overflow of their difference. Besides the four flags only the
program counter has changed. -/
theorem commit_compare_orders (hdecode : decode w length = .ok i) (hcompare : i.opcode = .cmp)
    (core : ThumbCore) (pc : Word) (bus : Bus) :
  ∃ effects, i.execute core pc bus = .ok effects bus
    ∧ (∀ c : Condition, c.holds (effects.commit core).flags = true
      ↔ c.Orders (i.firstValue core pc) (i.secondValue core pc).1)
    ∧ effects.commit core
      = { core with psr := (effects.commit core).psr, pc := Word.even (i.next pc) }
    ∧ ∀ k < 28, Word.bit (effects.commit core).psr k = Word.bit core.psr k
  := by
  have hflags := decode_compare_setFlags hdecode hcompare
  refine ⟨_, execute_compare hcompare hflags core pc bus, ?_⟩
  generalize i.firstValue core pc = a
  generalize (i.secondValue core pc).1 = b
  rw [Effects.commit_flagsOnly]
  refine ⟨?_, rfl, ?_⟩
  · intro c
    have hread : (core.setFlags (comparedFlags a b)).flags = comparedFlags a b :=
      core.flags_setFlags _
    rw [← c.holds_compared_iff]
    exact iff_of_eq (congrArg (fun f ↦ c.holds f = true) hread)
  · intro k hk
    exact core.bit_setFlags _ hk

/-! ### A difference that overflows -/

/-- The instruction `cmp r0, r1`. -/
def compareLow : Instruction :=
  { plain .cmp 0x4288 2 with rn := some 0, rm := some 1, setFlags := true }

/-- A core with the least signed number in `r0` and one in `r1`. -/
def comparing : ThumbCore :=
  { ThumbCore.reset 0x20000060 with general := #v[0x80000000, 1, 0, 0, 0, 0, 0, 0, 0, 0, 0, 0, 0] }

/-- The least number is less than one although their difference is positive, and as an unsigned
number it is higher. -/
theorem compareLow_orders :
  ∃ effects,
    compareLow.execute comparing 0x20000000 (Bus.initial 96) = .ok effects (Bus.initial 96)
      ∧ Condition.lt.holds (effects.commit comparing).flags = true
      ∧ Condition.pl.holds (effects.commit comparing).flags = true
      ∧ Condition.vs.holds (effects.commit comparing).flags = true
      ∧ Condition.hi.holds (effects.commit comparing).flags = true
  := by
  have hdecode : decode 0x4288 2 = .ok compareLow := rfl
  obtain ⟨effects, hexecute, horders, -, -⟩ :=
    commit_compare_orders hdecode rfl comparing 0x20000000 (Bus.initial 96)
  use effects, hexecute
  have hfirst : compareLow.firstValue comparing 0x20000000 = 0x80000000 := by decide
  have hsecond : (compareLow.secondValue comparing 0x20000000).1 = 1 := by decide
  rw [hfirst, hsecond] at horders
  have hless : Word.signed 0x80000000 < Word.signed 1 := by decide
  have hpositive : Word.bit (0x80000000 - 1) 31 = false := by decide
  have houtside : Word.signed 0x80000000 - Word.signed 1 < -0x80000000 := by decide
  have hhigher : (1 : Word).toNat < (0x80000000 : Word).toNat := by decide
  exact ⟨(horders .lt).mpr hless, (horders .pl).mpr hpositive, (horders .vs).mpr (.inl houtside),
    (horders .hi).mpr hhigher⟩

end Instruction

end ThumbSoc
