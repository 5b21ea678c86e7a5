import Mathlib.Tactic.Use
import ThumbSoc.Proofs.Encoding.Opcodes

/-!
# Decoded loads and stores of several registers

Two narrow formats have loads and stores of several registers. All of them list low registers;
a push may also list the link register, and a pop the program counter. The base of a load or
store is a low register.
-/

namespace ThumbSoc

open Word (field bit)

/-! ### Register lists -/

namespace RegisterList

variable {list : RegisterList} {n top : Nat}

/-- A bit that is set is below the width of the number. -/
theorem lt_of_testBit {bits width : Nat} (hbits : bits < 2 ^ width)
    (h : bits.testBit n = true) :
  n < width
  := by
  apply (Nat.pow_lt_pow_iff_right (Nat.one_lt_two)).mp
  apply Nat.lt_of_le_of_lt (Nat.ge_two_pow_of_testBit h) hbits

theorem lt_of_contains (h : list.contains n = true) :
  n < 16
  := lt_of_testBit list.bits.toNat_lt h

theorem contains_ofNat {bits : Nat} (h : bits < 65536) :
  contains ⟨UInt16.ofNat bits⟩ n = bits.testBit n
  := by rw [contains, UInt16.toNat_ofNat_of_lt' h]

/-- The listed registers with numbers below eight, in ascending order. -/
def low (list : RegisterList) : List Nat :=
  (List.range 8).filter list.contains

theorem mem_low :
  n ∈ list.low ↔ n < 8 ∧ list.contains n = true
  := by rw [low, List.mem_filter, List.mem_range]

/-- Only low registers are listed, and perhaps one more. -/
def LowOr (list : RegisterList) (top : Nat) : Prop :=
  ∀ n, list.contains n = true → n < 8 ∨ n = top

/-- Bitmaps with the bits of low registers and perhaps one more. -/
theorem lowOr_ofNat {bits extra : Nat} (hbits : bits < 256) (htop : top = 14 ∨ top = 15)
    (hextra : extra = 0 ∨ extra = 2 ^ top) :
  LowOr ⟨UInt16.ofNat (bits + extra)⟩ top
  := by
  have hsum : bits + extra < 65536 := by
    rcases htop with rfl | rfl
    all_goals omega
  intro n hn
  rw [contains_ofNat hsum] at hn
  rcases hextra with rfl | rfl
  · exact .inl (lt_of_testBit hbits hn)
  · have hbelow : bits < 2 ^ top := by
      rcases htop with rfl | rfl
      all_goals omega
    have hor := Nat.two_pow_add_eq_or_of_lt hbelow 1
    rw [Nat.mul_one, Nat.add_comm] at hor
    rw [hor, Nat.testBit_or, Nat.testBit_two_pow, Bool.or_eq_true, decide_eq_true_eq] at hn
    rcases hn with rfl | hn
    · exact .inr rfl
    · exact .inl (lt_of_testBit hbits hn)

/-- The additional register comes last. -/
theorem LowOr.numbers (h : list.LowOr top) (htop : top = 14 ∨ top = 15) :
  list.numbers = list.low ++ if list.contains top then [top] else []
  := by
  have hout : ∀ n, 8 ≤ n → n ≠ top → list.contains n = false := by
    intro n hn hne
    rw [Bool.eq_false_iff]
    intro hlisted
    have hcases := h n hlisted
    omega
  have hsplit : List.range 16 = List.range 8 ++ [8, 9, 10, 11, 12, 13, 14, 15] := rfl
  rw [RegisterList.numbers, hsplit, List.filter_append, low]
  congr 1
  rcases htop with rfl | rfl
  all_goals simp [List.filter_cons, hout]

end RegisterList

/-! ### Formats -/

/-- Whether the instruction loads or stores the registers of a list. -/
def Instruction.transfersListed (i : Instruction) : Bool :=
  match i.opcode with
  | .push | .pop | .ldm | .stm => true
  | _ => false

namespace Narrow

variable {w : Word} {i : Instruction}

/-- Two formats have loads and stores of several registers. -/
theorem listed_of_read {format : NarrowFormat} (h : read format w = some i)
    (hlisted : i.transfersListed = true) :
  pushPop w = some i ∨ multiple w = some i
  := by
  have hformat : format = .miscellaneous ∨ format = .multiple := by
    have hopcode := read_opcode h
    rw [Instruction.transfersListed] at hlisted
    generalize i.opcode = opcode at hopcode hlisted
    revert opcode
    cases format <;> decide
  rcases hformat with rfl | rfl
  · simp only [read, miscellaneous, adjustStack, hint] at h
    repeat' split at h
    case isFalse.isTrue =>
      left
      apply h
    all_goals cases h
    all_goals cases hlisted
  · right
    apply h

/-- The registers of a push and of a pop. -/
theorem pushPop_registers (h : pushPop w = some i) :
  i.opcode = .push ∧ i.registers.LowOr 14 ∨ i.opcode = .pop ∧ i.registers.LowOr 15
  := by
  have hlow : field w 0 8 < 256 := Word.field_lt w 0 8
  simp only [pushPop] at h
  generalize hlist : field w 0 8 + _ = list at h
  split at h
  · cases h
  · cases h
    subst hlist
    cases bit w 11 with
    | false =>
      left
      use rfl
      apply RegisterList.lowOr_ofNat hlow (.inl rfl)
      cases bit w 8 with
      | false => exact .inl rfl
      | true => exact .inr rfl
    | true =>
      right
      use rfl
      apply RegisterList.lowOr_ofNat hlow (.inr rfl)
      cases bit w 8 with
      | false => exact .inl rfl
      | true => exact .inr rfl

/-- The operands of a load or store of several low registers. -/
theorem multiple_operands (h : multiple w = some i) :
  (∀ n, i.registers.contains n = true → n < 8)
    ∧ ∃ base < 8, i.rn = some base
      ∧ (i.opcode = .stm ∧ i.writeback = true
        ∨ i.opcode = .ldm ∧ i.writeback = !i.registers.contains base)
  := by
  have hlow : field w 0 8 < 256 := Word.field_lt w 0 8
  have hcontains (n : Nat) : RegisterList.contains ⟨UInt16.ofNat (field w 0 8)⟩ n
      = (field w 0 8).testBit n := RegisterList.contains_ofNat (by omega)
  simp only [multiple] at h
  split at h
  · cases h
  · cases h
    constructor
    · intro n hn
      rw [hcontains] at hn
      apply RegisterList.lt_of_testBit hlow hn
    · use field w 8 3, Word.field_lt w 8 3, rfl
      cases bit w 11 with
      | false => exact .inl ⟨rfl, rfl⟩
      | true =>
        right
        use rfl
        rw [hcontains]
        rfl

end Narrow

/-- No wide instruction loads or stores several registers. -/
theorem Wide.decode_listed {w : Word} {i : Instruction} (h : Wide.decode w = some i) :
  i.transfersListed = false
  := by
  obtain ⟨format, _, hread⟩ := Option.bind_eq_some_iff.mp h
  have hopcode := read_opcode hread
  rw [Instruction.transfersListed]
  generalize i.opcode = opcode at hopcode ⊢
  revert opcode
  cases format <;> decide

namespace Instruction

variable {w : Word} {length : Nat} {i : Instruction}

/-- The encodings of loads and stores of several registers are narrow. -/
theorem listed_of_decode (h : decode w length = .ok i) (hlisted : i.transfersListed = true) :
  Narrow.pushPop w = some i ∨ Narrow.multiple w = some i
  := by
  obtain ⟨_, _, hnarrow⟩ | ⟨_, hwide⟩ := decode_cases h
  · obtain ⟨_, _, hread⟩ := Option.bind_eq_some_iff.mp hnarrow
    apply Narrow.listed_of_read hread hlisted
  · rw [Wide.decode_listed hwide] at hlisted
    cases hlisted

/-- What a decoded push or pop lists. -/
theorem stack_of_decode (h : decode w length = .ok i)
    (hopcode : i.opcode = .push ∨ i.opcode = .pop) :
  i.opcode = .push ∧ i.registers.LowOr 14 ∨ i.opcode = .pop ∧ i.registers.LowOr 15
  := by
  have hlisted : i.transfersListed = true := by
    rcases hopcode with hopcode | hopcode
    all_goals rw [transfersListed, hopcode]
  rcases listed_of_decode h hlisted with hread | hread
  · apply Narrow.pushPop_registers hread
  · obtain ⟨_, _, _, _, ⟨hstm, _⟩ | ⟨hldm, _⟩⟩ := Narrow.multiple_operands hread
    · simp [hstm] at hopcode
    · simp [hldm] at hopcode

/-- The operands of a decoded load or store of several low registers. -/
theorem multiple_of_decode (h : decode w length = .ok i)
    (hopcode : i.opcode = .stm ∨ i.opcode = .ldm) :
  (∀ n, i.registers.contains n = true → n < 8)
    ∧ ∃ base < 8, i.rn = some base
      ∧ (i.opcode = .stm ∧ i.writeback = true
        ∨ i.opcode = .ldm ∧ i.writeback = !i.registers.contains base)
  := by
  have hlisted : i.transfersListed = true := by
    rcases hopcode with hopcode | hopcode
    all_goals rw [transfersListed, hopcode]
  rcases listed_of_decode h hlisted with hread | hread
  · obtain ⟨hpush, _⟩ | ⟨hpop, _⟩ := Narrow.pushPop_registers hread
    · simp [hpush] at hopcode
    · simp [hpop] at hopcode
  · apply Narrow.multiple_operands hread

end Instruction

end ThumbSoc
