import Mathlib.Data.Int.ModEq
import ThumbSoc.Proofs.BlockTransfer.Decoding
import ThumbSoc.Proofs.Encoding.Operands
import ThumbSoc.Proofs.Encoding.Tables
import ThumbSoc.Proofs.SingleTransfer.Decoding
import ThumbSoc.Semantics

/-!
# Well-formed instructions

What execution may take for granted about an instruction that was decoded. Execution has an answer
for every instruction, also for one that lacks a register it looks for: zero, or no effect at all.
No encoding makes it give such an answer, unless an immediate was encoded in place of the register.
-/

namespace ThumbSoc

open Word (field bit signExtend)

/-! ### The slots of an instruction -/

/-- The places for the numbers of the registers that an instruction works on. -/
inductive OperandSlot where
  | rd
  | rn
  | rm
  deriving DecidableEq, Repr

/-- The slots in which an operation looks for a register. -/
def Opcode.slots : Opcode → List OperandSlot
  | add | sub | and | orr | eor | ldr | str => [.rd, .rn, .rm]
  | mov => [.rd, .rm]
  | cmp | tst => [.rn, .rm]
  | mrs => [.rd]
  | ldm | stm | msr => [.rn]
  | bx | blx => [.rm]
  | b | bl | push | pop | nop | wfi | svc | udf => []

namespace Instruction

variable (i : Instruction)

/-- What a slot holds. -/
def slot : OperandSlot → Option Nat
  | .rd => i.rd
  | .rn => i.rn
  | .rm => i.rm

/-- The instruction with another register, or none, in a slot. -/
def setSlot (number : Option Nat) : OperandSlot → Instruction
  | .rd => { i with rd := number }
  | .rn => { i with rn := number }
  | .rm => { i with rm := number }

/-- An operation looks for registers nowhere but in its slots. -/
theorem execute_setSlot {slot : OperandSlot} (h : slot ∉ i.opcode.slots) (number : Option Nat) :
  (i.setSlot number slot).execute = i.execute
  := by
  obtain ⟨opcode⟩ := i
  change slot ∉ opcode.slots at h
  cases slot
  all_goals
    cases opcode
    all_goals first
      | rfl
      | exact absurd (by decide) h

/-- The operation looks for a register where there is none. -/
def Misses (slot : OperandSlot) : Prop :=
  slot ∈ i.opcode.slots ∧ i.slot slot = none

/-- An immediate takes the place of the register: it is the second operand of a computation, the
offset of a load or store, or the state in which interrupts are put. -/
def ImmediateFor : OperandSlot → Prop
  | .rd => False
  | .rn => i.opcode = .msr ∧ i.selector = 16 ∧ (i.immediate = 0 ∨ i.immediate = 1)
  | .rm => i.opcode.computes = true ∨ i.transfersOne = true

/-- What holds of every instruction that a word of a length encodes. -/
structure WellFormed (w : Word) (length : Nat) : Prop where
  raw : i.raw = w
  length : i.length = length
  halfwords : i.length = 2 ∨ i.length = 4
  /-- It is the first halfword that says whether there are two. -/
  wide : i.length = 4 ↔ WideFormat.startsWith (w &&& 0xFFFF) = true
  valid : i.opcode ≠ .udf
  named : ∀ n ∈ i.named, n ≤ 15
  conditional : i.condition ≠ .al → i.opcode = .b ∧ i.length = 2
  displacement : i.opcode = .b ∨ i.opcode = .bl → 2 ∣ i.immediate.toInt
  listed : i.transfersListed = true → i.registers.numbers ≠ []
  multiple : i.opcode = .ldm ∨ i.opcode = .stm → ∀ n ∈ i.registers.numbers, n < 8
  push : i.opcode = .push → i.registers.LowOr 14
  pop : i.opcode = .pop → i.registers.LowOr 15
  /-- A load does not overwrite a listed base. -/
  writeback : i.opcode = .ldm → ∃ base, i.rn = some base
    ∧ (i.writeback = true ↔ base ∉ i.registers.numbers)
  slots : ∀ slot, i.Misses slot → i.ImmediateFor slot

end Instruction

/-! ### The parts of well-formedness -/

/-- Extending the sign of an even number gives an even number. -/
theorem Word.signExtend_even {w : Word} (hw : 2 ∣ w.toNat) {bits : Nat} (hbits : 0 < bits) :
  2 ∣ (signExtend w bits).toInt
  := by
  have hbmod {x : Int} {m : Nat} (hx : 2 ∣ x) (hm : 2 ∣ m) : 2 ∣ x.bmod m :=
    (Int.dvd_iff_dvd_of_dvd_sub
      (Int.dvd_trans (Int.natCast_dvd_natCast.mpr hm) Int.dvd_bmod_sub_self)).mpr hx
  rw [signExtend, Int32.toInt_ofInt]
  apply hbmod _ (by decide)
  apply hbmod (Int.natCast_dvd_natCast.mpr hw)
  apply dvd_pow_self 2 (Nat.ne_of_gt hbits)

/-- A bitmap with some bit set lists some register. -/
theorem RegisterList.numbers_ofNat_ne_nil {bits : Nat} (hbits : bits < 65536) (h : bits ≠ 0) :
  numbers ⟨UInt16.ofNat bits⟩ ≠ []
  := by
  obtain ⟨n, hn⟩ := Nat.exists_testBit_of_ne_zero h
  apply List.ne_nil_of_mem (a := n)
  rw [mem_numbers, contains_ofNat hbits]
  exact ⟨lt_of_testBit hbits hn, hn⟩

namespace Narrow

variable {w : Word} {i : Instruction}

theorem pushPop_listed (h : pushPop w = some i) :
  i.registers.numbers ≠ []
  := by
  have hlow : field w 0 8 < 256 := Word.field_lt w 0 8
  simp only [pushPop] at h
  generalize hlist : field w 0 8 + _ = list at h
  split at h
  · cases h
  · next hne =>
    cases h
    apply RegisterList.numbers_ofNat_ne_nil _ hne
    rw [← hlist]
    repeat' split
    all_goals omega

theorem multiple_listed (h : multiple w = some i) :
  i.registers.numbers ≠ []
  := by
  have hlow : field w 0 8 < 256 := Word.field_lt w 0 8
  simp only [multiple] at h
  split at h
  · cases h
  · next hlist =>
    cases h
    apply RegisterList.numbers_ofNat_ne_nil (by omega) hlist

/-- The displacements of narrow branches count halfwords. -/
theorem read_displacement {format : NarrowFormat} (h : read format w = some i)
    (hopcode : i.opcode = .b ∨ i.opcode = .bl) :
  2 ∣ i.immediate.toInt
  := by
  have hdouble (n : Nat) {bits : Nat} (hbits : 0 < bits) :
      2 ∣ (signExtend (UInt32.ofNat (2 * n)) bits).toInt := by
    apply Word.signExtend_even _ hbits
    rw [UInt32.toNat_ofNat']
    omega
  have hformat : format = .conditionalBranchOrCall ∨ format = .branch := by
    have hmem := read_opcode h
    generalize i.opcode = opcode at hmem hopcode
    rcases hopcode with rfl | rfl
    all_goals
      revert hmem
      cases format <;> decide
  rcases hformat with rfl | rfl
  · rw [read, conditionalBranchOrCall] at h
    split at h
    · cases h
    · cases h
      rcases hopcode with hb | hbl
      · cases hb
      · cases hbl
    · cases h
      apply hdouble _ (by decide)
  · cases h
    apply hdouble _ (by decide)

end Narrow

namespace Wide

variable {w : Word} {i : Instruction}

theorem linkDisplacement_even (w : Word) :
  2 ∣ (linkDisplacement w).toInt
  := by
  apply Word.signExtend_even _ (by decide)
  rw [UInt32.toNat_ofNat']
  omega

/-- The displacements of wide branches count halfwords. -/
theorem read_displacement {format : WideFormat} (h : read format w = some i)
    (hopcode : i.opcode = .b ∨ i.opcode = .bl) :
  2 ∣ i.immediate.toInt
  := by
  have hformat : format = .branchWithLink := by
    have hmem := read_opcode h
    generalize i.opcode = opcode at hmem hopcode
    rcases hopcode with rfl | rfl
    all_goals
      revert hmem
      cases format <;> decide
  subst hformat
  cases h
  apply linkDisplacement_even

end Wide

namespace Instruction

variable {w : Word} {length : Nat} {i : Instruction}

/-- The two ways in which a word is decoded. -/
theorem read_of_decode (h : decode w length = .ok i) :
  (length = 2 ∧ ∃ format, NarrowFormat.of? w = some format ∧ Narrow.read format w = some i)
    ∨ (length = 4 ∧ ∃ format, WideFormat.of? w = some format ∧ Wide.read format w = some i)
  := by
  obtain ⟨hlength, _, hnarrow⟩ | ⟨hlength, hwide⟩ := decode_cases h
  · left
    exact ⟨hlength, Option.bind_eq_some_iff.mp hnarrow⟩
  · right
    exact ⟨hlength, Option.bind_eq_some_iff.mp hwide⟩

/-- Only a branch has a condition. -/
theorem Encoded.branch_of_condition (h : i.Encoded w length) (hcondition : i.condition ≠ .al) :
  i.opcode = .b
  := by
  have htrimmed := congrArg Instruction.condition h.trimmed
  by_contra hother
  apply hcondition
  rw [← htrimmed, Instruction.trimmed]
  cases hopcode : i.opcode with
  | b => contradiction
  | msr =>
    simp only
    split
    · rfl
    · rfl
  | _ => rfl

/-- Interrupts are masked and unmasked by an instruction that names no register. -/
theorem Encoded.masking (h : i.Encoded w length) (hopcode : i.opcode = .msr) (hrn : i.rn = none) :
  i.selector = 16 ∧ (i.immediate = 0 ∨ i.immediate = 1)
  := by
  have hcomplete := h.complete
  have htrimmed := congrArg Instruction.selector h.trimmed
  rw [Instruction.complete, hopcode, hrn] at hcomplete
  rw [Instruction.trimmed, hopcode, hrn] at htrimmed
  use htrimmed.symm
  simpa using hcomplete

/-- The slots that an encoding leaves empty are those that an immediate stands for. -/
theorem Encoded.immediateFor (h : i.Encoded w length) {slot : OperandSlot}
    (hmisses : i.Misses slot) :
  i.ImmediateFor slot
  := by
  obtain ⟨hslot, hnone⟩ := hmisses
  have hcomplete := h.complete
  rw [Instruction.complete] at hcomplete
  cases slot with
  | rd =>
    have hrd : i.rd = none := hnone
    rw [hrd] at hcomplete
    generalize i.opcode = opcode at *
    cases opcode
    all_goals first
      | exact absurd hslot (by decide)
      | cases hcomplete
  | rn =>
    have hrn : i.rn = none := hnone
    rcases Decidable.em (i.opcode = .msr) with hmsr | hmsr
    · exact ⟨hmsr, h.masking hmsr hrn⟩
    · rw [hrn] at hcomplete
      generalize i.opcode = opcode at *
      cases opcode
      all_goals first
        | exact absurd hslot (by decide)
        | exact absurd rfl hmsr
        | simp at hcomplete
  | rm =>
    have hrm : i.rm = none := hnone
    rw [hrm] at hcomplete
    rw [ImmediateFor, transfersOne]
    generalize i.opcode = opcode at *
    cases opcode
    all_goals first
      | exact absurd hslot (by decide)
      | exact .inl rfl
      | exact .inr rfl
      | cases hcomplete

/-- The length is told by the first halfword. -/
theorem length_of_decode (h : decode w length = .ok i) :
  (length = 2 ∨ length = 4) ∧ (length = 4 ↔ WideFormat.startsWith (w &&& 0xFFFF) = true)
  := by
  rw [WideFormat.startsWith_first]
  obtain ⟨rfl, format, hformat, -⟩ | ⟨rfl, format, hformat, -⟩ := read_of_decode h
  · rw [NarrowFormat.startsWith_of_of? hformat]
    decide
  · rw [WideFormat.startsWith_of_of? hformat]
    decide

/-- Conditional branches are narrow. -/
theorem condition_of_decode (h : decode w length = .ok i) (hcondition : i.condition ≠ .al) :
  i.opcode = .b ∧ length = 2
  := by
  have hopcode := (decode_encoded h).branch_of_condition hcondition
  use hopcode
  obtain ⟨hlength, -⟩ | ⟨-, format, -, hread⟩ := read_of_decode h
  · exact hlength
  · have hnone : .b ∉ format.opcodes := by cases format <;> decide
    have hmem := Wide.read_opcode hread
    rw [hopcode] at hmem
    exact absurd hmem hnone

theorem displacement_of_decode (h : decode w length = .ok i)
    (hopcode : i.opcode = .b ∨ i.opcode = .bl) :
  2 ∣ i.immediate.toInt
  := by
  obtain ⟨-, format, -, hread⟩ | ⟨-, format, -, hread⟩ := read_of_decode h
  · apply Narrow.read_displacement hread hopcode
  · apply Wide.read_displacement hread hopcode

theorem registers_of_decode (h : decode w length = .ok i) (hlisted : i.transfersListed = true) :
  i.registers.numbers ≠ []
  := by
  rcases listed_of_decode h hlisted with hread | hread
  · apply Narrow.pushPop_listed hread
  · apply Narrow.multiple_listed hread

/-- The base of a load of several registers is written back unless it is loaded. -/
theorem writeback_of_decode (h : decode w length = .ok i) (hopcode : i.opcode = .ldm) :
  ∃ base, i.rn = some base ∧ (i.writeback = true ↔ base ∉ i.registers.numbers)
  := by
  obtain ⟨-, base, hbase, hrn, ⟨hstm, -⟩ | ⟨-, hwriteback⟩⟩ := multiple_of_decode h (.inr hopcode)
  · rw [hopcode] at hstm
    cases hstm
  · have hlow : base < 16 := by omega
    use base, hrn
    rw [hwriteback, RegisterList.mem_numbers, Bool.not_eq_true', not_and, Bool.not_eq_true]
    exact ⟨fun hout _ => hout, fun hout => hout hlow⟩

theorem wellFormed_of_decode (h : decode w length = .ok i) :
  i.WellFormed w length
  := by
  have hencoded := decode_encoded h
  have hlength := hencoded.length
  obtain ⟨hhalfwords, hwide⟩ := length_of_decode h
  have hmultiple (hopcode : i.opcode = .ldm ∨ i.opcode = .stm) :
      ∀ n ∈ i.registers.numbers, n < 8 := by
    intro n hn
    apply (multiple_of_decode h hopcode.symm).1 n (RegisterList.mem_numbers.mp hn).2
  have hpush (hopcode : i.opcode = .push) : i.registers.LowOr 14 := by
    have hstack := stack_of_decode h (.inl hopcode)
    rw [hopcode] at hstack
    simpa using hstack
  have hpop (hopcode : i.opcode = .pop) : i.registers.LowOr 15 := by
    have hstack := stack_of_decode h (.inr hopcode)
    rw [hopcode] at hstack
    simpa using hstack
  exact
    { raw := hencoded.raw
      length := hlength
      halfwords := hlength ▸ hhalfwords
      wide := hlength ▸ hwide
      valid := hencoded.opcode_ne
      named := fun n hn => Nat.le_of_lt_succ (hencoded.named n hn)
      conditional := fun hcondition => hlength ▸ condition_of_decode h hcondition
      displacement := displacement_of_decode h
      listed := registers_of_decode h
      multiple := hmultiple
      push := hpush
      pop := hpop
      writeback := writeback_of_decode h
      slots := fun _ => hencoded.immediateFor }

/-- **What the decoder yields is well formed.** Every instruction that any word encodes is well
formed, and a word that encodes none is the one that the fault reports. At most one wide pattern
matches the word, so the wide patterns can be listed in any order. The slots in which execution
does not look for a register are of no account to it. -/
theorem decode_wellFormed (w : Word) (length : Nat) :
  (∀ i, decode w length = .ok i → i.WellFormed w length)
    ∧ (∀ fault, decode w length = .error fault → fault = ⟨w, length⟩)
    ∧ (WideFormat.table.filter fun entry => entry.1.matches w).length ≤ 1
    ∧ (∀ table, table.Perm WideFormat.table → Pattern.lookup table w = WideFormat.of? w)
    ∧ ∀ (i : Instruction) (slot : OperandSlot), slot ∉ i.opcode.slots →
      ∀ number, (i.setSlot number slot).execute = i.execute
  := by
  refine ⟨fun i => wellFormed_of_decode, ?_, ?_, ?_, fun i slot => i.execute_setSlot⟩
  · intro fault hfault
    rw [decode] at hfault
    split at hfault
    · cases hfault
    · cases hfault
      rfl
  · exact Pattern.length_filter_le_one WideFormat.table_disjoint (by decide) w
  · intro table hperm
    exact Pattern.lookup_perm WideFormat.table_disjoint hperm w

/-- The load `ldm r0, {r0, r1}` keeps what it loaded into its base. -/
theorem loadOwnBase_wellFormed :
  ∃ i, decode 0xC803 2 = .ok i ∧ i.WellFormed 0xC803 2 ∧ i.writeback = false
  := by
  obtain ⟨hwellFormed, -⟩ := decode_wellFormed 0xC803 2
  have hdecode : decode 0xC803 2 = .ok
      { plain .ldm 0xC803 2 with rn := some 0, registers := ⟨3⟩ } := rfl
  exact ⟨_, hdecode, hwellFormed _ hdecode, rfl⟩

end Instruction

end ThumbSoc
