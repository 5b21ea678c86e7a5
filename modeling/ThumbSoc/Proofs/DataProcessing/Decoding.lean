import Mathlib.Tactic.IntervalCases
import ThumbSoc.Encoding
import ThumbSoc.Proofs.DataProcessing.Reference
import ThumbSoc.Proofs.Encoding.Formats

/-!
# Decoded data processing

Format by format, the bits of an encoding are read in the same way by the decoder and by the
reference: the instructions that compute are those of the reference, with their operands in the
fields of an instruction.
-/

namespace ThumbSoc

open Word (field bit)

/-- Whether the operation computes a value from its operands. -/
def Opcode.computes : Opcode → Bool
  | mov | add | sub | cmp | and | orr | eor | tst => true
  | _ => false

/-- Whether the instruction is one of data processing. -/
def Instruction.computes (i : Instruction) : Bool :=
  i.opcode.computes

/-- The narrow formats in which every instruction computes or branches. -/
def NarrowFormat.computing : List NarrowFormat :=
  [shiftImmediate, addSubtract, moveCompareImmediate, dataProcessing, highRegisterOrExchange,
    addressGeneration]

theorem miscellaneous_adjusts_iff {w : Word} :
  (w &&& 0xFF00 == 0xB000) = true ↔ field w 8 8 = 0xB0
  := Pattern.matches_field_iff (p := ⟨0xFF00, 0xB000⟩) rfl (by decide) (by decide) (by decide)
    (by decide) w

namespace Reference

/-! ### The fields of an instruction -/

/-- The first operand of an operation. -/
def Operation.first? : Operation → Option (Fin 16)
  | add n | subtract n | .and n | .or n | .xor n => some n
  | move => none

/-- An instruction with its second operand filled in. -/
def Operand.place (i : Instruction) : Operand → Instruction
  | number n => { i with immediate := Int32.ofNat n }
  | modified bits =>
    { i with
      immediate := (Immediate.expand bits).toInt32
      shift := .ror
      shiftAmount := Immediate.rotation bits }
  | register m => { i with rm := some m }
  | shifted shift m amount => { i with rm := some m, shift, shiftAmount := amount }
  | shiftedBy shift m amount => { i with rm := some m, rs := some amount, shift }

namespace DataProcessing

/-- The operation code. A subtraction or a conjunction without a destination has its own. -/
def opcode (d : DataProcessing) : Opcode :=
  match d.operation, d.destination with
  | .add _, _ => .add
  | .subtract _, some _ => .sub
  | .subtract _, none => .cmp
  | .and _, some _ => .and
  | .and _, none => .tst
  | .or _, _ => .orr
  | .xor _, _ => .eor
  | .move, _ => .mov

/-- The instruction with its operands in their fields. -/
def toInstruction (w : Word) (length : Nat) (d : DataProcessing) : Instruction :=
  d.operand.place
    { Instruction.plain d.opcode w length with
      rd := d.destination.map (·.val)
      rn := d.operation.first?.map (·.val)
      setFlags := d.setsFlags }

end DataProcessing

variable {w : Word}

/-! ### Narrow encodings -/

/-- The top five bits of a halfword and the three below them. -/
theorem parts_of_top (w : Word) :
  field w 11 5 = field w 8 8 / 8 % 32 ∧ field w 8 3 = field w 8 8 % 8
  := by
  have htop := Word.field_of_field w 8 3 (by decide : 3 + 5 ≤ 8)
  have hrest := Word.field_of_field w 8 0 (by decide : 0 + 3 ≤ 8)
  rw [Nat.shiftRight_eq_div_pow] at htop
  apply And.intro htop hrest

theorem filter_shiftImmediate (h : field w 11 5 ∈ NarrowFormat.shiftImmediate.prefixes) :
  (Narrow.read .shiftImmediate w).filter (·.computes) = (narrow? w).map (·.toInstruction w 2)
  := by
  have hshift : field w 11 2 = field w 11 5 % 4 := Word.field_of_field w 11 0 (by decide)
  simp only [NarrowFormat.prefixes, List.mem_cons, List.not_mem_nil, or_false] at h
  rw [narrow?, Narrow.read, Narrow.shiftImmediate, hshift]
  rcases h with h | h | h
  · rw [h, if_neg (fun hzero => hzero.2 rfl)]
    rfl
  · simp only [h, rightAmount, Shift.ofBits, ne_eq, reduceCtorEq, not_false_eq_true, and_true]
    rfl
  · simp only [h, rightAmount, Shift.ofBits, ne_eq, reduceCtorEq, not_false_eq_true, and_true]
    rfl

theorem filter_addSubtract (h : field w 11 5 ∈ NarrowFormat.addSubtract.prefixes) :
  (Narrow.read .addSubtract w).filter (·.computes) = (narrow? w).map (·.toInstruction w 2)
  := by
  rw [narrow?, Narrow.read, Narrow.addSubtract, List.mem_singleton.mp h]
  cases bit w 9 <;> cases bit w 10 <;> rfl

theorem filter_moveCompareImmediate
    (h : field w 11 5 ∈ NarrowFormat.moveCompareImmediate.prefixes) :
  (Narrow.read .moveCompareImmediate w).filter (·.computes)
    = (narrow? w).map (·.toInstruction w 2)
  := by
  have hoperation : field w 11 2 = field w 11 5 % 4 := Word.field_of_field w 11 0 (by decide)
  simp only [NarrowFormat.prefixes, List.mem_cons, List.not_mem_nil, or_false] at h
  rw [narrow?, Narrow.read, Narrow.moveCompareImmediate, hoperation]
  rcases h with h | h | h | h
  all_goals
    rw [h]
    rfl

theorem filter_addressGeneration (h : field w 11 5 ∈ NarrowFormat.addressGeneration.prefixes) :
  (Narrow.read .addressGeneration w).filter (·.computes) = (narrow? w).map (·.toInstruction w 2)
  := by
  have hbit : (field w 11 5).testBit 0 = bit w 11 := Word.testBit_field w 11 5 0
  simp only [NarrowFormat.prefixes, List.mem_cons, List.not_mem_nil, or_false] at h
  rw [narrow?, Narrow.read, Narrow.addressGeneration, ← hbit]
  rcases h with h | h
  all_goals
    rw [h]
    rfl

theorem filter_dataProcessing :
  (Narrow.read .dataProcessing w).filter (·.computes)
    = (twoRegisters? w).map (·.toInstruction w 2)
  := by
  have hoperation : field w 6 4 < 16 := Word.field_lt w 6 4
  rw [twoRegisters?, Narrow.read, Narrow.dataProcessing]
  generalize field w 6 4 = operation at *
  interval_cases operation <;> rfl

theorem filter_highRegisterOrExchange :
  (Narrow.read .highRegisterOrExchange w).filter (·.computes)
    = (anyRegisters? w).map (·.toInstruction w 2)
  := by
  have hoperation : field w 8 2 < 4 := Word.field_lt w 8 2
  rw [anyRegisters?, Narrow.read, Narrow.highRegisterOrExchange]
  generalize field w 8 2 = operation at *
  interval_cases operation
  · rfl
  · rfl
  · rfl
  · rcases Decidable.em (field w 0 3 ≠ 0) with hrest | hrest
    · rw [if_pos hrest]
      rfl
    · rw [if_neg hrest]
      cases bit w 7 <;> rfl

/-- The adjustment of the stack pointer, among the miscellaneous encodings. -/
theorem filter_adjustStack (h : field w 8 8 = 0xB0) :
  (Narrow.read .miscellaneous w).filter (·.computes) = (narrow? w).map (·.toInstruction w 2)
  := by
  obtain ⟨hfive, hrest⟩ := parts_of_top w
  rw [h] at hfive hrest
  rw [Narrow.read, Narrow.miscellaneous, if_pos (miscellaneous_adjusts_iff.mpr h),
    Narrow.adjustStack, narrow?, hfive, hrest]
  cases bit w 7 <;> rfl

/-- Either of two operations that do not compute. -/
theorem computes_of_either {i : Instruction} {choice : Bool} {first second : Opcode}
    (h : i.opcode = if choice then first else second) (hfirst : first.computes = false)
    (hsecond : second.computes = false) :
  i.computes = false
  := by
  rw [Instruction.computes, h]
  cases choice with
  | false => apply hsecond
  | true => apply hfirst

theorem computes_pushPop {i : Instruction} (h : Narrow.pushPop w = some i) :
  i.computes = false
  := by
  simp only [Narrow.pushPop] at h
  repeat' split at h
  all_goals cases h
  all_goals rfl

theorem computes_hint {i : Instruction} (h : Narrow.hint w = some i) :
  i.computes = false
  := by
  rw [Narrow.hint] at h
  split at h
  all_goals cases h
  all_goals rfl

/-- The formats of the instructions that compute. -/
theorem format_of_computes {format : NarrowFormat} {i : Instruction}
    (h : Narrow.read format w = some i) (hcomputes : i.computes = true) :
  format ∈ NarrowFormat.computing ∨ field w 8 8 = 0xB0
  := by
  cases format with
  | loadLiteral | branch =>
    cases h
    cases hcomputes
  | registerOffset =>
    simp only [Narrow.read, Narrow.registerOffset] at h
    split at h
    all_goals
      cases h
      cases hcomputes
  | stackOffset | wordOffset | byteOffset | halfwordOffset =>
    cases h
    rw [computes_of_either rfl rfl rfl] at hcomputes
    cases hcomputes
  | miscellaneous =>
    right
    apply miscellaneous_adjusts_iff.mp
    simp only [Narrow.read, Narrow.miscellaneous] at h
    split at h
    · assumption
    · split at h
      · rw [computes_pushPop h] at hcomputes
        cases hcomputes
      · split at h
        · cases h
          cases hcomputes
        · split at h
          · rw [computes_hint h] at hcomputes
            cases hcomputes
          · cases h
  | multiple =>
    simp only [Narrow.read, Narrow.multiple] at h
    split at h
    · cases h
    · cases h
      rw [computes_of_either rfl rfl rfl] at hcomputes
      cases hcomputes
  | conditionalBranchOrCall =>
    simp only [Narrow.read, Narrow.conditionalBranchOrCall] at h
    split at h
    all_goals cases h
    all_goals cases hcomputes
  | _ =>
    left
    decide

theorem narrow?_eq_none (hfive : 8 < field w 11 5) (haddress : field w 11 5 ∉ [20, 21])
    (hadjust : field w 8 8 ≠ 0xB0) :
  narrow? w = none
  := by
  obtain ⟨hfive', hrest⟩ := parts_of_top w
  have htop : field w 8 8 < 256 := Word.field_lt w 8 8
  simp only [List.mem_cons, List.not_mem_nil, or_false] at haddress
  rw [narrow?]
  split
  case h_12 =>
    apply if_neg
    omega
  all_goals first | rfl | omega

/-- The other formats, of which one has the adjustment of the stack pointer. -/
theorem filter_other {format : NarrowFormat} (hformat : format ∉ NarrowFormat.computing)
    (h : field w 11 5 ∈ format.prefixes) :
  (Narrow.read format w).filter (·.computes) = (narrow? w).map (·.toInstruction w 2)
  := by
  rcases Decidable.em (field w 8 8 = 0xB0) with hadjust | hadjust
  · have hmiscellaneous : format = .miscellaneous := by
      rw [(parts_of_top w).1, hadjust] at h
      revert h
      cases format <;> decide
    rw [hmiscellaneous, filter_adjustStack hadjust]
  · have hlist : ∀ top ∈ format.prefixes, 8 < top ∧ top ∉ [20, 21] := by
      revert hformat
      cases format <;> decide
    obtain ⟨hfive, haddress⟩ := hlist _ h
    rw [narrow?_eq_none hfive haddress hadjust]
    apply Option.filter_eq_none_iff.mpr
    intro i hread hcomputes
    rcases format_of_computes hread hcomputes with hcomputing | hadjust'
    · apply hformat hcomputing
    · apply hadjust hadjust'

/-- The halfwords that encode an instruction that computes. The top bits give the format. -/
theorem filter_narrow (h : w ≤ 0xFFFF) :
  (Narrow.decode w).filter (·.computes) = (narrow? w).map (·.toInstruction w 2)
  := by
  have htop : field w 10 6 < 64 := Word.field_lt w 10 6
  have hfive : field w 11 5 = field w 10 6 / 2 := by
    have hinner := Word.field_of_field w 10 1 (by decide : 1 + 5 ≤ 6)
    rw [Nat.shiftRight_eq_div_pow] at hinner
    change field w 11 5 = field w 10 6 / 2 % 32 at hinner
    omega
  have hsixth : (field w 10 6).testBit 0 = bit w 10 := Word.testBit_field w 10 6 0
  rw [Narrow.decode, NarrowFormat.of?_eq_ofTop h]
  cases hformat : NarrowFormat.ofTop (field w 10 6) with
  | none =>
    have hwide := NarrowFormat.ofTop_none _ htop hformat
    have hadjust : field w 8 8 ≠ 0xB0 := by
      have hparts := (parts_of_top w).1
      omega
    have haddress : field w 11 5 ∉ [20, 21] := by
      simp only [List.mem_cons, List.not_mem_nil, or_false]
      omega
    rw [narrow?_eq_none (by omega) haddress hadjust]
    rfl
  | some format =>
    have hmem : field w 11 5 ∈ format.prefixes := by
      rw [hfive]
      apply NarrowFormat.ofTop_mem_prefixes _ htop _ hformat
    change (Narrow.read format w).filter (·.computes) = _
    cases format with
    | shiftImmediate => apply filter_shiftImmediate hmem
    | addSubtract => apply filter_addSubtract hmem
    | moveCompareImmediate => apply filter_moveCompareImmediate hmem
    | addressGeneration => apply filter_addressGeneration hmem
    | dataProcessing =>
      rw [NarrowFormat.ofTop_dataProcessing _ htop hformat] at hsixth
      rw [filter_dataProcessing, narrow?, List.mem_singleton.mp hmem, ← hsixth]
      rfl
    | highRegisterOrExchange =>
      rw [NarrowFormat.ofTop_highRegisterOrExchange _ htop hformat] at hsixth
      rw [filter_highRegisterOrExchange, narrow?, List.mem_singleton.mp hmem, ← hsixth]
      rfl
    | _ => apply filter_other (by decide) hmem

/-! ### Wide encodings -/

theorem filter_modifiedImmediate (h : WideFormat.of? w = some .modifiedImmediate) :
  (Wide.read .modifiedImmediate w).filter (·.computes) = (wide? w).map (·.toInstruction w 4)
  := by
  have hoperation : field w 5 4 < 16 := Word.field_lt w 5 4
  have hfirst : any w 0 = 15 ↔ field w 0 4 = 15 := Fin.ext_iff
  have hcompares : any w 24 = 15 ∧ bit w 4 = true
      ↔ (field w 24 4 == 15 && bit w 4) = true := by
    rw [Bool.and_eq_true, beq_iff_eq]
    apply and_congr_left' Fin.ext_iff
  simp only [wide?, hfirst, hcompares]
  rw [if_pos ((WideFormat.of?_modifiedImmediate_iff w).mp h), Wide.read, Wide.modifiedImmediate]
  generalize field w 5 4 = operation at *
  interval_cases operation
  case «0» | «4» | «8» | «13» => cases field w 24 4 == 15 && bit w 4 <;> rfl
  case «2» =>
    rcases Decidable.em (field w 0 4 = 15) with hpc | hpc
    · rw [if_pos hpc, if_pos hpc]
      rfl
    · rw [if_neg hpc, if_neg hpc]
      rfl
  all_goals rfl

/-- The formats of the instructions that compute. -/
theorem wideFormat_of_computes {format : WideFormat} {i : Instruction}
    (h : Wide.read format w = some i) (hcomputes : i.computes = true) :
  format = .modifiedImmediate
  := by
  cases format with
  | modifiedImmediate => rfl
  | barrier =>
    simp only [Wide.read, Wide.barrier] at h
    split at h
    all_goals cases h
    all_goals cases hcomputes
  | wordOffset =>
    simp only [Wide.read, Wide.wordOffset] at h
    split at h
    · cases h
    · cases h
      rw [computes_of_either rfl rfl rfl] at hcomputes
      cases hcomputes
  | _ =>
    cases h
    cases hcomputes

/-- The pairs of halfwords that encode an instruction that computes. -/
theorem filter_wide (w : Word) :
  (Wide.decode w).filter (·.computes) = (wide? w).map (·.toInstruction w 4)
  := by
  rcases Decidable.em (WideFormat.of? w = some .modifiedImmediate) with h | h
  · rw [Wide.decode, h]
    apply filter_modifiedImmediate h
  · have hnone : wide? w = none := by
      rw [WideFormat.of?_modifiedImmediate_iff] at h
      apply if_neg h
    rw [hnone]
    apply Option.filter_eq_none_iff.mpr
    intro i hdecode hcomputes
    obtain ⟨format, hformat, hread⟩ := Option.bind_eq_some_iff.mp hdecode
    apply h
    rw [hformat, wideFormat_of_computes hread hcomputes]

/-! ### All encodings -/

/-- The instructions that compute are those of the reference. -/
theorem filter_decode (w : Word) (length : Nat) :
  (Instruction.decode? w length).filter (·.computes)
    = (decode? w length).map (·.toInstruction w length)
  := by
  match length with
  | 2 =>
    rw [Instruction.decode?, decode?]
    split
    · next h => apply filter_narrow h
    · rfl
  | 4 => apply filter_wide
  | 0 | 1 | 3 | _ + 5 => rfl

end Reference

end ThumbSoc
