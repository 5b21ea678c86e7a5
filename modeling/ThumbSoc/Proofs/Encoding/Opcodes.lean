import ThumbSoc.Encoding
import ThumbSoc.Proofs.Encoding.Formats

/-!
# The operations of the formats

Which operations the encodings of a format can stand for. Whatever is decoded in a format has one
of its operations, so an operation leads back to a few formats.
-/

namespace ThumbSoc

open Word (bit)

/-- The operations that the halfwords of a format encode. -/
def NarrowFormat.opcodes : NarrowFormat → List Opcode
  | shiftImmediate => [.mov]
  | addSubtract => [.add, .sub]
  | moveCompareImmediate => [.mov, .cmp, .add, .sub]
  | dataProcessing => [.and, .eor, .mov, .tst, .cmp, .orr]
  | highRegisterOrExchange => [.add, .cmp, .mov, .bx, .blx]
  | loadLiteral => [.ldr]
  | registerOffset | wordOffset | byteOffset | halfwordOffset | stackOffset => [.ldr, .str]
  | addressGeneration => [.add]
  | miscellaneous => [.add, .sub, .push, .pop, .msr, .nop, .wfi]
  | multiple => [.ldm, .stm]
  | conditionalBranchOrCall => [.b, .svc]
  | branch => [.b]

/-- The operations that the pairs of halfwords of a format encode. -/
def WideFormat.opcodes : WideFormat → List Opcode
  | branchWithLink => [.bl]
  | barrier => [.nop]
  | moveToSpecial => [.msr]
  | moveFromSpecial => [.mrs]
  | modifiedImmediate => [.and, .tst, .orr, .mov, .eor, .add, .sub, .cmp]
  | wordOffset => [.ldr, .str]

variable {w : Word} {i : Instruction}

theorem Narrow.read_opcode {format : NarrowFormat} (h : read format w = some i) :
  i.opcode ∈ format.opcodes
  := by
  apply List.contains_iff_mem.mp
  cases format with
  | shiftImmediate | loadLiteral | addressGeneration | branch =>
    cases h
    rfl
  | addSubtract =>
    cases h
    change NarrowFormat.addSubtract.opcodes.contains (if bit w 9 then .sub else .add) = true
    cases bit w 9 <;> rfl
  | wordOffset | byteOffset | halfwordOffset | stackOffset =>
    cases h
    change [Opcode.ldr, .str].contains (if bit w 11 then .ldr else .str) = true
    cases bit w 11 <;> rfl
  | moveCompareImmediate =>
    simp only [read, moveCompareImmediate] at h
    split at h
    all_goals
      cases h
      rfl
  | registerOffset =>
    simp only [read, registerOffset] at h
    split at h
    all_goals
      cases h
      rfl
  | dataProcessing =>
    simp only [read, dataProcessing] at h
    split at h
    all_goals cases h
    all_goals rfl
  | highRegisterOrExchange =>
    simp only [read, highRegisterOrExchange] at h
    repeat' split at h
    all_goals cases h
    all_goals rfl
  | miscellaneous =>
    simp only [read, miscellaneous, adjustStack, pushPop, hint] at h
    repeat' split at h
    all_goals cases h
    all_goals rfl
  | multiple =>
    simp only [read, multiple] at h
    repeat' split at h
    all_goals cases h
    all_goals rfl
  | conditionalBranchOrCall =>
    simp only [read, conditionalBranchOrCall] at h
    split at h
    all_goals cases h
    all_goals rfl

theorem Wide.read_opcode {format : WideFormat} (h : read format w = some i) :
  i.opcode ∈ format.opcodes
  := by
  apply List.contains_iff_mem.mp
  cases format with
  | branchWithLink | moveToSpecial | moveFromSpecial =>
    cases h
    rfl
  | barrier =>
    simp only [read, barrier] at h
    split at h
    all_goals cases h
    all_goals rfl
  | modifiedImmediate =>
    simp only [read, modifiedImmediate] at h
    repeat' split at h
    all_goals cases h
    all_goals rfl
  | wordOffset =>
    simp only [read, wordOffset] at h
    repeat' split at h
    all_goals cases h
    all_goals rfl

end ThumbSoc
