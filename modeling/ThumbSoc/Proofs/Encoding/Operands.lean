import ThumbSoc.Proofs.DataProcessing.Decoding

/-!
# The operands of decoded instructions

What all encodings have in common. An encoding fills in the operands that its operation needs, it
leaves every other field neutral, and it names registers that exist. A second operand is given
in one of a few ways, which do not mix.
-/

namespace ThumbSoc

open Word (field bit)

namespace Instruction

variable (i : Instruction)

/-- The instruction with only those fields that its operation uses. A register displaces the
immediate, and the register of a shift its amount. -/
def trimmed : Instruction :=
  let bare := plain i.opcode i.raw i.length
  let immediate := if i.rm.isSome then 0 else i.immediate
  match i.opcode with
  | .mov =>
    { bare with
      rd := i.rd
      rs := i.rs
      rm := i.rm
      immediate
      setFlags := i.setFlags
      shiftAmount := if i.rs.isSome then 0 else i.shiftAmount
      shift := i.shift }
  | .add | .sub | .and | .orr | .eor =>
    { bare with
      rd := i.rd
      rn := i.rn
      rm := i.rm
      immediate
      setFlags := i.setFlags
      shiftAmount := i.shiftAmount
      shift := i.shift }
  | .cmp | .tst =>
    { bare with
      rn := i.rn
      rm := i.rm
      immediate
      setFlags := true
      shiftAmount := i.shiftAmount
      shift := i.shift }
  | .ldr | .str =>
    { bare with
      rd := i.rd
      rn := i.rn
      rm := i.rm
      immediate
      width := i.width
      signed := i.signed }
  | .b => { bare with condition := i.condition, immediate := i.immediate }
  | .bl | .svc => { bare with immediate := i.immediate }
  | .bx | .blx => { bare with rm := i.rm }
  | .ldm | .stm => { bare with rn := i.rn, registers := i.registers, writeback := i.writeback }
  | .push | .pop => { bare with rn := some 13, registers := i.registers }
  | .mrs => { bare with rd := i.rd, selector := i.selector }
  | .msr =>
    if i.rn.isSome then { bare with rn := i.rn, selector := i.selector }
    else { bare with immediate := i.immediate, selector := 16 }
  | .nop | .wfi | .udf => bare

/-- The operands without which the operation makes no sense are there. -/
def complete : Bool :=
  match i.opcode with
  | .mov | .mrs => i.rd.isSome
  | .add | .sub | .and | .orr | .eor | .ldr | .str => i.rd.isSome && i.rn.isSome
  | .cmp | .tst | .ldm | .stm => i.rn.isSome
  | .bx | .blx => i.rm.isSome
  | .msr => i.rn.isSome || i.immediate = 0 || i.immediate = 1
  | .udf => false
  | _ => true

/-- How the second operand of a computation is given. Only a move shifts a register. -/
inductive SecondOperand : Prop where
  | number
      (narrow : i.length = 2)
      (operands : i.rm = none ∧ i.rs = none)
      (unshifted : i.shift = .lsl ∧ i.shiftAmount = 0)
  | modified (bits : Fin 4096)
      (wide : i.length = 4)
      (operands : i.rm = none ∧ i.rs = none)
      (value : i.immediate = (Immediate.expand bits).toInt32)
      (rotated : i.shift = .ror ∧ i.shiftAmount = Immediate.rotation bits)
  | register
      (operands : i.rm.isSome ∧ i.rs = none)
      (unshifted : i.opcode ≠ .mov → i.shift = .lsl ∧ i.shiftAmount = 0)
  | shifted
      (move : i.opcode = .mov)
      (operands : i.rm.isSome ∧ i.rs.isSome)

/-- The registers that the instruction names. -/
def named : List Nat :=
  i.rd.toList ++ i.rs.toList ++ i.rm.toList ++ i.rn.toList

/-- What an instruction is like that `raw` encodes in `length` bytes. -/
structure Encoded (raw : Word) (length : Nat) : Prop where
  raw : i.raw = raw
  length : i.length = length
  trimmed : i.trimmed = i
  complete : i.complete = true
  second : i.opcode.computes = true → i.SecondOperand
  named : ∀ n ∈ i.named, n < 16
  condition : i.condition ≠ .always

variable {i}

theorem Encoded.opcode_ne {raw : Word} {length : Nat} (h : i.Encoded raw length) :
  i.opcode ≠ .udf
  := by
  intro hopcode
  have hcomplete := h.complete
  rw [Instruction.complete, hopcode] at hcomplete
  cases hcomplete

end Instruction

theorem Condition.ofBits_ne_always :
  ∀ bits < 15, Condition.ofBits bits ≠ .always
  := by decide

/-! ### Narrow encodings -/

namespace Narrow

open Instruction Reference

variable {w : Word} {i : Instruction}

theorem one_lt {a : Nat} (ha : a < 16) :
  ∀ n ∈ [a], n < 16
  := List.forall_mem_singleton.mpr ha

theorem two_lt {a b : Nat} (ha : a < 16) (hb : b < 16) :
  ∀ n ∈ [a, b], n < 16
  := List.forall_mem_cons.mpr ⟨ha, one_lt hb⟩

theorem three_lt {a b c : Nat} (ha : a < 16) (hb : b < 16) (hc : c < 16) :
  ∀ n ∈ [a, b, c], n < 16
  := List.forall_mem_cons.mpr ⟨ha, two_lt hb hc⟩

/-- An instruction that does not compute. -/
theorem encoded_plain {raw : Word} {length : Nat} (hraw : i.raw = raw) (hlength : i.length = length)
    (htrimmed : i.trimmed = i) (hcomplete : i.complete = true) (hplain : i.opcode.computes = false)
    (hnamed : ∀ n ∈ i.named, n < 16) (hcondition : i.condition ≠ .always) :
  i.Encoded raw length
  := by
  refine ⟨hraw, hlength, htrimmed, hcomplete, ?_, hnamed, hcondition⟩
  intro hcomputes
  rw [hplain] at hcomputes
  cases hcomputes

/-- An instruction that computes. -/
theorem encoded_second {raw : Word} {length : Nat} (hraw : i.raw = raw)
    (hlength : i.length = length) (htrimmed : i.trimmed = i) (hcomplete : i.complete = true)
    (hsecond : i.SecondOperand) (hnamed : ∀ n ∈ i.named, n < 16) (hcondition : i.condition = .al) :
  i.Encoded raw length
  := by
  refine ⟨hraw, hlength, htrimmed, hcomplete, fun _ => hsecond, hnamed, ?_⟩
  rw [hcondition]
  rintro ⟨⟩

theorem shiftImmediate_encoded (w : Word) :
  (shiftImmediate w).Encoded w 2
  := by
  apply encoded_second rfl rfl rfl rfl _ _ rfl
  · exact .register ⟨rfl, rfl⟩ fun hmove => absurd rfl hmove
  · exact two_lt (low w 0).isLt (low w 3).isLt

theorem addSubtract_encoded (w : Word) :
  (addSubtract w).Encoded w 2
  := by
  rw [addSubtract]
  cases bit w 10 with
  | true =>
    cases bit w 9
    all_goals
      apply encoded_second rfl rfl rfl rfl _ _ rfl
      · exact .number rfl ⟨rfl, rfl⟩ ⟨rfl, rfl⟩
      · exact two_lt (low w 0).isLt (low w 3).isLt
  | false =>
    cases bit w 9
    all_goals
      apply encoded_second rfl rfl rfl rfl _ _ rfl
      · exact .register ⟨rfl, rfl⟩ fun _ => ⟨rfl, rfl⟩
      · exact three_lt (low w 0).isLt (low w 6).isLt (low w 3).isLt

theorem moveCompareImmediate_encoded (w : Word) :
  (moveCompareImmediate w).Encoded w 2
  := by
  rw [moveCompareImmediate]
  simp only
  split
  all_goals
    apply encoded_second rfl rfl rfl rfl (.number rfl ⟨rfl, rfl⟩ ⟨rfl, rfl⟩) _ rfl
  · exact one_lt (low w 8).isLt
  · exact one_lt (low w 8).isLt
  · exact two_lt (low w 8).isLt (low w 8).isLt
  · exact two_lt (low w 8).isLt (low w 8).isLt

theorem dataProcessing_encoded (h : dataProcessing w = some i) :
  i.Encoded w 2
  := by
  have hfirst := (low w 0).isLt
  have hsecond := (low w 3).isLt
  simp only [dataProcessing] at h
  split at h
  case h_1 | h_2 | h_9 =>
    cases h
    apply encoded_second rfl rfl rfl rfl _ _ rfl
    · exact .register ⟨rfl, rfl⟩ fun _ => ⟨rfl, rfl⟩
    · exact three_lt hfirst hsecond hfirst
  case h_7 | h_8 =>
    cases h
    apply encoded_second rfl rfl rfl rfl _ _ rfl
    · exact .register ⟨rfl, rfl⟩ fun _ => ⟨rfl, rfl⟩
    · exact two_lt hsecond hfirst
  case h_10 => cases h
  -- The shifts by a register.
  all_goals
    cases h
    apply encoded_second rfl rfl rfl rfl _ _ rfl
    · exact .shifted rfl ⟨rfl, rfl⟩
    · exact three_lt hfirst hsecond hfirst

theorem highRegisterOrExchange_encoded (h : highRegisterOrExchange w = some i) :
  i.Encoded w 2
  := by
  have hfirst := (high w).isLt
  have hsecond := (any w 3).isLt
  simp only [highRegisterOrExchange] at h
  split at h
  · cases h
    apply encoded_second rfl rfl rfl rfl (.register ⟨rfl, rfl⟩ fun _ => ⟨rfl, rfl⟩) _ rfl
    exact three_lt hfirst hsecond hfirst
  · cases h
    apply encoded_second rfl rfl rfl rfl (.register ⟨rfl, rfl⟩ fun _ => ⟨rfl, rfl⟩) _ rfl
    exact two_lt hsecond hfirst
  · cases h
    apply encoded_second rfl rfl rfl rfl (.register ⟨rfl, rfl⟩ fun _ => ⟨rfl, rfl⟩) _ rfl
    exact two_lt hfirst hsecond
  · split at h
    · cases h
    · cases h
      cases bit w 7
      all_goals
        apply encoded_plain rfl rfl rfl rfl rfl _ (by rintro ⟨⟩)
        exact one_lt hsecond

theorem loadLiteral_encoded (w : Word) :
  (loadLiteral w).Encoded w 2
  := by
  apply encoded_plain rfl rfl rfl rfl rfl _ (by rintro ⟨⟩)
  exact two_lt (low w 8).isLt (by decide)

theorem registerOffset_encoded (w : Word) :
  (registerOffset w).Encoded w 2
  := by
  rw [registerOffset]
  simp only
  split
  all_goals
    apply encoded_plain rfl rfl rfl rfl rfl _ (by rintro ⟨⟩)
    exact three_lt (low w 0).isLt (low w 6).isLt (low w 3).isLt

theorem scaledOffset_encoded (width : Width) (w : Word) :
  (scaledOffset width w).Encoded w 2
  := by
  change ({ plain (if bit w 11 then .ldr else .str) w 2 with
    rd := some (field w 0 3)
    rn := some (field w 3 3)
    immediate := Int32.ofNat (field w 6 5 * width.bytes)
    width } : Instruction).Encoded w 2
  cases bit w 11
  all_goals
    apply encoded_plain rfl rfl rfl rfl rfl _ (by rintro ⟨⟩)
    exact two_lt (low w 0).isLt (low w 3).isLt

theorem stackOffset_encoded (w : Word) :
  (stackOffset w).Encoded w 2
  := by
  change ({ plain (if bit w 11 then .ldr else .str) w 2 with
    rd := some (field w 8 3)
    rn := some 13
    immediate := Int32.ofNat (4 * field w 0 8) } : Instruction).Encoded w 2
  cases bit w 11
  all_goals
    apply encoded_plain rfl rfl rfl rfl rfl _ (by rintro ⟨⟩)
    exact two_lt (low w 8).isLt (by decide)

theorem addressGeneration_encoded (w : Word) :
  (addressGeneration w).Encoded w 2
  := by
  rw [addressGeneration]
  cases bit w 11
  all_goals
    apply encoded_second rfl rfl rfl rfl (.number rfl ⟨rfl, rfl⟩ ⟨rfl, rfl⟩) _ rfl
    exact two_lt (low w 8).isLt (by decide)

theorem adjustStack_encoded (w : Word) :
  (adjustStack w).Encoded w 2
  := by
  rw [adjustStack]
  cases bit w 7
  all_goals
    apply encoded_second rfl rfl rfl rfl (.number rfl ⟨rfl, rfl⟩ ⟨rfl, rfl⟩) _ rfl
    exact two_lt (by decide) (by decide)

theorem pushPop_encoded (h : pushPop w = some i) :
  i.Encoded w 2
  := by
  simp only [pushPop] at h
  generalize field w 0 8 + _ = list at h
  split at h
  · cases h
  · cases h
    cases bit w 11
    all_goals
      apply encoded_plain rfl rfl rfl rfl rfl _ (by rintro ⟨⟩)
      exact one_lt (by decide)

theorem hint_encoded (h : hint w = some i) :
  i.Encoded w 2
  := by
  rw [hint] at h
  split at h
  case h_6 => cases h
  all_goals
    cases h
    apply encoded_plain rfl rfl rfl rfl rfl _ (by rintro ⟨⟩)
    exact List.forall_mem_nil _

theorem miscellaneous_encoded (h : miscellaneous w = some i) :
  i.Encoded w 2
  := by
  rw [miscellaneous] at h
  split at h
  · cases h
    apply adjustStack_encoded
  · split at h
    · apply pushPop_encoded h
    · split at h
      · cases h
        have hoff : field w 4 1 = 0 ∨ field w 4 1 = 1 := by
          have hlt : field w 4 1 < 2 := Word.field_lt w 4 1
          omega
        rcases hoff with hoff | hoff
        all_goals
          rw [hoff]
          apply encoded_plain rfl rfl rfl rfl rfl _ (by rintro ⟨⟩)
          exact List.forall_mem_nil _
      · split at h
        · apply hint_encoded h
        · cases h

theorem multiple_encoded (h : multiple w = some i) :
  i.Encoded w 2
  := by
  simp only [multiple] at h
  split at h
  · cases h
  · cases h
    cases bit w 11
    all_goals
      apply encoded_plain rfl rfl rfl rfl rfl _ (by rintro ⟨⟩)
      exact one_lt (low w 8).isLt

theorem conditionalBranchOrCall_encoded (h : conditionalBranchOrCall w = some i) :
  i.Encoded w 2
  := by
  have hcondition : field w 8 4 < 16 := Word.field_lt w 8 4
  rw [conditionalBranchOrCall] at h
  split at h
  · cases h
  · cases h
    apply encoded_plain rfl rfl rfl rfl rfl _ (by rintro ⟨⟩)
    exact List.forall_mem_nil _
  · next hother =>
    cases h
    apply encoded_plain rfl rfl rfl rfl rfl
    · exact List.forall_mem_nil _
    · have hne : field w 8 4 ≠ 15 := hother
      apply Condition.ofBits_ne_always _ (by omega)

theorem branch_encoded (w : Word) :
  (branch w).Encoded w 2
  := by
  apply encoded_plain rfl rfl rfl rfl rfl _ (by rintro ⟨⟩)
  exact List.forall_mem_nil _

/-- The instructions of one halfword. -/
theorem decode_encoded (h : decode w = some i) :
  i.Encoded w 2
  := by
  obtain ⟨format, _, hread⟩ := Option.bind_eq_some_iff.mp h
  cases format with
  | dataProcessing => exact dataProcessing_encoded hread
  | highRegisterOrExchange => exact highRegisterOrExchange_encoded hread
  | miscellaneous => exact miscellaneous_encoded hread
  | multiple => exact multiple_encoded hread
  | conditionalBranchOrCall => exact conditionalBranchOrCall_encoded hread
  | shiftImmediate =>
    cases hread
    exact shiftImmediate_encoded w
  | addSubtract =>
    cases hread
    exact addSubtract_encoded w
  | moveCompareImmediate =>
    cases hread
    exact moveCompareImmediate_encoded w
  | loadLiteral =>
    cases hread
    exact loadLiteral_encoded w
  | registerOffset =>
    cases hread
    exact registerOffset_encoded w
  | wordOffset | byteOffset | halfwordOffset =>
    cases hread
    apply scaledOffset_encoded
  | stackOffset =>
    cases hread
    exact stackOffset_encoded w
  | addressGeneration =>
    cases hread
    exact addressGeneration_encoded w
  | branch =>
    cases hread
    exact branch_encoded w

end Narrow

/-! ### Wide encodings -/

namespace Wide

open Instruction Reference Narrow

variable {w : Word} {i : Instruction}

theorem modifiedImmediate_encoded (h : modifiedImmediate w = some i) :
  i.Encoded w 4
  := by
  have hfirst := (any w 0).isLt
  have hdestination := (any w 24).isLt
  have second {i : Instruction} (hlength : i.length = 4) (hoperands : i.rm = none ∧ i.rs = none)
      (hvalue : i.immediate = (Immediate.expand (immediateBits w)).toInt32)
      (hrotated : i.shift = .ror ∧ i.shiftAmount = Immediate.rotation (immediateBits w)) :
      i.SecondOperand :=
    .modified (immediateBits w) hlength hoperands hvalue hrotated
  rw [modifiedImmediate] at h
  simp only at h
  split at h
  case h_1 | h_5 =>
    cases h
    split
    · next hcompares =>
      have hflags : bit w 4 = true := (Bool.and_eq_true _ _ ▸ hcompares).2
      rw [hflags]
      apply encoded_second rfl rfl rfl rfl _ _ rfl
      · exact second rfl ⟨rfl, rfl⟩ rfl ⟨rfl, rfl⟩
      · exact one_lt hfirst
    · apply encoded_second rfl rfl rfl rfl _ _ rfl
      · exact second rfl ⟨rfl, rfl⟩ rfl ⟨rfl, rfl⟩
      · exact two_lt hdestination hfirst
  case h_2 =>
    cases h
    split
    · apply encoded_second rfl rfl rfl rfl _ _ rfl
      · exact second rfl ⟨rfl, rfl⟩ rfl ⟨rfl, rfl⟩
      · exact one_lt hdestination
    · apply encoded_second rfl rfl rfl rfl _ _ rfl
      · exact second rfl ⟨rfl, rfl⟩ rfl ⟨rfl, rfl⟩
      · exact two_lt hdestination hfirst
  case h_3 | h_4 =>
    split at h
    · cases h
    · cases h
      apply encoded_second rfl rfl rfl rfl _ _ rfl
      · exact second rfl ⟨rfl, rfl⟩ rfl ⟨rfl, rfl⟩
      · exact two_lt hdestination hfirst
  case h_6 => cases h

theorem decode_encoded (h : decode w = some i) :
  i.Encoded w 4
  := by
  obtain ⟨format, _, hread⟩ := Option.bind_eq_some_iff.mp h
  cases format with
  | branchWithLink =>
    cases hread
    apply encoded_plain rfl rfl rfl rfl rfl _ (by rintro ⟨⟩)
    exact List.forall_mem_nil _
  | barrier =>
    simp only [read, barrier] at hread
    split at hread
    case h_4 => cases hread
    all_goals
      cases hread
      apply encoded_plain rfl rfl rfl rfl rfl _ (by rintro ⟨⟩)
      exact List.forall_mem_nil _
  | moveToSpecial =>
    cases hread
    apply encoded_plain rfl rfl rfl rfl rfl _ (by rintro ⟨⟩)
    exact one_lt (any w 0).isLt
  | moveFromSpecial =>
    cases hread
    apply encoded_plain rfl rfl rfl rfl rfl _ (by rintro ⟨⟩)
    exact one_lt (any w 24).isLt
  | modifiedImmediate => exact modifiedImmediate_encoded hread
  | wordOffset =>
    simp only [read, wordOffset] at hread
    split at hread
    · cases hread
    · cases hread
      cases bit w 4
      all_goals
        apply encoded_plain rfl rfl rfl rfl rfl _ (by rintro ⟨⟩)
        exact two_lt (any w 28).isLt (any w 0).isLt

end Wide

/-- Decoded instructions are well formed. -/
theorem Instruction.decode_encoded {w : Word} {length : Nat} {i : Instruction}
    (h : Instruction.decode w length = .ok i) :
  i.Encoded w length
  := by
  obtain ⟨rfl, _, hnarrow⟩ | ⟨rfl, hwide⟩ := decode_cases h
  · exact Narrow.decode_encoded hnarrow
  · exact Wide.decode_encoded hwide

end ThumbSoc
