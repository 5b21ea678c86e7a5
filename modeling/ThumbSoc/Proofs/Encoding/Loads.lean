import ThumbSoc.Encoding

/-!
# Decoded loads

What the encodings say about loads: only the narrow ones with a register offset extend the
sign, and they load a low register. A load into the program counter takes its value as it
comes.
-/

namespace ThumbSoc

/-- Of the narrow formats only the one with a register offset can extend the sign. -/
theorem Narrow.read_signed {format : NarrowFormat} {w : Word} {i : Instruction}
    (h : Narrow.read format w = some i) (hsigned : i.signed = true) :
  format = .registerOffset
  := by
  cases format with
  | registerOffset => rfl
  | moveCompareImmediate =>
    simp only [Narrow.read, Narrow.moveCompareImmediate] at h
    split at h
    all_goals
      cases h
      cases hsigned
  | dataProcessing =>
    simp only [Narrow.read, Narrow.dataProcessing] at h
    split at h
    all_goals
      cases h
    all_goals cases hsigned
  | highRegisterOrExchange =>
    simp only [Narrow.read, Narrow.highRegisterOrExchange] at h
    split at h
    case h_4 =>
      split at h
      · cases h
      · cases h
        cases hsigned
    all_goals
      cases h
      cases hsigned
  | miscellaneous =>
    simp only [Narrow.read, Narrow.miscellaneous, Narrow.pushPop, Narrow.hint] at h
    repeat' split at h
    all_goals cases h
    all_goals cases hsigned
  | multiple =>
    simp only [Narrow.read, Narrow.multiple] at h
    split at h
    · cases h
    · cases h
      cases hsigned
  | conditionalBranchOrCall =>
    simp only [Narrow.read, Narrow.conditionalBranchOrCall] at h
    split at h
    all_goals cases h
    all_goals cases hsigned
  | _ =>
    cases h
    cases hsigned

/-- A narrow instruction that extends the sign loads a low register. -/
theorem Narrow.decode_signed {w : Word} {i : Instruction} (h : Narrow.decode w = some i)
    (hsigned : i.signed = true) :
  ∃ rd < 8, i.rd = some rd
  := by
  obtain ⟨format, _, hread⟩ := Option.bind_eq_some_iff.mp h
  obtain rfl := Narrow.read_signed hread hsigned
  cases hread
  apply Exists.intro (Word.field w 0 3)
  apply And.intro (Word.field_lt w 0 3)
  rw [Narrow.registerOffset]
  simp only
  split <;> rfl

/-- No wide instruction extends the sign. -/
theorem Wide.decode_signed {w : Word} {i : Instruction} (h : Wide.decode w = some i) :
  i.signed = false
  := by
  obtain ⟨format, _, hread⟩ := Option.bind_eq_some_iff.mp h
  cases format with
  | barrier =>
    simp only [Wide.read, Wide.barrier] at hread
    split at hread
    all_goals cases hread
    all_goals rfl
  | modifiedImmediate =>
    simp only [Wide.read, Wide.modifiedImmediate] at hread
    repeat' split at hread
    all_goals cases hread
    all_goals rfl
  | wordOffset =>
    simp only [Wide.read, Wide.wordOffset] at hread
    split at hread
    · cases hread
    · cases hread
      rfl
  | _ =>
    cases hread
    rfl

/-- A load that extends the sign does not load the program counter. -/
theorem Instruction.decode_signed {w : Word} {length : Nat} {i : Instruction}
    (h : Instruction.decode w length = .ok i) (hsigned : i.signed = true) :
  i.rd ≠ some 15
  := by
  obtain ⟨_, _, hnarrow⟩ | ⟨_, hwide⟩ := decode_cases h
  · obtain ⟨rd, hlow, hrd⟩ := Narrow.decode_signed hnarrow hsigned
    rw [hrd]
    intro heq
    cases heq
    omega
  · rw [Wide.decode_signed hwide] at hsigned
    cases hsigned

end ThumbSoc
