import Mathlib.Tactic.IntervalCases
import ThumbSoc.Proofs.Encoding.Opcodes
import ThumbSoc.Proofs.SingleTransfer.Reference

/-!
# Decoded loads and stores

Every encoding that the decoder takes for the load or store of one register is one of the
reference, with the same register, address and width. Six narrow formats and a wide one have such
encodings, and they are told apart by the top bits of the first halfword.
-/

namespace ThumbSoc

open Word (field bit)

/-- Whether the instruction loads or stores a single register. -/
def Instruction.transfersOne (i : Instruction) : Bool :=
  match i.opcode with
  | .ldr | .str => true
  | _ => false

/-- The narrow formats of loads and stores of a single register. -/
def NarrowFormat.transferring : List NarrowFormat :=
  [loadLiteral, registerOffset, wordOffset, byteOffset, halfwordOffset, stackOffset]

/-- The other narrow formats have no loads or stores of a single register. -/
theorem NarrowFormat.mem_transferring {format : NarrowFormat} {w : Word} {i : Instruction}
    (h : Narrow.read format w = some i) (htransfers : i.transfersOne = true) :
  format ∈ transferring
  := by
  have hopcode := Narrow.read_opcode h
  rw [Instruction.transfersOne] at htransfers
  generalize i.opcode = opcode at hopcode htransfers
  revert opcode
  cases format <;> decide

/-- One wide format has loads and stores of a single register. -/
theorem WideFormat.eq_wordOffset {format : WideFormat} {w : Word} {i : Instruction}
    (h : Wide.read format w = some i) (htransfers : i.transfersOne = true) :
  format = wordOffset
  := by
  have hopcode := Wide.read_opcode h
  rw [Instruction.transfersOne] at htransfers
  generalize i.opcode = opcode at hopcode htransfers
  revert opcode
  cases format <;> decide

namespace Reference

/-- The operation of a direction. -/
def Direction.opcode : Direction → Opcode
  | load _ => .ldr
  | store => .str

/-- Whether a transfer in this direction extends the sign. -/
def Direction.signed : Direction → Bool
  | load signed => signed
  | store => false

namespace SingleTransfer

/-- The instruction with its operands in their fields. -/
def toInstruction (w : Word) (length : Nat) (t : SingleTransfer) : Instruction :=
  let i : Instruction :=
    { Instruction.plain t.direction.opcode w length with
      rd := some t.register
      width := t.width
      signed := t.direction.signed }
  match t.place with
  | .above base distance => { i with rn := some base, immediate := Int32.ofNat distance }
  | .indexed base index => { i with rn := some base, rm := some index }

variable {w : Word} {i : Instruction}

/-! ### Narrow encodings -/

/-- The direction that bit 11 gives. -/
def byTopBit (w : Word) : Direction :=
  if bit w 11 then .load false else .store

theorem byTopBit_eq (w : Word) :
  byTopBit w = if (field w 11 5).testBit 0 then .load false else .store
  := by
  rw [Word.testBit_field]
  rfl

theorem scaledOffset_eq (width : Width) :
  Narrow.scaledOffset width w = (scaled w (byTopBit w) width).toInstruction w 2
  := by
  change ({ Instruction.plain (if bit w 11 then .ldr else .str) w 2 with
    rd := some (field w 0 3)
    rn := some (field w 3 3)
    immediate := Int32.ofNat (field w 6 5 * width.bytes)
    width } : Instruction) = _
  rw [byTopBit]
  cases bit w 11 <;> rfl

theorem stackOffset_eq :
  Narrow.stackOffset w = (wordsAbove w (byTopBit w) stackPointer).toInstruction w 2
  := by
  change ({ Instruction.plain (if bit w 11 then .ldr else .str) w 2 with
    rd := some (field w 8 3)
    rn := some 13
    immediate := Int32.ofNat (4 * field w 0 8) } : Instruction) = _
  rw [byTopBit]
  cases bit w 11 <;> rfl

theorem registerOffset_eq :
  Narrow.registerOffset w = (sumOfRegisters w).toInstruction w 2
  := by
  have hkind : field w 9 3 < 8 := Word.field_lt w 9 3
  rw [Narrow.registerOffset, sumOfRegisters]
  generalize field w 9 3 = kind at *
  interval_cases kind <;> rfl

/-- In the formats with loads and stores, the top bits say which is encoded. -/
theorem read_eq {format : NarrowFormat} (hformat : format ∈ NarrowFormat.transferring)
    (h : field w 11 5 ∈ format.prefixes) :
  Narrow.read format w = (narrow? w).map (·.toInstruction w 2)
  := by
  cases format with
  | loadLiteral =>
    rw [narrow?, List.mem_singleton.mp h]
    rfl
  | registerOffset =>
    simp only [NarrowFormat.prefixes, List.mem_cons, List.not_mem_nil, or_false] at h
    rw [Narrow.read, registerOffset_eq, narrow?]
    rcases h with h | h
    all_goals
      rw [h]
      rfl
  | wordOffset | byteOffset | halfwordOffset =>
    simp only [NarrowFormat.prefixes, List.mem_cons, List.not_mem_nil, or_false] at h
    rw [Narrow.read, scaledOffset_eq, byTopBit_eq, narrow?]
    rcases h with h | h
    all_goals
      rw [h]
      rfl
  | stackOffset =>
    simp only [NarrowFormat.prefixes, List.mem_cons, List.not_mem_nil, or_false] at h
    rw [Narrow.read, stackOffset_eq, byTopBit_eq, narrow?]
    rcases h with h | h
    all_goals
      rw [h]
      rfl
  | _ => exact absurd hformat (by decide)

/-- The halfwords that encode a load or store of one register. -/
theorem narrow?_of_decode (hw : w ≤ 0xFFFF) (h : Narrow.decode w = some i)
    (htransfers : i.transfersOne = true) :
  ∃ t, narrow? w = some t ∧ t.toInstruction w 2 = i
  := by
  have htop : field w 10 6 < 64 := Word.field_lt w 10 6
  have hfive : field w 11 5 = field w 10 6 / 2 := by
    have hinner := Word.field_of_field w 10 1 (by decide : 1 + 5 ≤ 6)
    rw [Nat.shiftRight_eq_div_pow] at hinner
    change field w 11 5 = field w 10 6 / 2 % 32 at hinner
    omega
  obtain ⟨format, hformat, hread⟩ := Option.bind_eq_some_iff.mp h
  rw [NarrowFormat.of?_eq_ofTop hw] at hformat
  have hmem : field w 11 5 ∈ format.prefixes := by
    rw [hfive]
    apply NarrowFormat.ofTop_mem_prefixes _ htop _ hformat
  rw [read_eq (NarrowFormat.mem_transferring hread htransfers) hmem] at hread
  apply Option.map_eq_some_iff.mp hread

/-! ### Wide encodings -/

/-- The wide encodings with a distance of twelve bits are found by eleven bits. -/
theorem wordOffset_field (h : WideFormat.of? w = some .wordOffset) :
  field w 5 11 = 0b11111000110
  := by
  obtain ⟨entry, hfind, hformat⟩ := Option.map_eq_some_iff.mp h
  have hentry := List.find?_some hfind
  have hpattern : ∀ entry ∈ WideFormat.table, entry.2 = WideFormat.wordOffset →
      entry.1 = ⟨0x0000FFE0, 0x0000F8C0⟩ := by decide
  rw [hpattern entry (List.mem_of_find?_eq_some hfind) hformat] at hentry
  exact (Pattern.matches_field_iff (p := ⟨0x0000FFE0, 0x0000F8C0⟩) rfl (by decide) (by decide)
    (by decide) (by decide) w).mp hentry

/-- The pairs of halfwords that encode a load or store of one register. -/
theorem wide?_of_decode (h : Wide.decode w = some i) (htransfers : i.transfersOne = true) :
  ∃ t, wide? w = some t ∧ t.toInstruction w 4 = i
  := by
  obtain ⟨format, hformat, hread⟩ := Option.bind_eq_some_iff.mp h
  obtain rfl := WideFormat.eq_wordOffset hread htransfers
  have hbase : any w 0 = programCounter ↔ field w 0 4 = 15 := Fin.ext_iff
  simp only [Wide.read, Wide.wordOffset] at hread
  simp only [wide?, if_pos (wordOffset_field hformat), hbase]
  cases hload : bit w 4 with
  | true =>
    rw [hload] at hread
    cases hread
    exact ⟨_, rfl, rfl⟩
  | false =>
    rw [hload] at hread
    simp only [Bool.not_false, Bool.true_and, beq_iff_eq] at hread
    split at hread
    · cases hread
    · next hother =>
      cases hread
      rw [if_neg hother]
      exact ⟨_, rfl, rfl⟩

/-- The encodings of loads and stores of one register are those of the reference. -/
theorem decode?_of_decode {length : Nat} (h : Instruction.decode w length = .ok i)
    (htransfers : i.transfersOne = true) :
  ∃ t, decode? w length = some t ∧ t.toInstruction w length = i
  := by
  obtain ⟨rfl, hw, hnarrow⟩ | ⟨rfl, hwide⟩ := Instruction.decode_cases h
  · obtain ⟨t, ht, hi⟩ := narrow?_of_decode hw hnarrow htransfers
    use t
    rw [decode?, if_pos hw]
    use ht
  · apply wide?_of_decode hwide htransfers

end SingleTransfer

end Reference

end ThumbSoc
