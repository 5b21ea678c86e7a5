import Mathlib.Data.List.Find
import ThumbSoc.Encoding.Format
import ThumbSoc.Proofs.Word

/-!
# Words and formats, bit by bit

A field is its bits, and a word matches a pattern when it has the right bits. So the narrow
formats are told apart by the top bits of a halfword, and the wide encodings with a modified
immediate are found by seven bits although other patterns come before theirs.
-/

namespace ThumbSoc

open Word (field bit)

/-! ### Bits of words and fields -/

namespace Word

theorem bit_and (w mask : Word) (i : Nat) :
  bit (w &&& mask) i = (bit w i && bit mask i)
  := by rw [bit, UInt32.toNat_and, Nat.testBit_and, bit, bit]

theorem bit_or (w v : Word) (i : Nat) :
  bit (w ||| v) i = (bit w i || bit v i)
  := by rw [bit, UInt32.toNat_or, Nat.testBit_or, bit, bit]

theorem bit_xor (w v : Word) (i : Nat) :
  bit (w ^^^ v) i = (bit w i ^^ bit v i)
  := by rw [bit, UInt32.toNat_xor, Nat.testBit_xor, bit, bit]

theorem bit_of_le (w : Word) {i : Nat} (h : 32 ≤ i) :
  bit w i = false
  := by
  apply Nat.testBit_lt_two_pow
  apply Nat.lt_of_lt_of_le w.toNat_lt
  apply Nat.pow_le_pow_right (by decide) h

theorem bit_and_not (w mask : Word) (i : Nat) :
  bit (w &&& ~~~mask) i = (bit w i && !bit mask i)
  := by
  have hnot : UInt32.size - 1 - mask.toNat = 2 ^ 32 - (mask.toNat + 1) := by
    change UInt32.size - 1 - mask.toNat = UInt32.size - (mask.toNat + 1)
    omega
  rcases Nat.lt_or_ge i 32 with hi | hi
  · rw [bit_and, bit, bit, UInt32.toNat_not, hnot, Nat.testBit_two_pow_sub_succ mask.toNat_lt,
      decide_eq_true hi, Bool.true_and, bit]
  · rw [bit_of_le _ hi, bit_of_le w hi, Bool.false_and]

theorem ext_bit {w v : Word} (h : ∀ i < 32, bit w i = bit v i) :
  w = v
  := by
  apply UInt32.toNat_inj.mp
  apply Nat.eq_of_testBit_eq
  intro i
  change bit w i = bit v i
  rcases Nat.lt_or_ge i 32 with hi | hi
  · apply h i hi
  · rw [bit_of_le w hi, bit_of_le v hi]

theorem testBit_field (w : Word) (lsb width i : Nat) :
  (field w lsb width).testBit i = (decide (i < width) && bit w (lsb + i))
  := by
  have hpow : Nat.pow 2 width = 2 ^ width := rfl
  rw [field, hpow, Nat.testBit_mod_two_pow, Nat.testBit_shiftRight, bit]

theorem field_eq_iff {w : Word} {lsb width n : Nat} (hn : n < Nat.pow 2 width) :
  field w lsb width = n ↔ ∀ i < width, bit w (lsb + i) = n.testBit i
  := by
  constructor
  · rintro rfl i hi
    rw [testBit_field, decide_eq_true hi, Bool.true_and]
  · intro h
    apply Nat.eq_of_testBit_eq
    intro i
    rw [testBit_field]
    rcases Nat.lt_or_ge i width with hi | hi
    · rw [h i hi, decide_eq_true hi, Bool.true_and]
    · have hpow : Nat.pow 2 width ≤ 2 ^ i := Nat.pow_le_pow_right (by decide) hi
      rw [decide_eq_false (Nat.not_lt_of_le hi), Bool.false_and,
        Nat.testBit_lt_two_pow (Nat.lt_of_lt_of_le hn hpow)]

/-- A field inside another one. -/
theorem field_of_field (w : Word) (lsb inner : Nat) {width bits : Nat}
    (h : inner + bits ≤ width) :
  field w (lsb + inner) bits = field w lsb width >>> inner % Nat.pow 2 bits
  := by
  have hpow : Nat.pow 2 bits = 2 ^ bits := rfl
  apply Nat.eq_of_testBit_eq
  intro i
  rw [hpow, Nat.testBit_mod_two_pow, Nat.testBit_shiftRight, testBit_field, testBit_field,
    Nat.add_assoc]
  rcases Nat.lt_or_ge i bits with hi | hi
  · have hin : inner + i < width := by omega
    rw [decide_eq_true hi, decide_eq_true hin, Bool.true_and, Bool.true_and]
  · rw [decide_eq_false (Nat.not_lt_of_le hi), Bool.false_and, Bool.false_and]

/-- A field that reaches up to the top of a halfword. -/
theorem field_of_le {w : Word} (h : w ≤ 0xFFFF) {lsb width : Nat} (hsum : lsb + width = 16) :
  field w lsb width = w.toNat / Nat.pow 2 lsb
  := by
  have hpow : Nat.pow 2 width = 2 ^ width := rfl
  have hw : w.toNat < Nat.pow 2 16 := Nat.lt_succ_of_le (UInt32.le_iff_toNat_le.mp h)
  rw [field, Nat.shiftRight_eq_div_pow]
  apply Nat.mod_eq_of_lt
  apply Nat.div_lt_of_lt_mul
  rw [hpow, ← Nat.pow_add, hsum]
  apply hw

end Word

/-! ### Patterns -/

namespace Pattern

/-- A word matches when it agrees with the value on the bits of the mask. -/
theorem matches_iff {p : Pattern} (hvalue : p.value &&& p.mask = p.value) (w : Word) :
  p.matches w = true ↔ ∀ i < 32, bit p.mask i = true → bit w i = bit p.value i
  := by
  rw [Pattern.matches, beq_iff_eq]
  constructor
  · intro h i _ hi
    rw [← h, Word.bit_and, hi, Bool.and_true]
  · intro h
    apply Word.ext_bit
    intro i hi
    rw [← hvalue, Word.bit_and, Word.bit_and]
    cases hmask : bit p.mask i with
    | true => rw [h i hi hmask]
    | false => rw [Bool.and_false, Bool.and_false]

/-- A pattern whose mask is a field is about the number in that field. -/
theorem matches_field_iff {p : Pattern} {lsb width n : Nat}
    (hvalue : p.value &&& p.mask = p.value)
    (hmask : ∀ i < 32, bit p.mask i = true ↔ lsb ≤ i ∧ i < lsb + width)
    (hwidth : lsb + width ≤ 32) (hn : n < Nat.pow 2 width)
    (hbits : ∀ i < width, bit p.value (lsb + i) = n.testBit i) (w : Word) :
  p.matches w = true ↔ field w lsb width = n
  := by
  rw [matches_iff hvalue, Word.field_eq_iff hn]
  constructor
  · intro h i hi
    rw [h (lsb + i) (by omega) ((hmask _ (by omega)).mpr (by omega)), hbits i hi]
  · intro h i hi hset
    obtain ⟨hle, hlt⟩ := (hmask i hi).mp hset
    obtain ⟨j, rfl⟩ := Nat.exists_eq_add_of_le hle
    rw [h j (by omega), hbits j (by omega)]

/-- A word that differs from the value in a bit of the mask does not match. -/
theorem matches_eq_false {p : Pattern} {w : Word} {i : Nat} (hmask : bit p.mask i = true)
    (h : bit w i ≠ bit p.value i) :
  p.matches w = false
  := by
  apply Bool.eq_false_iff.mpr
  intro hmatches
  apply h
  rw [← beq_iff_eq.mp hmatches, Word.bit_and, hmask, Bool.and_true]

/-- Bits that no pattern looks at do not matter. -/
theorem lookup_and {α : Type} {table : List (Pattern × α)} {mask : Word}
    (h : ∀ entry ∈ table, mask &&& entry.1.mask = entry.1.mask) (w : Word) :
  lookup table (w &&& mask) = lookup table w
  := by
  have hfind : table.find? (fun entry => entry.1.matches (w &&& mask))
      = table.find? fun entry => entry.1.matches w := by
    apply List.find?_congr
    intro entry hentry
    rw [Pattern.matches, UInt32.and_assoc, h entry hentry, Pattern.matches]
  rw [lookup, hfind, lookup]

end Pattern

namespace NarrowFormat

/-- The format of the halfwords with the given top six bits. -/
def ofTop (top : Nat) : Option NarrowFormat :=
  of? (UInt32.ofNat (1024 * top))

theorem of?_eq_ofTop {w : Word} (h : w ≤ 0xFFFF) :
  of? w = ofTop (field w 10 6)
  := by
  have hmasks : ∀ entry ∈ table, ~~~0x3FF &&& entry.1.mask = entry.1.mask := by decide
  have htop : w &&& ~~~0x3FF = UInt32.ofNat (1024 * field w 10 6) := by
    have hround : (w &&& ~~~0x3FF).toNat = w.toNat - w.toNat % 1024 :=
      Word.toNat_and_not (k := 10) rfl
    have hfield : field w 10 6 = w.toNat / 1024 := Word.field_of_le h rfl
    have hw := w.toNat_lt
    apply UInt32.toNat_inj.mp
    rw [hround, hfield, UInt32.toNat_ofNat']
    omega
  rw [of?, ← Pattern.lookup_and hmasks, htop, ofTop, of?]

/-- The top five bits of the halfwords of a format. -/
def prefixes : NarrowFormat → List Nat
  | shiftImmediate => [0, 1, 2]
  | addSubtract => [3]
  | moveCompareImmediate => [4, 5, 6, 7]
  | dataProcessing | highRegisterOrExchange => [8]
  | loadLiteral => [9]
  | registerOffset => [10, 11]
  | wordOffset => [12, 13]
  | byteOffset => [14, 15]
  | halfwordOffset => [16, 17]
  | stackOffset => [18, 19]
  | addressGeneration => [20, 21]
  | miscellaneous => [22, 23]
  | multiple => [24, 25]
  | conditionalBranchOrCall => [26, 27]
  | branch => [28]

theorem ofTop_mem_prefixes :
  ∀ top < 64, ∀ format ∈ ofTop top, top / 2 ∈ format.prefixes
  := by decide

theorem ofTop_none :
  ∀ top < 64, ofTop top = none → 29 ≤ top / 2
  := by decide

/-- The sixth bit separates the two formats with a common prefix. -/
theorem ofTop_dataProcessing :
  ∀ top < 64, ofTop top = some dataProcessing → top = 16
  := by decide

theorem ofTop_highRegisterOrExchange :
  ∀ top < 64, ofTop top = some highRegisterOrExchange → top = 17
  := by decide

end NarrowFormat

namespace WideFormat

/-- The pattern of modified immediates. -/
def modifiedImmediatePattern : Pattern :=
  ⟨0x8000FA00, 0x0000F000⟩

theorem modifiedImmediatePattern_matches_iff (w : Word) :
  modifiedImmediatePattern.matches w = true
    ↔ field w 11 5 = 0b11110 ∧ bit w 9 = false ∧ bit w 31 = false
  := by
  have hmask : ∀ i < 32, bit modifiedImmediatePattern.mask i = true
      ↔ i ∈ [9, 11, 12, 13, 14, 15, 31] := by decide
  rw [Pattern.matches_iff rfl, Word.field_eq_iff (by decide)]
  constructor
  · intro h
    constructor
    · intro i hi
      have hin : 11 + i ∈ [9, 11, 12, 13, 14, 15, 31] := by decide +revert
      rw [h (11 + i) (by omega) ((hmask _ (by omega)).mpr hin)]
      decide +revert
    · apply And.intro (h 9 (by decide) (by decide)) (h 31 (by decide) (by decide))
  · rintro ⟨hfield, hbit, htop⟩ i hi hi'
    have hin := (hmask i hi).mp hi'
    simp only [List.mem_cons, List.not_mem_nil, or_false] at hin
    rcases hin with rfl | rfl | rfl | rfl | rfl | rfl | rfl
    · apply hbit
    · apply hfield 0 (by decide)
    · apply hfield 1 (by decide)
    · apply hfield 2 (by decide)
    · apply hfield 3 (by decide)
    · apply hfield 4 (by decide)
    · apply htop

theorem of?_modifiedImmediate_iff (w : Word) :
  of? w = some modifiedImmediate
    ↔ field w 11 5 = 0b11110 ∧ bit w 9 = false ∧ bit w 31 = false
  := by
  rw [← modifiedImmediatePattern_matches_iff]
  constructor
  · intro h
    obtain ⟨entry, hfind, hformat⟩ := Option.map_eq_some_iff.mp h
    have hentry := List.find?_some hfind
    have hpattern : ∀ entry ∈ table, entry.2 = modifiedImmediate →
        entry.1 = modifiedImmediatePattern := by decide
    rwa [← hpattern entry (List.mem_of_find?_eq_some hfind) hformat]
  · intro h
    have htop := ((modifiedImmediatePattern_matches_iff w).mp h).2.2
    -- The patterns that come first have the top bit set.
    have hfirst : ∀ entry ∈ table.take 4, entry.1.matches w = false := by
      intro entry hentry
      have hset : ∀ entry ∈ table.take 4,
          bit entry.1.mask 31 = true ∧ bit entry.1.value 31 = true := by decide
      obtain ⟨hmask, hvalue⟩ := hset entry hentry
      apply Pattern.matches_eq_false hmask
      rw [htop, hvalue]
      decide
    have hfind : table.find? (fun entry => entry.1.matches w)
        = some (modifiedImmediatePattern, modifiedImmediate) := by
      apply List.find?_eq_some_iff_append.mpr
      apply And.intro h
      use table.take 4, table.drop 5
      apply And.intro rfl
      intro entry hentry
      rw [hfirst entry hentry]
      rfl
    rw [of?, Pattern.lookup, hfind]
    rfl

end WideFormat

end ThumbSoc
