import Mathlib.Data.Set.Function
import ThumbSoc.Proofs.Commit
import ThumbSoc.Proofs.Encoding.Opcodes
import ThumbSoc.Proofs.Encoding.Tables
import ThumbSoc.Semantics

/-!
# Branches with link

The displacement of a branch with link is spread over five fields of its two halfwords, two of
which hold whether a bit equals the sign. Nothing is lost in this: each even displacement that 25
bits can hold is written in exactly one word, and `linkWord` gives that word.
-/

namespace ThumbSoc

open Word (field bit)

/-! ### The words -/

/-- The pattern of branches with link. -/
def WideFormat.branchWithLinkPattern : Pattern :=
  ⟨0xD000F800, 0xD000F000⟩

/-- The words whose first halfword begins with `11110`, and whose second one has its bits 15, 14
and 12 set. -/
def linkWords : Set Word :=
  { w | field w 11 5 = 0b11110 ∧ bit w 31 = true ∧ bit w 30 = true ∧ bit w 28 = true }

theorem mem_linkWords {w : Word} :
  w ∈ linkWords
    ↔ field w 11 5 = 0b11110 ∧ bit w 31 = true ∧ bit w 30 = true ∧ bit w 28 = true
  := Iff.rfl

theorem branchWithLinkPattern_matches_iff (w : Word) :
  WideFormat.branchWithLinkPattern.matches w = true ↔ w ∈ linkWords
  := by
  have hmask : ∀ i < 32, bit WideFormat.branchWithLinkPattern.mask i = true
      ↔ i ∈ [11, 12, 13, 14, 15, 28, 30, 31] := by decide
  rw [Pattern.matches_iff rfl, mem_linkWords, Word.field_eq_iff (by decide)]
  constructor
  · intro h
    refine ⟨?_, h 31 (by decide) (by decide), h 30 (by decide) (by decide),
      h 28 (by decide) (by decide)⟩
    intro i hi
    have hin : 11 + i ∈ [11, 12, 13, 14, 15, 28, 30, 31] := by decide +revert
    rw [h (11 + i) (by omega) ((hmask _ (by omega)).mpr hin)]
    decide +revert
  · rintro ⟨hfield, h31, h30, h28⟩ i hi hi'
    have hin := (hmask i hi).mp hi'
    simp only [List.mem_cons, List.not_mem_nil, or_false] at hin
    rcases hin with rfl | rfl | rfl | rfl | rfl | rfl | rfl | rfl
    · exact hfield 0 (by decide)
    · exact hfield 1 (by decide)
    · exact hfield 2 (by decide)
    · exact hfield 3 (by decide)
    · exact hfield 4 (by decide)
    · exact h28
    · exact h30
    · exact h31

theorem of?_branchWithLink_iff (w : Word) :
  WideFormat.of? w = some .branchWithLink ↔ w ∈ linkWords
  := by
  rw [← branchWithLinkPattern_matches_iff, WideFormat.of?,
    Pattern.lookup_eq_some_iff WideFormat.table_disjoint]
  constructor
  · rintro ⟨p, hmem, hmatches⟩
    have hpattern : ∀ entry ∈ WideFormat.table, entry.2 = .branchWithLink →
        entry.1 = WideFormat.branchWithLinkPattern := by decide
    rwa [← hpattern _ hmem rfl]
  · intro hmatches
    exact ⟨_, by decide, hmatches⟩

namespace Instruction

variable {w : Word} {i : Instruction}

/-- A word in the format is decoded as a branch with link. -/
theorem decode_branchWithLink (h : w ∈ linkWords) :
  decode w 4 = .ok (Wide.branchWithLink w)
  := by
  have hdecode : decode? w 4 = some (Wide.branchWithLink w) := by
    rw [decode?, Wide.decode, (of?_branchWithLink_iff w).mpr h]
    rfl
  rw [decode, hdecode]

/-- No other format has this operation. -/
theorem eq_branchWithLink (h : decode w 4 = .ok i) (hopcode : i.opcode = .bl) :
  w ∈ linkWords ∧ i = Wide.branchWithLink w
  := by
  obtain ⟨hlength, _⟩ | ⟨_, hwide⟩ := decode_cases h
  · cases hlength
  · rw [Wide.decode] at hwide
    obtain ⟨format, hformat, hread⟩ := Option.bind_eq_some_iff.mp hwide
    have hformats : ∀ format : WideFormat, .bl ∈ format.opcodes → format = .branchWithLink := by
      intro format
      cases format <;> decide
    have hmem := Wide.read_opcode hread
    rw [hopcode] at hmem
    obtain rfl := hformats format hmem
    cases hread
    exact ⟨(of?_branchWithLink_iff w).mp hformat, rfl⟩

/-- The displacement that is decoded from a word, and zero if none is. -/
def displacement (w : Word) : Int :=
  match decode w 4 with
  | .ok i => i.immediate.toInt
  | .error _ => 0

theorem displacement_eq (h : w ∈ linkWords) :
  displacement w = (Wide.linkDisplacement w).toInt
  := by
  rw [displacement, decode_branchWithLink h]
  rfl

end Instruction

/-! ### The fields -/

/-- Whether a bit equals the sign, as a number. -/
def agreement (b sign : Nat) : Nat :=
  if b = sign then 1 else 0

/-- A bit is found again from the sign and from whether it equals the sign. -/
theorem agreement_agreement {b sign : Nat} (hb : b < 2) (hsign : sign < 2) :
  agreement (agreement b sign) sign = b
  := by
  have hbits : ∀ b < 2, ∀ sign < 2, agreement (agreement b sign) sign = b := by decide
  exact hbits b hb sign hsign

theorem agreement_lt (b sign : Nat) :
  agreement b sign < 2
  := by
  rw [agreement]
  split <;> decide

/-- The fields of a branch with link. -/
@[ext]
structure LinkFields where
  sign : Nat
  /-- Whether the bit below the sign equals it. -/
  first : Nat
  /-- Whether the second bit below the sign equals it. -/
  second : Nat
  high : Nat
  low : Nat
  sign_lt : sign < 2
  first_lt : first < 2
  second_lt : second < 2
  high_lt : high < 0x400
  low_lt : low < 0x800

namespace LinkFields

variable (f : LinkFields)

/-- The fields of a word. -/
def ofWord (w : Word) : LinkFields where
  sign := field w 10 1
  first := field w 29 1
  second := field w 27 1
  high := field w 0 10
  low := field w 16 11
  sign_lt := Word.field_lt w 10 1
  first_lt := Word.field_lt w 29 1
  second_lt := Word.field_lt w 27 1
  high_lt := Word.field_lt w 0 10
  low_lt := Word.field_lt w 16 11

/-- The word with these fields. -/
def word : Word :=
  UInt32.ofNat (0xD000F000 + 0x20000000 * f.first + 0x8000000 * f.second + 0x10000 * f.low
    + 0x400 * f.sign + f.high)

/-- The 25 bits of the displacement. -/
def offset : Nat :=
  0x1000000 * f.sign + 0x800000 * agreement f.first f.sign + 0x400000 * agreement f.second f.sign
    + 0x1000 * f.high + 2 * f.low

/-- The fields for a displacement of 25 bits, of which the lowest is not held. -/
def ofOffset (n : Nat) : LinkFields where
  sign := n / 0x1000000 % 2
  first := agreement (n / 0x800000 % 2) (n / 0x1000000 % 2)
  second := agreement (n / 0x400000 % 2) (n / 0x1000000 % 2)
  high := n / 0x1000 % 0x400
  low := n / 2 % 0x800
  sign_lt := Nat.mod_lt _ (by decide)
  first_lt := agreement_lt _ _
  second_lt := agreement_lt _ _
  high_lt := Nat.mod_lt _ (by decide)
  low_lt := Nat.mod_lt _ (by decide)

theorem toNat_word :
  f.word.toNat = 0xD000F000 + 0x20000000 * f.first + 0x8000000 * f.second + 0x10000 * f.low
    + 0x400 * f.sign + f.high
  := by
  have hsign := f.sign_lt
  have hfirst := f.first_lt
  have hsecond := f.second_lt
  have hhigh := f.high_lt
  have hlow := f.low_lt
  rw [word, UInt32.toNat_ofNat']
  omega

theorem word_mem :
  f.word ∈ linkWords
  := by
  have hword := f.toNat_word
  obtain ⟨sign, first, second, high, low, hsign, hfirst, hsecond, hhigh, hlow⟩ := f
  simp only [mem_linkWords, field, bit, Nat.shiftRight_eq_div_pow, Nat.testBit_eq_decide_div_mod_eq,
    decide_eq_true_iff, hword]
  refine ⟨?_, ?_, ?_, ?_⟩
  · change _ / 0x800 % 0x20 = _
    omega
  · change _ / 0x80000000 % 2 = _
    omega
  · change _ / 0x40000000 % 2 = _
    omega
  · change _ / 0x10000000 % 2 = _
    omega

theorem ofWord_word :
  ofWord f.word = f
  := by
  have hword := f.toNat_word
  obtain ⟨sign, first, second, high, low, hsign, hfirst, hsecond, hhigh, hlow⟩ := f
  simp only [ofWord, mk.injEq, field, Nat.shiftRight_eq_div_pow, hword]
  refine ⟨?_, ?_, ?_, ?_, ?_⟩
  · change _ / 0x400 % 2 = _
    omega
  · change _ / 0x20000000 % 2 = _
    omega
  · change _ / 0x8000000 % 2 = _
    omega
  · change _ / 1 % 0x400 = _
    omega
  · change _ / 0x10000 % 0x800 = _
    omega

/-- The fields and the fixed bits are the whole word. -/
theorem word_ofWord {w : Word} (h : w ∈ linkWords) :
  (ofWord w).word = w
  := by
  obtain ⟨htop, h31, h30, h28⟩ := h
  rw [bit, Nat.testBit_eq_decide_div_mod_eq, decide_eq_true_iff] at h31 h30 h28
  apply UInt32.toNat_inj.mp
  rw [toNat_word]
  simp only [ofWord, field, Nat.shiftRight_eq_div_pow] at htop ⊢
  change w.toNat / 0x800 % 0x20 = 0b11110 at htop
  change w.toNat / 0x80000000 % 2 = 1 at h31
  change w.toNat / 0x40000000 % 2 = 1 at h30
  change w.toNat / 0x10000000 % 2 = 1 at h28
  change 0xD000F000 + 0x20000000 * (w.toNat / 0x20000000 % 2)
    + 0x8000000 * (w.toNat / 0x8000000 % 2) + 0x10000 * (w.toNat / 0x10000 % 0x800)
    + 0x400 * (w.toNat / 0x400 % 2) + w.toNat / 1 % 0x400 = w.toNat
  have hw := w.toNat_lt
  omega

theorem offset_lt :
  f.offset < 0x2000000
  := by
  have hfirst := agreement_lt f.first f.sign
  have hsecond := agreement_lt f.second f.sign
  have hsign := f.sign_lt
  have hhigh := f.high_lt
  have hlow := f.low_lt
  rw [offset]
  omega

theorem offset_even :
  f.offset % 2 = 0
  := by
  rw [offset]
  omega

theorem ofOffset_offset :
  ofOffset f.offset = f
  := by
  obtain ⟨sign, first, second, high, low, hsign, hfirst, hsecond, hhigh, hlow⟩ := f
  have hfirst' := agreement_agreement hfirst hsign
  have hsecond' := agreement_agreement hsecond hsign
  have hfirstLt := agreement_lt first sign
  have hsecondLt := agreement_lt second sign
  simp only [ofOffset, offset, mk.injEq]
  generalize agreement first sign = first' at *
  generalize agreement second sign = second' at *
  generalize hsum : 0x1000000 * sign + 0x800000 * first' + 0x400000 * second' + 0x1000 * high
    + 2 * low = n
  have hs : n / 0x1000000 % 2 = sign := by omega
  have h1 : n / 0x800000 % 2 = first' := by omega
  have h2 : n / 0x400000 % 2 = second' := by omega
  rw [hs, h1, h2]
  refine ⟨rfl, hfirst', hsecond', ?_, ?_⟩ <;> omega

theorem offset_ofOffset {n : Nat} (heven : n % 2 = 0) (hn : n < 0x2000000) :
  (ofOffset n).offset = n
  := by
  have hbit (b : Nat) : b % 2 < 2 := Nat.mod_lt b (by decide)
  simp only [offset, ofOffset, agreement_agreement (hbit _) (hbit _)]
  omega

end LinkFields

/-! ### The displacements -/

/-- The even numbers that 25 bits can hold. -/
def linkDisplacements : Set Int :=
  { d | 2 ∣ d ∧ -0x1000000 ≤ d ∧ d ≤ 0x1000000 - 2 }

/-- The word of the branch with link over a displacement. -/
def linkWord (d : Int) : Word :=
  (LinkFields.ofOffset (d % 0x2000000).toNat).word

/-- The displacement is the number that the 25 bits stand for. -/
theorem displacement_eq_bmod {w : Word} (h : w ∈ linkWords) :
  Instruction.displacement w = Int.bmod (LinkFields.ofWord w).offset 0x2000000
  := by
  have hlt := (LinkFields.ofWord w).offset_lt
  have hoffset : Wide.linkDisplacement w
      = Word.signExtend (UInt32.ofNat (LinkFields.ofWord w).offset) 25 := rfl
  have hnumber : (UInt32.ofNat (LinkFields.ofWord w).offset).toNat
      = (LinkFields.ofWord w).offset := by
    rw [UInt32.toNat_ofNat']
    omega
  have hbound : -0x1000000 ≤ Int.bmod (LinkFields.ofWord w).offset 0x2000000
      ∧ Int.bmod (LinkFields.ofWord w).offset 0x2000000 < 0x1000000 := by
    rw [Int.bmod_def]
    split <;> omega
  rw [Instruction.displacement_eq h, hoffset, Word.signExtend, hnumber]
  apply Int32.toInt_ofInt_of_le
  · exact Int.le_trans (by decide) hbound.1
  · exact Int.lt_trans hbound.2 (by decide)

theorem displacement_mem {w : Word} (h : w ∈ linkWords) :
  Instruction.displacement w ∈ linkDisplacements
  := by
  have hlt := (LinkFields.ofWord w).offset_lt
  have heven := (LinkFields.ofWord w).offset_even
  rw [displacement_eq_bmod h, Int.bmod_def]
  refine ⟨?_, ?_, ?_⟩
  all_goals
    split <;> omega

theorem linkWord_displacement {w : Word} (h : w ∈ linkWords) :
  linkWord (Instruction.displacement w) = w
  := by
  have hlt := (LinkFields.ofWord w).offset_lt
  have hoffset : (Int.bmod (LinkFields.ofWord w).offset 0x2000000 % 0x2000000).toNat
      = (LinkFields.ofWord w).offset := by
    rw [Int.bmod_def]
    split <;> omega
  rw [linkWord, displacement_eq_bmod h, hoffset, LinkFields.ofOffset_offset,
    LinkFields.word_ofWord h]

theorem displacement_linkWord {d : Int} (h : d ∈ linkDisplacements) :
  Instruction.displacement (linkWord d) = d
  := by
  obtain ⟨heven, hleast, hgreatest⟩ := h
  have hoffset : ((d % 0x2000000).toNat : Int) = d % 0x2000000 :=
    Int.toNat_of_nonneg (Int.emod_nonneg d (by decide))
  rw [linkWord, displacement_eq_bmod (LinkFields.word_mem _), LinkFields.ofWord_word,
    LinkFields.offset_ofOffset (by omega) (by omega), hoffset, Int.bmod_def]
  split <;> omega

/-- Words and displacements correspond one to one. -/
theorem displacement_bijOn :
  Set.BijOn Instruction.displacement linkWords linkDisplacements
  := by
  have hinverse : Set.InvOn linkWord Instruction.displacement linkWords linkDisplacements :=
    ⟨fun _ ↦ linkWord_displacement, fun _ ↦ displacement_linkWord⟩
  apply hinverse.bijOn
  · intro w hw
    exact displacement_mem hw
  · intro d _
    exact LinkFields.word_mem _

namespace Instruction

variable {w : Word} {i : Instruction}

/-! ### Execution -/

/-- The link register gets the address behind the instruction, marked as Thumb code, and execution
goes on at the target. -/
theorem execute_link (h : i.opcode = .bl) (core : ThumbCore) (pc : Word) (bus : Bus) :
  ∃ effects, i.execute core pc bus = .ok effects bus
    ∧ effects.commit core = { core with lr := (pc + 4) ||| 1, pc := Word.even (i.branchTarget pc) }
  := by
  have hlink : 14 < 15 := by decide
  use (Effects.goto (i.branchTarget pc)).write 14 ((pc + 4) ||| 1)
  constructor
  · simp only [execute, h]
    rfl
  · rw [((Effects.WritesOnly.goto _).write hlink _).commit, Effects.applyWrites_write _ _ hlink,
      Effects.applyWrites_goto]
    rfl

/-- The target of a branch from an even address over an even displacement, as a number. -/
theorem toNat_branchTarget (heven : 2 ∣ i.immediate.toInt) {pc : Word} (hpc : pc.toNat % 2 = 0) :
  ((Word.even (i.branchTarget pc)).toNat : Int)
    = (pc.toNat + 4 + i.immediate.toInt) % 0x100000000
  := by
  have hword : (i.immediateWord.toNat : Int) = i.immediate.toInt % 0x100000000 := by
    have hbits : (BitVec.ofInt 32 i.immediate.toInt).toNat
        = (i.immediate.toInt % 0x100000000).toNat := BitVec.toNat_ofInt _
    have hsame : BitVec.ofInt 32 i.immediate.toInt = i.immediateWord.toBitVec :=
      BitVec.ofInt_toInt
    rw [hsame, UInt32.toNat_toBitVec] at hbits
    omega
  have hnext : (pc + 4).toNat = (pc.toNat + 4) % 0x100000000 := UInt32.toNat_add pc 4
  have htarget : (i.branchTarget pc).toNat
      = ((pc + 4).toNat + i.immediateWord.toNat) % 0x100000000 :=
    UInt32.toNat_add (pc + 4) i.immediateWord
  rw [Word.toNat_even]
  omega

/-- **Branches with link and displacements correspond one to one.** Of all words of four bytes
exactly those that begin with `11110` and have the bits 15, 14 and 12 of the second halfword set
are decoded as a branch with link. Each of them has an even displacement that 25 bits can hold, and
each such displacement is that of exactly one of them. Executed at an even address on whatever core
and bus, the instruction does not fault; it goes on at its address plus four plus the displacement,
puts the address behind it, with bit 0 set, into the link register, and changes nothing else. -/
theorem decode_link_bijective :
  (∀ w : Word, (∃ i, decode w 4 = .ok i ∧ i.opcode = .bl) ↔ w ∈ linkWords)
    ∧ Set.BijOn displacement linkWords linkDisplacements
    ∧ ∀ (w : Word) (i : Instruction), decode w 4 = .ok i → i.opcode = .bl →
      ∀ (core : ThumbCore) (pc : Word) (bus : Bus), pc.toNat % 2 = 0 →
        ∃ effects, i.execute core pc bus = .ok effects bus
          ∧ ((effects.commit core).pc.toNat : Int)
            = (pc.toNat + 4 + displacement w) % 0x100000000
          ∧ effects.commit core
            = { core with lr := (pc + 4) ||| 1, pc := (effects.commit core).pc }
  := by
  refine ⟨?_, displacement_bijOn, ?_⟩
  · intro w
    constructor
    · rintro ⟨i, hdecode, hopcode⟩
      exact (eq_branchWithLink hdecode hopcode).1
    · intro hw
      exact ⟨_, decode_branchWithLink hw, rfl⟩
  · intro w i hdecode hopcode core pc bus hpc
    obtain ⟨effects, hexecute, hcommit⟩ := execute_link hopcode core pc bus
    have himmediate : displacement w = i.immediate.toInt := by rw [displacement, hdecode]
    have heven : 2 ∣ i.immediate.toInt :=
      himmediate ▸ (displacement_mem (eq_branchWithLink hdecode hopcode).1).1
    use effects, hexecute
    constructor
    · rw [hcommit, himmediate]
      exact toNat_branchTarget heven hpc
    · rw [hcommit]

/-- The farthest branch backwards wraps around at the start of the address space. -/
theorem farthest_link :
  displacement 0xD000F400 = -0x1000000
    ∧ ∃ i, decode 0xD000F400 4 = .ok i ∧ ∃ effects,
      i.execute (ThumbCore.reset 0) 2 (Bus.initial 0) = .ok effects (Bus.initial 0)
        ∧ (effects.commit (ThumbCore.reset 0)).pc = 0xFF000006
        ∧ (effects.commit (ThumbCore.reset 0)).lr = 7
  := by
  have hfarthest : displacement 0xD000F400 = -0x1000000 := by decide
  obtain ⟨hlinks, -, hexecutes⟩ := decode_link_bijective
  obtain ⟨i, hdecode, hopcode⟩ := (hlinks 0xD000F400).mpr (mem_linkWords.mpr (by decide))
  obtain ⟨effects, hexecute, htarget, hcommit⟩ :=
    hexecutes _ i hdecode hopcode (ThumbCore.reset 0) 2 (Bus.initial 0) rfl
  refine ⟨hfarthest, i, hdecode, effects, hexecute, ?_, ?_⟩
  · rw [hfarthest] at htarget
    apply UInt32.toNat_inj.mp
    apply Int.ofNat_inj.mp
    exact htarget
  · rw [hcommit]
    rfl

end Instruction

end ThumbSoc
