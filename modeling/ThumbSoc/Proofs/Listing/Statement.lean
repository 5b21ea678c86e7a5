import ThumbSoc.Proofs.Listing.Mnemonic

/-!
# Statements determine instructions

Instructions of one length that are written alike have the same operation and the same operands:
every field that is not written is neutral, is told by one that is, or is the number of a special
register without a name of its own. The mnemonics are equal, hence the operations, and then the
operands are compared operation by operation.
-/

namespace ThumbSoc

/-! ### Operands -/

namespace Operand

/-- An operand that is a register or a number. -/
def Simple : Operand → Prop
  | register number => ∃ n < 16, number = some n
  | immediate _ => True
  | _ => False

variable {o o' : Operand} {list list' : List Operand}

theorem Simple.unbroken (h : o.Simple) :
  Unbroken o.text
  := by
  cases o with
  | register number =>
    obtain ⟨n, hn, rfl⟩ := h
    exact (registerName_unbroken n hn).1
  | immediate value => exact immediate_unbroken value
  | _ => exact absurd h id

theorem Simple.inj (h : o.Simple) (h' : o'.Simple) (heq : o.text = o'.text) :
  o = o'
  := by
  cases o with
  | register number =>
    obtain ⟨n, hn, rfl⟩ := h
    cases o' with
    | register number' =>
      obtain ⟨n', hn', rfl⟩ := h'
      rw [registerName_inj n hn n' hn' heq]
    | immediate value => exact absurd heq (register_ne_immediate hn value)
    | _ => exact absurd h' id
  | immediate value =>
    cases o' with
    | register number' =>
      obtain ⟨n', hn', rfl⟩ := h'
      exact absurd heq.symm (register_ne_immediate hn' value)
    | immediate value' => rw [immediate_inj heq]
    | _ => exact absurd h' id
  | _ => exact absurd h id

theorem map_text_inj (h : ∀ o ∈ list, o.Simple) (h' : ∀ o ∈ list', o.Simple)
    (heq : list.map text = list'.map text) :
  list = list'
  := by
  induction list generalizing list' with
  | nil => exact (List.map_eq_nil_iff.mp heq.symm).symm
  | cons o rest ih =>
    cases list' with
    | nil => cases heq
    | cons o' rest' =>
      obtain ⟨hfirst, hrest⟩ := List.cons.inj heq
      obtain ⟨hsimple, hlist⟩ := List.forall_mem_cons.mp h
      obtain ⟨hsimple', hlist'⟩ := List.forall_mem_cons.mp h'
      rw [hsimple.inj hsimple' hfirst, ih hlist hlist' hrest]

theorem join_text_inj (h : ∀ o ∈ list, o.Simple) (h' : ∀ o ∈ list', o.Simple)
    (heq : ", ".intercalate (list.map text) = ", ".intercalate (list'.map text)) :
  list = list'
  := by
  have hunbroken {list : List Operand} (h : ∀ o ∈ list, o.Simple) :
      ∀ t ∈ list.map text, Unbroken t := by
    intro t ht
    obtain ⟨o, ho, rfl⟩ := List.mem_map.mp ht
    exact (h o ho).unbroken
  exact map_text_inj h h' (join_inj (hunbroken h) (hunbroken h') heq)

end Operand

/-! ### Rotated immediates -/

namespace Immediate

/-- A rotated byte comes to rest with its top bit at a place that tells the rotation. -/
theorem toNat_expand_rotated {field : Nat} (h : 1024 ≤ field) (hlt : field < 4096) :
  (expand field).toNat = (128 + field % 128) * 2 ^ (32 - field / 128)
  := by
  have hrotated : isRotated field = true := by
    rw [isRotated, decide_eq_true_iff]
    omega
  have hrotation : rotation field = field / 128 := by
    rw [rotation, if_pos hrotated]
    omega
  rw [expand, if_pos hrotated, hrotation]
  generalize hamount : field / 128 = amount
  have hge : 8 ≤ amount := by omega
  have hle : amount < 32 := by omega
  have hbyte : 128 + field % 128 < 2 ^ 8 := by omega
  generalize 128 + field % 128 = byte at hbyte ⊢
  have hplaces : (UInt32.ofNat (amount % 32)).toNat = amount := by
    rw [UInt32.toNat_ofNat']
    change amount % 32 % 4294967296 = amount
    omega
  have hrest : (32 - UInt32.ofNat (amount % 32)).toNat = 32 - amount := by
    have hfits : UInt32.ofNat (amount % 32) ≤ 32 := by
      rw [UInt32.le_iff_toNat_le, hplaces]
      exact Nat.le_of_lt hle
    rw [UInt32.toNat_sub_of_le _ _ hfits, hplaces]
    rfl
  have hvalue : (UInt32.ofNat byte).toNat = byte := by
    rw [UInt32.toNat_ofNat']
    change byte % 4294967296 = byte
    omega
  have hout : byte >>> amount = 0 := by
    rw [Nat.shiftRight_eq_div_pow]
    apply Nat.div_eq_of_lt
    exact Nat.lt_of_lt_of_le hbyte (Nat.pow_le_pow_right (by decide) hge)
  have hroom : byte * 2 ^ (32 - amount) < 2 ^ 32 := by
    have hlt : byte * 2 ^ (32 - amount) < 2 ^ 8 * 2 ^ (32 - amount) :=
      Nat.mul_lt_mul_of_pos_right hbyte (Nat.two_pow_pos _)
    rw [← Nat.pow_add] at hlt
    exact Nat.lt_of_lt_of_le hlt (Nat.pow_le_pow_right (by decide) (by omega))
  have hmod : (32 - amount) % 32 = 32 - amount := Nat.mod_eq_of_lt (by omega)
  rw [Word.rotateRight, UInt32.toNat_or, UInt32.toNat_shiftRight, UInt32.toNat_shiftLeft, hplaces,
    hrest, hvalue, Nat.mod_eq_of_lt hle, hout, Nat.zero_or, hmod, Nat.shiftLeft_eq,
    Nat.mod_eq_of_lt hroom]

/-- No pattern looks like a rotated byte: it fits into a byte, or its bits lie further apart. -/
theorem pattern_ne_rotated :
  ∀ field < 1024,
    (expand field).toNat < 256
      ∨ (expand field).toNat % 2 ^ ((expand field).toNat.log2 - 7) ≠ 0
  := by decide +kernel

/-- Where the top bit of a byte is after a shift to the left. -/
theorem log2_shifted {byte : Nat} (hbyte : byte < 128) (places : Nat) :
  ((128 + byte) * 2 ^ places).log2 = 7 + places
  := by
  have hpos : 0 < 2 ^ places := Nat.two_pow_pos places
  rw [Nat.log2_eq_iff (Nat.mul_ne_zero (by omega) (by omega)), Nat.add_right_comm, Nat.pow_add,
    Nat.pow_add]
  constructor
  · exact Nat.mul_le_mul_right _ (by omega)
  · exact Nat.mul_lt_mul_of_pos_right (by omega) hpos

/-- The rotation is told by how far the top bit of the byte has moved. -/
theorem rotation_of_value {field : Nat} (h : field < 4096) :
  rotation field
    = if (expand field).toNat < 256
          ∨ (expand field).toNat % 2 ^ ((expand field).toNat.log2 - 7) ≠ 0 then 0
      else 39 - (expand field).toNat.log2
  := by
  rcases Nat.lt_or_ge field 1024 with hpattern | hrotated
  · have hunrotated : isRotated field = false := by
      rw [isRotated, decide_eq_false_iff_not]
      omega
    rw [if_pos (pattern_ne_rotated field hpattern), rotation, hunrotated, if_neg Bool.false_ne_true]
  · have hrotates : isRotated field = true := by
      rw [isRotated, decide_eq_true_iff]
      omega
    have hlarge : 128 * 2 ^ 1 ≤ (128 + field % 128) * 2 ^ (32 - field / 128) :=
      Nat.mul_le_mul (by omega) (Nat.pow_le_pow_right (by decide) (by omega))
    rw [toNat_expand_rotated hrotated h, log2_shifted (Nat.mod_lt _ (by decide)),
      Nat.add_sub_cancel_left, Nat.mul_mod_left, if_neg (by omega), rotation, if_pos hrotates]
    omega

theorem rotation_congr {bits bits' : Fin 4096} (h : expand bits = expand bits') :
  rotation bits = rotation bits'
  := by rw [rotation_of_value bits.isLt, rotation_of_value bits'.isLt, h]

end Immediate
namespace Instruction

variable {i i' : Instruction} {w w' : Word} {length : Nat} {pc : Word}

section Registers

variable {n : Nat} (h : i.Encoded w length)

include h

theorem Encoded.rd_lt (hn : i.rd = some n) :
  n < 16
  := h.named n (by simp [Instruction.named, hn])

theorem Encoded.rs_lt (hn : i.rs = some n) :
  n < 16
  := h.named n (by simp [Instruction.named, hn])

theorem Encoded.rm_lt (hn : i.rm = some n) :
  n < 16
  := h.named n (by simp [Instruction.named, hn])

theorem Encoded.rn_lt (hn : i.rn = some n) :
  n < 16
  := h.named n (by simp [Instruction.named, hn])

end Registers

/-- Whether all operands of an operation are registers and numbers. -/
def takesSimple : Opcode → Bool
  | .bx | .blx | .svc => true
  | opcode => opcode.computes

theorem simple_register {number : Option Nat} (h : number.isSome = true)
    (hlt : ∀ {n}, number = some n → n < 16) :
  (Operand.register number).Simple
  := by
  obtain ⟨n, hn⟩ := Option.isSome_iff_exists.mp h
  exact ⟨n, hlt hn, hn⟩

theorem Encoded.second_simple (h : i.Encoded w length) :
  i.secondOperand.Simple
  := by
  rw [secondOperand]
  split
  · next hsome => exact simple_register hsome h.rm_lt
  · trivial

theorem Encoded.move_simple (h : i.Encoded w length) (hrd : i.rd.isSome = true) :
  ∀ o ∈ i.moveOperands, o.Simple
  := by
  have hsource (hrm : i.rm.isSome = true) :
      ∀ o ∈ [Operand.register i.rd, .register i.rm], o.Simple :=
    List.forall_mem_cons.mpr ⟨simple_register hrd h.rd_lt,
      List.forall_mem_singleton.mpr (simple_register hrm h.rm_lt)⟩
  rw [moveOperands]
  split
  · exact List.forall_mem_cons.mpr ⟨simple_register hrd h.rd_lt,
      List.forall_mem_singleton.mpr trivial⟩
  · next hnone =>
    have hrm : i.rm.isSome = true := Option.isSome_iff_ne_none.mpr (by simpa using hnone)
    split
    · next hrs =>
      exact List.forall_mem_append.mpr
        ⟨hsource hrm, List.forall_mem_singleton.mpr (simple_register hrs h.rs_lt)⟩
    · split
      · exact List.forall_mem_append.mpr ⟨hsource hrm, List.forall_mem_singleton.mpr trivial⟩
      · exact hsource hrm

theorem Encoded.operands_simple (h : i.Encoded w length) (hopcode : takesSimple i.opcode = true)
    (pc : Word) :
  ∀ o ∈ i.operands pc, o.Simple
  := by
  have hcomplete := h.complete
  rw [Instruction.complete] at hcomplete
  rw [operands]
  cases hcase : i.opcode with
  | mov =>
    rw [hcase] at hcomplete
    exact h.move_simple hcomplete
  | add | sub | and | orr | eor =>
    rw [hcase] at hcomplete
    obtain ⟨hrd, hrn⟩ := (Bool.and_eq_true _ _).mp hcomplete
    dsimp only
    split
    · exact List.forall_mem_cons.mpr ⟨simple_register hrd h.rd_lt,
        List.forall_mem_singleton.mpr h.second_simple⟩
    · exact List.forall_mem_cons.mpr ⟨simple_register hrd h.rd_lt,
        List.forall_mem_cons.mpr ⟨simple_register hrn h.rn_lt,
          List.forall_mem_singleton.mpr h.second_simple⟩⟩
  | cmp | tst =>
    rw [hcase] at hcomplete
    exact List.forall_mem_cons.mpr ⟨simple_register hcomplete h.rn_lt,
      List.forall_mem_singleton.mpr h.second_simple⟩
  | bx | blx =>
    rw [hcase] at hcomplete
    exact List.forall_mem_singleton.mpr (simple_register hcomplete h.rm_lt)
  | svc => exact List.forall_mem_singleton.mpr trivial
  | _ =>
    rw [hcase] at hopcode
    cases hopcode

/-! ### Shifted operands -/

theorem SecondOperand.of_number (h : i.SecondOperand) (hrm : i.rm = none) :
  i.rs = none
    ∧ (i.length = 2 ∧ i.shift = .lsl ∧ i.shiftAmount = 0
      ∨ i.length = 4 ∧ ∃ bits : Fin 4096, i.immediate = (Immediate.expand bits).toInt32
        ∧ i.shift = .ror ∧ i.shiftAmount = Immediate.rotation bits)
  := by
  cases h with
  | number hnarrow hnone hshift => exact ⟨hnone.2, .inl ⟨hnarrow, hshift⟩⟩
  | modified bits hwide hnone hvalue hshift =>
    exact ⟨hnone.2, .inr ⟨hwide, bits, hvalue, hshift⟩⟩
  | register hsome =>
    rw [hrm] at hsome
    cases hsome.1
  | shifted _ hsome =>
    rw [hrm] at hsome
    cases hsome.1

theorem SecondOperand.of_register (h : i.SecondOperand) (hrm : i.rm ≠ none)
    (hopcode : i.opcode ≠ .mov) :
  i.rs = none ∧ i.shift = .lsl ∧ i.shiftAmount = 0
  := by
  cases h with
  | number _ hnone => exact absurd hnone.1 hrm
  | modified _ _ hnone => exact absurd hnone.1 hrm
  | register hsome hshift => exact ⟨hsome.2, hshift hopcode⟩
  | shifted hmove => exact absurd hmove hopcode

/-- How the second operand is shifted is told by the operand, except in a move that shifts a
register. -/
theorem Encoded.shift_congr (h : i.Encoded w length) (h' : i'.Encoded w' length)
    (hopcode : i.opcode = i'.opcode) (hcomputes : i.opcode.computes = true)
    (hmove : i.opcode = .mov → i.rm = none) (hrm : i.rm = i'.rm)
    (himmediate : i.rm = none → i.immediate = i'.immediate) :
  i.rs = i'.rs ∧ i.shift = i'.shift ∧ i.shiftAmount = i'.shiftAmount
  := by
  have hlength : i.length = i'.length := h.length.trans h'.length.symm
  have hsecond := h.second hcomputes
  have hsecond' := h'.second (hopcode ▸ hcomputes)
  by_cases hnone : i.rm = none
  · obtain ⟨hrs, hshift⟩ := hsecond.of_number hnone
    obtain ⟨hrs', hshift'⟩ := hsecond'.of_number (hrm ▸ hnone)
    use hrs.trans hrs'.symm
    rcases hshift with ⟨hnarrow, hkind, hamount⟩ | ⟨hwide, bits, hvalue, hkind, hamount⟩
    · rcases hshift' with ⟨_, hkind', hamount'⟩ | ⟨hwide', _⟩
      · exact ⟨hkind.trans hkind'.symm, hamount.trans hamount'.symm⟩
      · omega
    · rcases hshift' with ⟨hnarrow', _⟩ | ⟨_, bits', hvalue', hkind', hamount'⟩
      · omega
      · have hvalues := himmediate hnone
        rw [hvalue, hvalue'] at hvalues
        have hbits := Immediate.rotation_congr (congrArg Int32.toUInt32 hvalues)
        exact ⟨hkind.trans hkind'.symm, hamount.trans (hbits.trans hamount'.symm)⟩
  · have hother : i.opcode ≠ .mov := hnone ∘ hmove
    obtain ⟨hrs, hkind, hamount⟩ := hsecond.of_register hnone hother
    obtain ⟨hrs', hkind', hamount'⟩ := hsecond'.of_register (hrm ▸ hnone) (hopcode ▸ hother)
    exact ⟨hrs.trans hrs'.symm, hkind.trans hkind'.symm, hamount.trans hamount'.symm⟩

/-! ### Statements determine instructions -/

/-- Two instructions of the same operation and operands. They may differ in their encoding, and
in the number of a special register that is written alike. -/
structure Alike (i i' : Instruction) : Prop where
  fields : i' = { i with raw := i'.raw, selector := i'.selector }
  selector : Special.selectorName i.selector = Special.selectorName i'.selector

theorem alike_of_names (h : i.Encoded w length) (h' : i'.Encoded w' length)
    (hfields : i'.trimmed = { i.trimmed with raw := i'.raw, selector := i'.selector })
    (hnames : Special.selectorName i.selector = Special.selectorName i'.selector) :
  i.Alike i'
  := by
  rw [h.trimmed, h'.trimmed] at hfields
  exact ⟨hfields, hnames⟩

theorem alike_of_trimmed (h : i.Encoded w length) (h' : i'.Encoded w' length)
    (hfields : i'.trimmed = { i.trimmed with raw := i'.raw }) :
  i.Alike i'
  := by
  rw [h.trimmed, h'.trimmed] at hfields
  have hselector : i.selector = i'.selector := (congrArg selector hfields).symm
  refine ⟨?_, congrArg _ hselector⟩
  rw [← hselector]
  exact hfields

theorem second_congr (h : i.secondOperand = i'.secondOperand) :
  i.rm = i'.rm ∧ (i.rm = none → i.immediate = i'.immediate)
  := by
  simp only [secondOperand] at h
  split at h
  · next hsome =>
    split at h
    · use Operand.register.inj h
      intro hnone
      rw [hnone] at hsome
      cases hsome
    · cases h
  · next hnone =>
    split at h
    · cases h
    · next hnone' =>
      rw [Option.not_isSome_iff_eq_none] at hnone hnone'
      exact ⟨hnone.trans hnone'.symm, fun _ => Int32.toInt_inj.mp (Operand.immediate.inj h)⟩

/-- The immediate counts only where there is no register. -/
theorem displaced_congr (hrm : i.rm = i'.rm)
    (himmediate : i.rm = none → i.immediate = i'.immediate) :
  (if i'.rm.isSome then 0 else i'.immediate) = if i.rm.isSome then 0 else i.immediate
  := by
  rw [← hrm]
  split
  · rfl
  · next hnone => exact (himmediate (Option.not_isSome_iff_eq_none.mp hnone)).symm

/-- The first operand is told even where it is not written, being the destination. -/
theorem binary_congr (hrn : i.rn ≠ none) (hrn' : i'.rn ≠ none)
    (hlist : (if i.rn = i.rd ∨ i.rn = none then [.register i.rd, i.secondOperand]
        else [.register i.rd, .register i.rn, i.secondOperand])
      = if i'.rn = i'.rd ∨ i'.rn = none then [.register i'.rd, i'.secondOperand]
        else [.register i'.rd, .register i'.rn, i'.secondOperand]) :
  i.rd = i'.rd ∧ i.rn = i'.rn ∧ i.secondOperand = i'.secondOperand
  := by
  split at hlist
  · next hsame =>
    split at hlist
    · next hsame' =>
      obtain ⟨hrd, hsecond⟩ := List.cons.inj hlist
      have hrd := Operand.register.inj hrd
      have hsame := hsame.resolve_right hrn
      have hsame' := hsame'.resolve_right hrn'
      exact ⟨hrd, hsame.trans (hrd.trans hsame'.symm), (List.cons.inj hsecond).1⟩
    · cases (List.cons.inj (List.cons.inj hlist).2).2
  · split at hlist
    · cases (List.cons.inj (List.cons.inj hlist).2).2
    · obtain ⟨hrd, hrest⟩ := List.cons.inj hlist
      obtain ⟨hrn, hsecond⟩ := List.cons.inj hrest
      exact ⟨Operand.register.inj hrd, Operand.register.inj hrn, (List.cons.inj hsecond).1⟩

/-- What is written behind the destination and the source of a move. -/
def shiftOperands (i : Instruction) : List Operand :=
  if i.rs.isSome then [.register i.rs]
  else if i.shiftsByAmount then [.immediate i.shiftAmount]
  else []

theorem moveOperands_of_register (hrm : i.rm ≠ none) :
  i.moveOperands = .register i.rd :: .register i.rm :: i.shiftOperands
  := by
  have hsome : ¬ i.rm.isNone = true := by simpa using hrm
  rw [moveOperands, shiftOperands, if_neg hsome]
  split
  · rfl
  · split <;> rfl

theorem moveOperands_of_number (hrm : i.rm = none) :
  i.moveOperands = [.register i.rd, i.immediateOperand]
  := by
  rw [moveOperands, hrm]
  rfl

theorem not_shiftsByAmount (hrm : i.rm ≠ none) (hshifts : ¬ i.shiftsByAmount = true) :
  i.shift = .lsl ∧ i.shiftAmount = 0
  := by
  simp only [shiftsByAmount, Option.isSome_iff_ne_none.mpr hrm, Bool.true_and, Bool.or_eq_true,
    decide_eq_true_iff, not_or, not_not] at hshifts
  exact hshifts.symm

/-- How a register is shifted is told by the mnemonic and by what follows the source. -/
theorem moved_congr (hmove : i.opcode = .mov) (hmove' : i'.opcode = .mov) (hrm : i.rm ≠ none)
    (hrm' : i'.rm ≠ none) (hhead : i.head = i'.head)
    (hshift : i.shiftOperands = i'.shiftOperands) :
  i.rs = i'.rs ∧ i.shift = i'.shift ∧ i.setFlags = i'.setFlags
    ∧ (i.rs = none → i.shiftAmount = i'.shiftAmount)
  := by
  simp only [head, hmove, hmove', Bool.or_eq_true] at hhead
  simp only [shiftOperands] at hshift
  by_cases hrs : i.rs.isSome = true
  · rw [if_pos hrs] at hshift
    by_cases hrs' : i'.rs.isSome = true
    · rw [if_pos hrs'] at hshift
      rw [if_pos (.inl hrs), if_pos (.inl hrs')] at hhead
      obtain ⟨hkind, hflags⟩ := Head.shift.inj hhead
      refine ⟨Operand.register.inj (List.cons.inj hshift).1, hkind, hflags, ?_⟩
      intro hnone
      rw [hnone] at hrs
      cases hrs
    · rw [if_neg hrs'] at hshift
      split at hshift <;> cases hshift
  · rw [if_neg hrs] at hshift
    by_cases hrs' : i'.rs.isSome = true
    · rw [if_pos hrs'] at hshift
      split at hshift <;> cases hshift
    · rw [if_neg hrs'] at hshift
      have hnone := Option.not_isSome_iff_eq_none.mp hrs
      have hnone' := Option.not_isSome_iff_eq_none.mp hrs'
      use hnone.trans hnone'.symm
      by_cases hshifts : i.shiftsByAmount = true
      · rw [if_pos hshifts] at hshift
        by_cases hshifts' : i'.shiftsByAmount = true
        · rw [if_pos hshifts'] at hshift
          rw [if_pos (.inr hshifts), if_pos (.inr hshifts')] at hhead
          obtain ⟨hkind, hflags⟩ := Head.shift.inj hhead
          exact ⟨hkind, hflags, fun _ =>
            Int.ofNat_inj.mp (Operand.immediate.inj (List.cons.inj hshift).1)⟩
        · rw [if_neg hshifts'] at hshift
          cases hshift
      · rw [if_neg hshifts] at hshift
        by_cases hshifts' : i'.shiftsByAmount = true
        · rw [if_pos hshifts'] at hshift
          cases hshift
        · rw [if_neg (not_or.mpr ⟨hrs, hshifts⟩), if_neg (not_or.mpr ⟨hrs', hshifts'⟩)] at hhead
          obtain ⟨hkind, hamount⟩ := not_shiftsByAmount hrm hshifts
          obtain ⟨hkind', hamount'⟩ := not_shiftsByAmount hrm' hshifts'
          exact ⟨hkind.trans hkind'.symm, (Head.operation.inj hhead).2,
            fun _ => hamount.trans hamount'.symm⟩

section Operations

variable (h : i.Encoded w length) (h' : i'.Encoded w' length) (hopcode : i.opcode = i'.opcode)
  (hoperands : i.operandText pc = i'.operandText pc)

include h h' hopcode hoperands

theorem operands_inj (hsimple : takesSimple i.opcode = true) :
  i.operands pc = i'.operands pc
  := Operand.join_text_inj (h.operands_simple hsimple pc)
    (h'.operands_simple (hopcode ▸ hsimple) pc) hoperands

omit hoperands in
theorem alike_idle (hcase : i.opcode = .nop ∨ i.opcode = .wfi) :
  i.Alike i'
  := by
  apply alike_of_trimmed h h'
  rcases hcase with hcase | hcase
  all_goals
    have hcase' := hopcode.symm.trans hcase
    simp only [trimmed, hcase, hcase', h.length, h'.length]
    rfl

theorem alike_supervisorCall (hcase : i.opcode = .svc) :
  i.Alike i'
  := by
  have hcase' := hopcode.symm.trans hcase
  have hlist := operands_inj h h' hopcode hoperands (by rw [hcase]; rfl)
  simp only [operands, hcase, hcase'] at hlist
  have himmediate := Int32.toInt_inj.mp (Operand.immediate.inj (List.cons.inj hlist).1)
  apply alike_of_trimmed h h'
  simp only [trimmed, hcase, hcase', himmediate, h.length, h'.length]
  rfl

theorem alike_exchange (hcase : i.opcode = .bx ∨ i.opcode = .blx) :
  i.Alike i'
  := by
  have hsimple : takesSimple i.opcode = true := by
    rcases hcase with hcase | hcase <;> rw [hcase] <;> rfl
  have hlist := operands_inj h h' hopcode hoperands hsimple
  apply alike_of_trimmed h h'
  rcases hcase with hcase | hcase
  all_goals
    have hcase' := hopcode.symm.trans hcase
    simp only [operands, hcase, hcase'] at hlist
    have hrm := Operand.register.inj (List.cons.inj hlist).1
    simp only [trimmed, hcase, hcase', hrm, h.length, h'.length]
    rfl

theorem alike_branch (hhead : i.head = i'.head) (hcase : i.opcode = .b ∨ i.opcode = .bl) :
  i.Alike i'
  := by
  have htarget : i.branchTarget pc = i'.branchTarget pc := by
    apply Hex.address_inj
    rcases hcase with hcase | hcase
    all_goals
      have hcase' := hopcode.symm.trans hcase
      simp only [operandText, operands, hcase, hcase', List.map_cons, List.map_nil,
        String.intercalate_singleton] at hoperands
      exact hoperands
  have hword := (UInt32.add_right_inj (pc + 4)).mp htarget
  have himmediate : i.immediate = i'.immediate := congrArg UInt32.toInt32 hword
  apply alike_of_trimmed h h'
  rcases hcase with hcase | hcase
  all_goals have hcase' := hopcode.symm.trans hcase
  · simp only [head, hcase, hcase'] at hhead
    simp only [trimmed, hcase, hcase', himmediate, Head.branch.inj hhead, h.length, h'.length]
    rfl
  · simp only [trimmed, hcase, hcase', himmediate, h.length, h'.length]
    rfl

theorem alike_compare (hcase : i.opcode = .cmp ∨ i.opcode = .tst) :
  i.Alike i'
  := by
  have hcomputes : i.opcode.computes = true := by
    rcases hcase with hcase | hcase <;> rw [hcase] <;> rfl
  have hmove : i.opcode = .mov → i.rm = none := by
    rcases hcase with hcase | hcase
    all_goals
      rw [hcase]
      rintro ⟨⟩
  have hsimple : takesSimple i.opcode = true := by
    rcases hcase with hcase | hcase <;> rw [hcase] <;> rfl
  have hlist := operands_inj h h' hopcode hoperands hsimple
  apply alike_of_trimmed h h'
  rcases hcase with hcase | hcase
  all_goals
    have hcase' := hopcode.symm.trans hcase
    simp only [operands, hcase, hcase'] at hlist
    obtain ⟨hrn, hrest⟩ := List.cons.inj hlist
    obtain ⟨hrm, himmediate⟩ := second_congr (List.cons.inj hrest).1
    obtain ⟨_, hkind, hamount⟩ := h.shift_congr h' hopcode hcomputes hmove hrm himmediate
    have hvalue := displaced_congr hrm himmediate
    rw [hrm] at hvalue
    simp only [trimmed, hcase, hcase', hrm, hvalue, Operand.register.inj hrn, hkind, hamount,
      h.length, h'.length]
    rfl

theorem alike_arithmetic (hhead : i.head = i'.head)
    (hcase : i.opcode ∈ [Opcode.add, .sub, .and, .orr, .eor]) :
  i.Alike i'
  := by
  have hlist := operands_inj h h' hopcode hoperands
    ((by decide : ∀ o ∈ [Opcode.add, .sub, .and, .orr, .eor], takesSimple o = true) _ hcase)
  have hcomputes :=
    (by decide : ∀ o ∈ [Opcode.add, .sub, .and, .orr, .eor], o.computes = true) _ hcase
  have hmove : i.opcode = .mov → i.rm = none := by
    intro hmov
    simp [hmov] at hcase
  have hcomplete := h.complete
  have hcomplete' := h'.complete
  apply alike_of_trimmed h h'
  simp only [List.mem_cons, List.not_mem_nil, or_false] at hcase
  rcases hcase with hcase | hcase | hcase | hcase | hcase
  all_goals
    have hcase' := hopcode.symm.trans hcase
    simp only [Instruction.complete, hcase, hcase', Bool.and_eq_true] at hcomplete hcomplete'
    simp only [operands, hcase, hcase'] at hlist
    simp only [head, hcase, hcase'] at hhead
    obtain ⟨hrd, hrn, hsecond⟩ := binary_congr (Option.isSome_iff_ne_none.mp hcomplete.2)
      (Option.isSome_iff_ne_none.mp hcomplete'.2) hlist
    obtain ⟨hrm, himmediate⟩ := second_congr hsecond
    obtain ⟨_, hkind, hamount⟩ := h.shift_congr h' hopcode hcomputes hmove hrm himmediate
    have hvalue := displaced_congr hrm himmediate
    rw [hrm] at hvalue
    simp only [trimmed, hcase, hcase', hrd, hrn, hrm, hvalue, (Head.operation.inj hhead).2, hkind,
      hamount, h.length, h'.length]
    rfl

theorem alike_move (hhead : i.head = i'.head) (hcase : i.opcode = .mov) :
  i.Alike i'
  := by
  have hcase' := hopcode.symm.trans hcase
  have hlist := operands_inj h h' hopcode hoperands (by rw [hcase]; rfl)
  simp only [operands, hcase, hcase'] at hlist
  apply alike_of_trimmed h h'
  by_cases hrm : i.rm = none
  · rw [moveOperands_of_number hrm] at hlist
    by_cases hrm' : i'.rm = none
    · rw [moveOperands_of_number hrm'] at hlist
      obtain ⟨hrd, hrest⟩ := List.cons.inj hlist
      have himmediate := Int32.toInt_inj.mp (Operand.immediate.inj (List.cons.inj hrest).1)
      obtain ⟨hrs, hkind, hamount⟩ := h.shift_congr h' hopcode (by rw [hcase]; rfl) (fun _ => hrm)
        (hrm.trans hrm'.symm) (fun _ => himmediate)
      have hnone := ((h.second (by rw [hcase]; rfl)).of_number hrm).1
      have hnone' := ((h'.second (by rw [hcase']; rfl)).of_number hrm').1
      simp only [head, shiftsByAmount, hcase, hcase', hrm, hrm', hnone, hnone', Option.isSome_none,
        Bool.false_and, Bool.or_false, Bool.false_eq_true, if_false] at hhead
      simp only [trimmed, hcase, hcase', Operand.register.inj hrd, hrm, hrm', hnone, hnone',
        himmediate, hkind, hamount, (Head.operation.inj hhead).2, h.length, h'.length]
      rfl
    · rw [moveOperands_of_register hrm'] at hlist
      cases (List.cons.inj (List.cons.inj hlist).2).1
  · rw [moveOperands_of_register hrm] at hlist
    by_cases hrm' : i'.rm = none
    · rw [moveOperands_of_number hrm'] at hlist
      cases (List.cons.inj (List.cons.inj hlist).2).1
    · rw [moveOperands_of_register hrm'] at hlist
      obtain ⟨hrd, hrest⟩ := List.cons.inj hlist
      obtain ⟨hsource, hshift⟩ := List.cons.inj hrest
      have hsource := Operand.register.inj hsource
      obtain ⟨hrs, hkind, hflags, hamount⟩ := moved_congr hcase hcase' hrm hrm' hhead hshift
      have hvalue := displaced_congr hsource (fun hnone => absurd hnone hrm)
      rw [hsource] at hvalue
      have hshifted : (if i'.rs.isSome then 0 else i'.shiftAmount)
          = if i.rs.isSome then 0 else i.shiftAmount := by
        rw [← hrs]
        split
        · rfl
        · next hnone => exact (hamount (Option.not_isSome_iff_eq_none.mp hnone)).symm
      rw [hrs] at hshifted
      simp only [trimmed, hcase, hcase', Operand.register.inj hrd, hsource, hrs, hvalue, hshifted,
        hkind, hflags, h.length, h'.length]
      rfl

theorem alike_transfer (hhead : i.head = i'.head) (hcase : i.opcode = .ldr ∨ i.opcode = .str) :
  i.Alike i'
  := by
  have hcomplete := h.complete
  have hcomplete' := h'.complete
  apply alike_of_trimmed h h'
  rcases hcase with hcase | hcase
  all_goals
    have hcase' := hopcode.symm.trans hcase
    simp only [Instruction.complete, hcase, hcase', Bool.and_eq_true, Option.isSome_iff_exists]
      at hcomplete hcomplete'
    obtain ⟨⟨t, ht⟩, n, hn⟩ := hcomplete
    obtain ⟨⟨t', ht'⟩, n', hn'⟩ := hcomplete'
    simp only [operandText, operands, hcase, hcase', ht, hn, ht', hn'] at hoperands
    obtain ⟨hregister, hmemory⟩ := pair_inj (Operand.registerName_unbroken t (h.rd_lt ht)).1
      (Operand.registerName_unbroken t' (h'.rd_lt ht')).1 hoperands
    have hrd := Operand.registerName_inj t (h.rd_lt ht) t' (h'.rd_lt ht') hregister
    obtain ⟨hrn, hrm, hdisplacement⟩ := Operand.memory_inj (h.rn_lt hn) (h'.rn_lt hn')
      (fun _ => h.rm_lt) (fun _ => h'.rm_lt) hmemory
    have hvalue := displaced_congr hrm fun hnone => Int32.toInt_inj.mp (hdisplacement hnone)
    rw [hrm] at hvalue
    simp only [head, hcase, hcase'] at hhead
    obtain ⟨_, hsigned, hwidth⟩ := Head.transfer.inj hhead
    simp only [trimmed, hcase, hcase', ht, ht', hrd, hn, hn', hrn, hrm, hvalue, hsigned, hwidth,
      h.length, h'.length]
    rfl

theorem alike_multiple (hcase : i.opcode = .ldm ∨ i.opcode = .stm) :
  i.Alike i'
  := by
  have hcomplete := h.complete
  have hcomplete' := h'.complete
  apply alike_of_trimmed h h'
  rcases hcase with hcase | hcase
  all_goals
    have hcase' := hopcode.symm.trans hcase
    simp only [Instruction.complete, hcase, hcase', Option.isSome_iff_exists]
      at hcomplete hcomplete'
    obtain ⟨n, hn⟩ := hcomplete
    obtain ⟨n', hn'⟩ := hcomplete'
    simp only [operandText, operands, hcase, hcase', hn, hn'] at hoperands
    obtain ⟨hbase, hlist⟩ := pair_inj (Operand.base_unbroken n (h.rn_lt hn) i.writeback)
      (Operand.base_unbroken n' (h'.rn_lt hn') i'.writeback) hoperands
    obtain ⟨hrn, hwriteback⟩ := Operand.base_inj n (h.rn_lt hn) n' (h'.rn_lt hn') _ _ hbase
    simp only [trimmed, hcase, hcase', hn, hn', hrn, hwriteback, Operand.registers_inj hlist,
      h.length, h'.length]
    rfl

theorem alike_stack (hcase : i.opcode = .push ∨ i.opcode = .pop) :
  i.Alike i'
  := by
  apply alike_of_trimmed h h'
  rcases hcase with hcase | hcase
  all_goals
    have hcase' := hopcode.symm.trans hcase
    simp only [operandText, operands, hcase, hcase', List.map_cons, List.map_nil,
      String.intercalate_singleton] at hoperands
    simp only [trimmed, hcase, hcase', Operand.registers_inj hoperands, h.length, h'.length]
    rfl

theorem alike_fromSpecial (hcase : i.opcode = .mrs) :
  i.Alike i'
  := by
  have hcase' := hopcode.symm.trans hcase
  have hcomplete := h.complete
  have hcomplete' := h'.complete
  simp only [Instruction.complete, hcase, hcase', Option.isSome_iff_exists] at hcomplete hcomplete'
  obtain ⟨t, ht⟩ := hcomplete
  obtain ⟨t', ht'⟩ := hcomplete'
  simp only [operandText, operands, hcase, hcase', ht, ht'] at hoperands
  obtain ⟨hregister, hname⟩ := pair_inj (Operand.registerName_unbroken t (h.rd_lt ht)).1
    (Operand.registerName_unbroken t' (h'.rd_lt ht')).1 hoperands
  have hrd := Operand.registerName_inj t (h.rd_lt ht) t' (h'.rd_lt ht') hregister
  apply alike_of_names h h' _ hname
  simp only [trimmed, hcase, hcase', ht, ht', hrd, h.length, h'.length]
  rfl

theorem alike_toSpecial (hhead : i.head = i'.head) (hcase : i.opcode = .msr) :
  i.Alike i'
  := by
  have hcase' := hopcode.symm.trans hcase
  have hcomplete := h.complete
  have hcomplete' := h'.complete
  simp only [Instruction.complete, hcase, hcase'] at hcomplete hcomplete'
  simp only [head, hcase, hcase'] at hhead
  cases hn : i.rn with
  | some n =>
    cases hn' : i'.rn with
    | some n' =>
      simp only [operandText, operands, hcase, hcase', hn, hn', Option.isSome_some, if_true]
        at hoperands
      obtain ⟨hname, hregister⟩ := pair_inj (Operand.selectorName_unbroken i.selector)
        (Operand.selectorName_unbroken i'.selector) hoperands
      have hrn := Operand.registerName_inj n (h.rn_lt hn) n' (h'.rn_lt hn') hregister
      apply alike_of_names h h' _ hname
      simp only [trimmed, hcase, hcase', hn, hn', hrn, h.length, h'.length]
      rfl
    | none =>
      rw [hn, hn'] at hhead
      cases hhead
  | none =>
    cases hn' : i'.rn with
    | some n' =>
      rw [hn, hn'] at hhead
      cases hhead
    | none =>
      have himmediate : i.immediate = i'.immediate := by
        rw [hn, hn'] at hhead
        have hzero := decide_eq_decide.mp (Head.mask.inj hhead)
        rw [hn] at hcomplete
        rw [hn'] at hcomplete'
        simp only [Option.isSome_none, Bool.false_or, Bool.or_eq_true, decide_eq_true_iff]
          at hcomplete hcomplete'
        rcases hcomplete with hvalue | hvalue
        · rcases hcomplete' with hvalue' | hvalue'
          · exact hvalue.trans hvalue'.symm
          · rw [hvalue, hvalue'] at hzero
            exact absurd rfl (hzero.mpr (by decide))
        · rcases hcomplete' with hvalue' | hvalue'
          · rw [hvalue, hvalue'] at hzero
            exact absurd rfl (hzero.mp (by decide))
          · exact hvalue.trans hvalue'.symm
      apply alike_of_trimmed h h'
      simp only [trimmed, hcase, hcase', hn, hn', himmediate, h.length, h'.length]
      rfl

end Operations

/-- The statement of an instruction determines what it does, up to its encoding. -/
theorem Encoded.alike (h : i.Encoded w length) (h' : i'.Encoded w' length)
    (htext : i.text pc = i'.text pc) :
  i.Alike i'
  := by
  have hmnemonic := mnemonic_eq h.opcode_ne
  have hmnemonic' := mnemonic_eq h'.opcode_ne
  have hblank := Head.blank_not_mem _ h.head_mem
  have hblank' := Head.blank_not_mem _ h'.head_mem
  rw [← hmnemonic] at hblank
  rw [← hmnemonic'] at hblank'
  obtain ⟨hnames, hoperands⟩ := Row.statement_inj hblank hblank' htext
  change i.mnemonic = i'.mnemonic at hnames
  rw [hmnemonic, hmnemonic'] at hnames
  have hhead := Head.text_inj _ h.head_mem _ h'.head_mem hnames
  have hopcode : i.opcode = i'.opcode := by
    rw [← opcode_head, hhead, opcode_head]
  have hudf := h.opcode_ne
  cases hcase : i.opcode with
  | udf => exact absurd hcase hudf
  | mov => exact alike_move h h' hopcode hoperands hhead hcase
  | add | sub | and | orr | eor =>
    apply alike_arithmetic h h' hopcode hoperands hhead
    rw [hcase]
    decide
  | cmp => exact alike_compare h h' hopcode hoperands (.inl hcase)
  | tst => exact alike_compare h h' hopcode hoperands (.inr hcase)
  | b => exact alike_branch h h' hopcode hoperands hhead (.inl hcase)
  | bl => exact alike_branch h h' hopcode hoperands hhead (.inr hcase)
  | bx => exact alike_exchange h h' hopcode hoperands (.inl hcase)
  | blx => exact alike_exchange h h' hopcode hoperands (.inr hcase)
  | ldr => exact alike_transfer h h' hopcode hoperands hhead (.inl hcase)
  | str => exact alike_transfer h h' hopcode hoperands hhead (.inr hcase)
  | ldm => exact alike_multiple h h' hopcode hoperands (.inl hcase)
  | stm => exact alike_multiple h h' hopcode hoperands (.inr hcase)
  | push => exact alike_stack h h' hopcode hoperands (.inl hcase)
  | pop => exact alike_stack h h' hopcode hoperands (.inr hcase)
  | mrs => exact alike_fromSpecial h h' hopcode hoperands hcase
  | msr => exact alike_toSpecial h h' hopcode hoperands hhead hcase
  | nop => exact alike_idle h h' hopcode (.inl hcase)
  | wfi => exact alike_idle h h' hopcode (.inr hcase)
  | svc => exact alike_supervisorCall h h' hopcode hoperands hcase

end Instruction

end ThumbSoc
