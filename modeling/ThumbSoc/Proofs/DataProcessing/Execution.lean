import ThumbSoc.Proofs.Commit
import ThumbSoc.Proofs.DataProcessing.Decoding
import ThumbSoc.Proofs.DataProcessing.Values
import ThumbSoc.Semantics

/-!
# Executed data processing

An instruction that computes has the effects that the reference computes from the bits of its
encoding: flags in the top bits of the status register, a result in the destination, and a
program counter that moves on or jumps.
-/

namespace ThumbSoc

open Reference

/-! ### Flags -/

theorem Word.and_bit_beq {mask : Word} {k : Nat} (hmask : mask.toNat = Nat.pow 2 k) (w : Word) :
  (w &&& mask == mask) = w.toBitVec.getLsbD k
  := by
  have hpos : 0 < Nat.pow 2 k := Nat.two_pow_pos k
  apply Bool.eq_iff_iff.mpr
  rw [beq_iff_eq, ← UInt32.toNat_inj, toNat_and_bit hmask, hmask, BitVec.getLsbD,
    Nat.testBit_eq_decide_div_mod_eq, decide_eq_true_iff]
  change _ ↔ w.toNat / Nat.pow 2 k % 2 = 1
  rcases Nat.mod_two_eq_zero_or_one (w.toNat / Nat.pow 2 k) with hbit | hbit
  all_goals
    rw [hbit]
    omega

theorem getLsbD_withFlags (psr : BitVec 32) (n z c v : Bool) {i : Nat} (hi : i < 32) :
  (withFlags psr n z c v).getLsbD i
    = if i = 31 then n else if i = 30 then z else if i = 29 then c else if i = 28 then v
      else psr.getLsbD i
  := by
  have hflags : i < 28 ∨ i = 28 ∨ i = 29 ∨ i = 30 ∨ i = 31 := by omega
  rw [withFlags]
  simp only [BitVec.getLsbD_append, BitVec.getLsbD_extractLsb', BitVec.getLsbD_ofBool]
  rcases hflags with h | rfl | rfl | rfl | rfl
  · have hn : i < 1 + (1 + (1 + 28)) := by omega
    have hz : i < 1 + (1 + 28) := by omega
    have hc : i < 1 + 28 := by omega
    rw [if_pos hn, if_pos hz, if_pos hc, if_pos h, decide_eq_true h, Bool.true_and, Nat.zero_add,
      if_neg (by omega), if_neg (by omega), if_neg (by omega), if_neg (by omega)]
  all_goals rfl

theorem ThumbCore.getLsbD_setFlag (core : ThumbCore) {mask : Word} {k : Nat}
    (hmask : ∀ i < 32, mask.toBitVec.getLsbD i = decide (i = k)) (on : Bool) {i : Nat}
    (hi : i < 32) :
  (core.setFlag mask on).psr.toBitVec.getLsbD i
    = if i = k then on else core.psr.toBitVec.getLsbD i
  := by
  rw [setFlag]
  cases on with
  | true =>
    change (core.psr.toBitVec ||| mask.toBitVec).getLsbD i = _
    rw [BitVec.getLsbD_or, hmask i hi]
    split
    · next h => rw [decide_eq_true h, Bool.or_true]
    · next h => rw [decide_eq_false h, Bool.or_false]
  | false =>
    change (core.psr.toBitVec &&& ~~~mask.toBitVec).getLsbD i = _
    rw [BitVec.getLsbD_and, BitVec.getLsbD_not, hmask i hi, decide_eq_true hi, Bool.true_and]
    split
    · next h => rw [decide_eq_true h, Bool.not_true, Bool.and_false]
    · next h => rw [decide_eq_false h, Bool.not_false, Bool.and_true]

namespace FlagsUpdate

/-- The status register after an update. -/
def status (psr : Word) : FlagsUpdate → Word
  | keep => psr
  | logical n z c => ⟨withFlags psr.toBitVec n z c (psr.toBitVec.getLsbD 28)⟩
  | arithmetic f => ⟨withFlags psr.toBitVec f.n f.z f.c f.v⟩

theorem psr_apply (update : FlagsUpdate) (core : ThumbCore) :
  (update.apply core).psr = update.status core.psr
  := by
  have hn : ∀ i < 32, Psr.n.toBitVec.getLsbD i = decide (i = 31) := by decide
  have hz : ∀ i < 32, Psr.z.toBitVec.getLsbD i = decide (i = 30) := by decide
  have hc : ∀ i < 32, Psr.c.toBitVec.getLsbD i = decide (i = 29) := by decide
  have hv : ∀ i < 32, Psr.v.toBitVec.getLsbD i = decide (i = 28) := by decide
  apply UInt32.eq_of_toBitVec_eq
  apply BitVec.eq_of_getLsbD_eq
  intro i hi
  cases update with
  | keep => rfl
  | logical n z c =>
    rw [status, getLsbD_withFlags _ _ _ _ _ hi, apply, ThumbCore.getLsbD_setFlag _ hc _ hi,
      ThumbCore.getLsbD_setFlag _ hz _ hi, ThumbCore.getLsbD_setFlag _ hn _ hi]
    rcases Decidable.em (i = 28) with rfl | h
    · rfl
    · rw [if_neg h]
      split_ifs <;> first | rfl | omega
  | arithmetic f =>
    rw [status, getLsbD_withFlags _ _ _ _ _ hi, apply, ThumbCore.setFlags,
      ThumbCore.getLsbD_setFlag _ hv _ hi, ThumbCore.getLsbD_setFlag _ hc _ hi,
      ThumbCore.getLsbD_setFlag _ hz _ hi, ThumbCore.getLsbD_setFlag _ hn _ hi]
    split_ifs <;> first | rfl | omega

theorem apply_eq (update : FlagsUpdate) (core : ThumbCore) :
  update.apply core = { core with psr := update.status core.psr }
  := by
  rw [← psr_apply]
  cases update <;> rfl

end FlagsUpdate

namespace Reference

/-! ### Instructions -/

theorem DataProcessing.toInstruction_fields (d : DataProcessing) (w : Word) (length : Nat) :
  (d.toInstruction w length).opcode = d.opcode
    ∧ (d.toInstruction w length).rd = d.destination.map (·.val)
    ∧ (d.toInstruction w length).rn = d.operation.first?.map (·.val)
    ∧ (d.toInstruction w length).setFlags = d.setsFlags
    ∧ (d.toInstruction w length).length = length
  := by
  rw [toInstruction]
  cases d.operand <;> exact ⟨rfl, rfl, rfl, rfl, rfl⟩

/-! ### Operands -/

section Operands

variable (core : ThumbCore) (pc : Word)

theorem operand_eq (n : Fin 16) :
  core.operand pc n = valueOf core pc n
  := by
  obtain ⟨n, hn⟩ := n
  rw [ThumbCore.operand, valueOf]
  rcases Nat.lt_or_ge n 13 with h | h
  · have hne : n ≠ 15 := by omega
    rw [if_neg hne, dif_pos h, Register.ofNumber_general h]
    rfl
  · obtain rfl | rfl | rfl : n = 13 ∨ n = 14 ∨ n = 15 := by omega
    all_goals rfl

variable (d : DataProcessing) (w : Word) (length : Nat)

theorem firstValue_eq {n : Fin 16} (h : d.operation.first? = some n) :
  (d.toInstruction w length).firstValue core pc = firstOf core pc n d.operand
  := by
  have hpc : n.val = 15 ↔ n = 15 := by
    rw [Fin.ext_iff]
    rfl
  have hrn : (d.toInstruction w length).rn = some n.val := by
    rw [(d.toInstruction_fields w length).2.2.1, h]
    rfl
  rw [Instruction.firstValue, hrn, DataProcessing.toInstruction]
  cases d.operand with
  | number | modified =>
    change (if n.val = 15 ∧ none = none then _ else _) = if n = 15 then _ else _
    rw [operand_eq, Word.align_four]
    simp only [hpc, and_true]
  | _ =>
    change (if n.val = 15 ∧ some _ = none then _ else _) = _
    rw [if_neg (fun hnone => Option.some_ne_none _ hnone.2), operand_eq]
    rfl

/-- The second operand is shifted as its kind says. -/
theorem secondValue_eq :
  (d.toInstruction w length).secondValue core pc
    = (⟨(secondOf core pc (core.flag Psr.c) d.operand).1⟩,
      (secondOf core pc (core.flag Psr.c) d.operand).2)
  := by
  rw [DataProcessing.toInstruction]
  cases d.operand with
  | number n => rfl
  | register m =>
    change Shift.apply .lsl (core.operand pc m) 0 (core.flag Psr.c) = _
    rw [Shift.apply_zero, operand_eq]
    rfl
  | modified bits =>
    change (Immediate.expand bits, if Immediate.rotation bits = 0 then core.flag Psr.c
      else Word.negative (Immediate.expand bits)) = _
    simp only [Word.negative_eq, Immediate.expand_eq, Immediate.rotation_eq_zero_iff]
    rfl
  | shifted shift m amount =>
    change shift.apply (core.operand pc m) amount (core.flag Psr.c) = _
    rw [Shift.apply_eq, operand_eq]
    rfl
  | shiftedBy shift m amount =>
    change shift.apply (core.operand pc m) ((core.operand pc amount).toNat % 256) (core.flag Psr.c)
      = _
    rw [Shift.apply_eq, operand_eq, operand_eq]
    rfl

end Operands

end Reference

/-! ### Results -/

namespace Effects

variable (core : ThumbCore) {nextPc : Word} (hnext : nextPc.toNat % 2 = 0) (value : Word)
  (update : FlagsUpdate)

include hnext

/-- The core after effects that only change the flags. -/
theorem commit_flags :
  { goto nextPc with flags := update }.commit core
    = { core with psr := update.status core.psr, pc := nextPc }
  := by
  have hwrites : { goto nextPc with flags := update }.applyWrites core = core :=
    applyWrites_goto nextPc core
  rw [commit, hwrites]
  change (update.apply core).setPc nextPc = _
  rw [FlagsUpdate.apply_eq, ThumbCore.setPc, Word.even_eq_self hnext]

/-- The core after effects that also have a result. -/
theorem commit_write (n : Fin 16) :
  ({ goto nextPc with flags := update }.write n value).commit core
    = put { core with psr := update.status core.psr, pc := nextPc } n value
  := by
  rcases Nat.lt_or_ge n.val 15 with h | h
  · have hwrites : ({ goto nextPc with flags := update }.write n value).applyWrites core
        = core.write (.ofNumber n) value := by
      have hnone : { goto nextPc with flags := update }.applyWrites core = core :=
        applyWrites_goto nextPc core
      rw [applyWrites_write _ _ h, hnone]
    have hothers : { goto nextPc with flags := update }.write n value
        = { goto nextPc with
            flags := update
            writes := (goto nextPc).writes.set n (some value) h } := dif_pos h
    rw [commit, hwrites, hothers]
    change (update.apply (core.write (.ofNumber n) value)).setPc nextPc = _
    rw [FlagsUpdate.apply_eq, ThumbCore.setPc, Word.even_eq_self hnext, put]
    rcases Nat.lt_or_ge n.val 13 with hgeneral | hgeneral
    · rw [dif_pos hgeneral, Register.ofNumber_general hgeneral]
      rfl
    · obtain hn | hn : n = 13 ∨ n = 14 := by omega
      all_goals
        subst hn
        rfl
  · have hpc : n = 15 := by omega
    have hjump : { goto nextPc with flags := update }.write n value
        = { goto (Word.even value) with flags := update } := dif_neg (Nat.not_lt_of_le h)
    rw [hjump, commit_flags core (Word.even_even value), hpc, put, Word.even_eq value]
    rfl

end Effects

/-! ### Execution -/

namespace Reference

/-- The update of the flags that goes with a result. -/
def Outcome.update (outcome : Outcome) : FlagsUpdate :=
  match outcome.overflow with
  | none => .logical outcome.value.msb (outcome.value == 0) outcome.carry
  | some v => .arithmetic ⟨outcome.value.msb, outcome.value == 0, outcome.carry, v⟩

theorem isZero_eq (value : Word) :
  (value == 0) = (value.toBitVec == 0)
  := by
  apply Bool.eq_iff_iff.mpr
  rw [beq_iff_eq, beq_iff_eq, ← UInt32.toBitVec_inj]
  rfl

theorem ofLogical_eq (value : Word) (carry : Bool) :
  FlagsUpdate.ofLogical value carry = Outcome.update ⟨value.toBitVec, carry, none⟩
  := by
  rw [FlagsUpdate.ofLogical, Word.negative_eq, isZero_eq]
  rfl

theorem ofSum_eq (sum : Sum) :
  FlagsUpdate.ofSum sum = Outcome.update ⟨sum.value.toBitVec, sum.carry, some sum.overflow⟩
  := by
  rw [FlagsUpdate.ofSum, Word.negative_eq, isZero_eq]
  rfl

theorem updatingFlags_continuing (i : Instruction) (pc : Word) (update : FlagsUpdate) :
  i.updatingFlags update (i.continuing pc)
    = { Effects.goto (i.next pc) with flags := if i.setFlags then update else .keep }
  := by
  rw [Instruction.updatingFlags]
  split <;> rfl

namespace DataProcessing

theorem carry_eq (core : ThumbCore) :
  core.flag Psr.c = core.psr.toBitVec.getLsbD 29
  := Word.and_bit_beq rfl core.psr

variable (d : DataProcessing) (w : Word) (length : Nat) (core : ThumbCore) (pc : Word)

/-- The second operand of the instruction at `pc`, with the carry that it leaves. -/
def second : BitVec 32 × Bool :=
  secondOf core pc (core.psr.toBitVec.getLsbD 29) d.operand

/-- The effects of an instruction at `pc` with a given result. -/
def effects (outcome : Outcome) : Effects :=
  let flags := if d.setsFlags then outcome.update else .keep
  ({ Effects.goto (pc + UInt32.ofNat length) with flags } : Effects).write?
    (d.destination.map (·.val)) ⟨outcome.value⟩

theorem move_eq :
  (d.toInstruction w length).move core pc
    = d.effects length pc ⟨(d.second core pc).1, (d.second core pc).2, none⟩
  := by
  obtain ⟨-, hrd, -, hflags, hlength⟩ := d.toInstruction_fields w length
  rw [Instruction.move, secondValue_eq, carry_eq]
  dsimp only
  rw [updatingFlags_continuing, hflags, Instruction.next, hlength, ofLogical_eq, hrd]
  rfl

variable {d} {n : Fin 16}

theorem arithmetic_eq (h : d.operation.first? = some n) {operation : Word → Word → Sum}
    {sum : Sum} (hsum : operation (firstOf core pc n d.operand) ⟨(d.second core pc).1⟩ = sum) :
  (d.toInstruction w length).arithmetic core pc operation (d.destination.map (·.val))
    = d.effects length pc ⟨sum.value.toBitVec, sum.carry, some sum.overflow⟩
  := by
  obtain ⟨-, -, -, hflags, hlength⟩ := d.toInstruction_fields w length
  rw [second] at hsum
  rw [Instruction.arithmetic, firstValue_eq _ _ _ _ _ h, secondValue_eq, carry_eq, hsum,
    updatingFlags_continuing, hflags, Instruction.next, hlength, ofSum_eq]
  rfl

theorem logical_eq (h : d.operation.first? = some n) (operation : Word → Word → Word) :
  (d.toInstruction w length).logical core pc operation (d.destination.map (·.val))
    = d.effects length pc
      ⟨(operation (firstOf core pc n d.operand) ⟨(d.second core pc).1⟩).toBitVec,
        (d.second core pc).2, none⟩
  := by
  obtain ⟨-, -, -, hflags, hlength⟩ := d.toInstruction_fields w length
  rw [Instruction.logical, firstValue_eq _ _ _ _ _ h, secondValue_eq, carry_eq]
  dsimp only
  rw [updatingFlags_continuing, hflags, Instruction.next, hlength, ofLogical_eq]
  rfl

/-- An operation without a destination is executed like one with a destination, but its result
is dropped. -/
theorem execute_operation (bus : Bus) :
  (d.toInstruction w length).execute core pc bus
    = .ok (match d.operation with
      | .add _ =>
        (d.toInstruction w length).arithmetic core pc (addWithCarry · · false)
          (d.destination.map (·.val))
      | .subtract _ =>
        (d.toInstruction w length).arithmetic core pc subtract (d.destination.map (·.val))
      | .and _ =>
        (d.toInstruction w length).logical core pc (· &&& ·) (d.destination.map (·.val))
      | .or _ =>
        (d.toInstruction w length).logical core pc (· ||| ·) (d.destination.map (·.val))
      | .xor _ =>
        (d.toInstruction w length).logical core pc (· ^^^ ·) (d.destination.map (·.val))
      | .move => (d.toInstruction w length).move core pc) bus
  := by
  obtain ⟨hopcode, hrd, -, -, -⟩ := d.toInstruction_fields w length
  rw [Instruction.execute, hopcode, hrd, opcode]
  cases d.operation <;> cases d.destination <;> rfl

theorem execute_toInstruction (bus : Bus) :
  (d.toInstruction w length).execute core pc bus = .ok (d.effects length pc (d.result core pc)) bus
  := by
  have hresult : d.result core pc
      = outcome core pc (d.second core pc).1 (d.second core pc).2 d.operand d.operation := rfl
  rw [execute_operation, hresult]
  cases hoperation : d.operation with
  | add n =>
    have hfirst : d.operation.first? = some n := congrArg Operation.first? hoperation
    dsimp only
    rw [arithmetic_eq w length core pc hfirst (addWithCarry_eq _ _)]
    rfl
  | subtract n =>
    have hfirst : d.operation.first? = some n := congrArg Operation.first? hoperation
    dsimp only
    rw [arithmetic_eq w length core pc hfirst (subtract_eq _ _)]
    rfl
  | and n | or n | xor n =>
    have hfirst : d.operation.first? = some n := congrArg Operation.first? hoperation
    dsimp only
    rw [logical_eq w length core pc hfirst]
    rfl
  | move =>
    dsimp only
    rw [move_eq]
    rfl

theorem status_update (outcome : Outcome) (psr : Word) :
  outcome.update.status psr
    = ⟨withFlags psr.toBitVec outcome.value.msb (outcome.value == 0) outcome.carry
      (outcome.overflow.getD (psr.toBitVec.getLsbD 28))⟩
  := by
  rw [Outcome.update]
  cases outcome.overflow <;> rfl

theorem commit_effects (hpc : pc.toNat % 2 = 0) (hlength : (UInt32.ofNat length).toNat % 2 = 0) :
  (d.effects length pc (d.result core pc)).commit core = d.after core pc length
  := by
  have hnext : (pc + UInt32.ofNat length).toNat % 2 = 0 := Word.add_even hpc hlength
  have hstatus : (if d.setsFlags then (d.result core pc).update else .keep).status core.psr
      = d.status core pc := by
    rw [status, ← status_update]
    split <;> rfl
  rw [effects, after, ← hstatus]
  cases d.destination with
  | none => apply Effects.commit_flags core hnext
  | some n => apply Effects.commit_write core hnext

end DataProcessing

end Reference

/-- Decoding, executing and applying the effects together is what the reference computes from
the bits of the encoding, for every instruction that computes. -/
theorem Instruction.commit_execute_eq_after {w pc : Word} {length : Nat} {i : Instruction}
    (h : Instruction.decode w length = .ok i) (hcomputes : i.computes = true)
    (hpc : pc.toNat % 2 = 0) (core : ThumbCore) (bus : Bus) :
  ∃ d effects, Reference.decode? w length = some d
    ∧ i.execute core pc bus = .ok effects bus
    ∧ effects.commit core = d.after core pc length
  := by
  have hfilter := filter_decode w length
  rw [decode?_of_decode h, Option.filter_some_pos hcomputes] at hfilter
  obtain ⟨d, hd, rfl⟩ := Option.map_eq_some_iff.mp hfilter.symm
  have hlength : (UInt32.ofNat length).toNat % 2 = 0 := by
    unfold Reference.decode? at hd
    split at hd
    · rfl
    · rfl
    · cases hd
  refine ⟨d, _, hd, d.execute_toInstruction w length core pc bus, ?_⟩
  apply d.commit_effects length core pc hpc hlength

/-! ### A shift by the whole width -/

/-- The instruction `asrs r0, r1, #32`, whose amount field is zero. -/
def signFill : Instruction :=
  { Instruction.plain .mov 0x1008 2 with
    rd := some 0
    rm := some 1
    shift := .asr
    shiftAmount := 32
    setFlags := true }

/-- A core that holds the least signed number in `r1`. -/
def holdingLeast : ThumbCore :=
  { ThumbCore.reset 0x20000060 with general := #v[0, 0x80000000, 0, 0, 0, 0, 0, 0, 0, 0, 0, 0, 0] }

/-- Copies of the sign remain, and a copy is carried out. -/
theorem signFill_commit_execute :
  ∃ effects,
    signFill.execute holdingLeast 0x20000000 (Bus.initial 96) = .ok effects (Bus.initial 96)
      ∧ effects.commit holdingLeast
        = { holdingLeast with
            general := #v[0xFFFFFFFF, 0x80000000, 0, 0, 0, 0, 0, 0, 0, 0, 0, 0, 0]
            psr := Psr.t ||| Psr.n ||| Psr.c
            pc := 0x20000002 }
  := by
  have hdecode : Instruction.decode 0x1008 2 = .ok signFill := rfl
  have hpc : UInt32.toNat 0x20000000 % 2 = 0 := rfl
  obtain ⟨d, effects, hd, hexecute, hcommit⟩ :=
    Instruction.commit_execute_eq_after hdecode rfl hpc holdingLeast (Bus.initial 96)
  use effects, hexecute
  rw [hcommit]
  cases hd
  decide +kernel

end ThumbSoc
