import ThumbSoc.Proofs.Bus.ByteMemory
import ThumbSoc.Proofs.DataProcessing.Execution
import ThumbSoc.Proofs.SingleTransfer.Decoding

/-!
# Executed loads and stores

A load or store of one register makes the transfer that the reference reads off the bits of its
encoding: the address, the bytes, the extension of a loaded number, and nothing besides. If the
bus rejects the transfer, the instruction faults with the address that was rejected.
-/

namespace ThumbSoc

open Reference

/-! ### Loaded numbers -/

/-- The model's extension of a number by its sign is that of bit vectors. -/
theorem Width.signExtend_eq (width : Width) (value : Word) :
  width.signExtend value = ⟨(BitVec.ofNat (8 * width.bytes) value.toNat).signExtend 32⟩
  := by
  apply UInt32.toBitVec_inj.mp
  rw [signExtend, Word.signExtend, BitVec.signExtend, BitVec.toInt_ofNat']
  rfl

/-- A number of no more bytes than the width is extended with zeros as it is. -/
theorem Width.zeroExtend_eq (width : Width) {value : Word}
    (h : value.toNat < Nat.pow 256 width.bytes) :
  value = ⟨(BitVec.ofNat (8 * width.bytes) value.toNat).setWidth 32⟩
  := by
  have hpow : Nat.pow 256 width.bytes = 2 ^ (8 * width.bytes) := by cases width <;> rfl
  rw [hpow] at h
  apply UInt32.toNat_inj.mp
  change value.toNat
    = ((BitVec.ofNat (8 * width.bytes) value.toNat).setWidth 32).toNat
  rw [BitVec.toNat_setWidth, BitVec.toNat_ofNat, Nat.mod_eq_of_lt h,
    Nat.mod_eq_of_lt value.toNat_lt]

/-! ### Effects -/

namespace Effects

variable (core : ThumbCore) (nextPc value : Word)

theorem commit_goto :
  (goto nextPc).commit core = core.setPc nextPc
  := by rw [(WritesOnly.goto nextPc).commit, applyWrites_goto]

/-- A single result is put into its register, and execution goes on. -/
theorem commit_goto_write {n : Fin 16} (h : n ≠ 15) :
  ((goto nextPc).write n value).commit core = put (core.setPc nextPc) n value
  := by
  have hn : n.val < 15 := by omega
  rw [((WritesOnly.goto nextPc).write hn value).commit, applyWrites_write _ _ hn,
    applyWrites_goto, put]
  rcases Nat.lt_or_ge n.val 13 with hgeneral | hgeneral
  · rw [dif_pos hgeneral, Register.ofNumber_general hgeneral]
    rfl
  · obtain hn | hn : n = 13 ∨ n = 14 := by omega
    all_goals
      subst hn
      rfl

end Effects

/-! ### Execution -/

namespace Reference.SingleTransfer

variable (t : SingleTransfer) (w : Word) (length : Nat) (core : ThumbCore) (pc : Word) (bus : Bus)

theorem toInstruction_fields :
  (t.toInstruction w length).opcode = t.direction.opcode
    ∧ (t.toInstruction w length).rd = some t.register.val
    ∧ (t.toInstruction w length).width = t.width
    ∧ (t.toInstruction w length).signed = t.direction.signed
    ∧ (t.toInstruction w length).length = length
  := by
  rw [toInstruction]
  cases t.place <;> exact ⟨rfl, rfl, rfl, rfl, rfl⟩

theorem toInstruction_address :
  (t.toInstruction w length).address core pc = t.address core pc
  := by
  rw [toInstruction, address]
  cases t.place with
  | above base distance =>
    have hpc : base.val = 15 ↔ base = programCounter := by
      rw [Fin.ext_iff]
      rfl
    change (if base.val = 15 ∧ none = none then _ else core.operand pc base)
      + UInt32.ofNat distance = _
    simp only [hpc, and_true]
    rw [operand_eq, Word.align_four]
  | indexed base index =>
    have low (n : Fin 8) : core.operand pc n = core.general[n.val] := by
      have hne : n.val ≠ 15 := by omega
      have hgeneral : n.val < 13 := by omega
      rw [ThumbCore.operand, if_neg hne, Register.ofNumber_general hgeneral]
      rfl
    have hne : ¬ (base.val = 15 ∧ some index.val = none) := fun h => Option.some_ne_none _ h.2
    change (if base.val = 15 ∧ some index.val = none then _ else core.operand pc base)
      + core.operand pc index = _
    rw [if_neg hne, low, low]

/-- A load reads, and puts what it finds into its register. -/
theorem execute_load {signed : Bool} (hdirection : t.direction = .load signed)
    (hregister : t.register ≠ 15) :
  (t.toInstruction w length).execute core pc bus
    = match Bus.read (t.address core pc) t.width bus with
      | .ok raw after =>
        .ok ((Effects.goto (pc + UInt32.ofNat length)).write t.register
          (if signed then t.width.signExtend raw else raw)) after
      | .error fault after => .error (.bus pc fault) after
  := by
  obtain ⟨hopcode, hrd, hwidth, hsigned, hlength⟩ := t.toInstruction_fields w length
  have hne : t.register.val ≠ 15 := fun h => hregister (Fin.ext h)
  rw [hdirection] at hopcode hsigned
  rw [Instruction.execute, hopcode]
  simp only [Direction.opcode, Instruction.transferring, Instruction.load, hrd, hwidth, hsigned,
    Direction.signed, toInstruction_address, if_neg hne, Instruction.continuing, Instruction.next,
    hlength]
  cases hread : Bus.read (t.address core pc) t.width bus with
  | ok raw after =>
    rw [bind_of_ok _ hread]
    rfl
  | error fault after => rw [bind_of_error _ hread]

/-- A store writes its register and has no other effects. -/
theorem execute_store (hdirection : t.direction = .store) :
  (t.toInstruction w length).execute core pc bus
    = match Bus.write (t.address core pc) t.width (valueOf core pc t.register) bus with
      | .ok _ after => .ok (Effects.goto (pc + UInt32.ofNat length)) after
      | .error fault after => .error (.bus pc fault) after
  := by
  obtain ⟨hopcode, hrd, hwidth, -, hlength⟩ := t.toInstruction_fields w length
  rw [hdirection] at hopcode
  rw [Instruction.execute, hopcode]
  simp only [Direction.opcode, Instruction.transferring, Instruction.store, hrd, hwidth,
    ThumbCore.operandOr, operand_eq, toInstruction_address, Instruction.continuing,
    Instruction.next, hlength]
  cases hwrite : Bus.write (t.address core pc) t.width (valueOf core pc t.register) bus with
  | ok u after =>
    rw [bind_of_ok _ hwrite]
    rfl
  | error fault after => rw [bind_of_error _ hwrite]

/-- The loaded value is the number that the bus found, extended as the direction says. -/
theorem loaded_eq (signed : Bool) {raw : Word} {byte : Nat → UInt8}
    (hraw : raw.toNat = littleEndian byte (t.address core pc).toNat t.width.bytes) :
  t.loaded core pc signed byte = if signed then t.width.signExtend raw else raw
  := by
  rw [loaded, ← hraw]
  cases signed with
  | true => exact (t.width.signExtend_eq raw).symm
  | false =>
    have hlt : raw.toNat < Nat.pow 256 t.width.bytes := by
      rw [hraw]
      apply littleEndian_lt
    exact (t.width.zeroExtend_eq hlt).symm

/-- An encoding has two bytes or four. -/
theorem length_even (h : decode? w length = some t) :
  (UInt32.ofNat length).toNat % 2 = 0
  := by
  unfold decode? at h
  split at h
  · rfl
  · rfl
  · cases h

end Reference.SingleTransfer

/-- **Single loads and stores do what the encoding says.** Every encoding that the decoder takes
for the load or store of one register, other than the program counter, is one of the reference.
If its address is a multiple of its width and its bytes lie in memory, a load puts the number that
they spell into its register, extended with zeros or with its sign, and a store leaves the low
bytes of its register there; the program counter moves on by the length of the encoding, and
nothing else changes. If the bus rejects the transfer, the instruction faults with the address of
the transfer, and the bus is as it was. -/
theorem Instruction.execute_singleTransfer {w : Word} {length : Nat} {i : Instruction}
    (h : Instruction.decode w length = .ok i) (htransfers : i.transfersOne = true)
    (hrd : i.rd ≠ some 15) (core : ThumbCore) (pc : Word) (bus : Bus) :
  ∃ t, SingleTransfer.decode? w length = some t ∧
    let address := t.address core pc
    let inSram := address.toNat % t.width.bytes = 0 ∧ bus.InSram address t.width
    let next := core.setPc (pc + UInt32.ofNat length)
    (pc.toNat % 2 = 0 → next = { core with pc := pc + UInt32.ofNat length })
    ∧ match t.direction with
      | .load signed =>
        (inSram → ∃ effects, i.execute core pc bus = .ok effects bus
          ∧ effects.commit core = put next t.register (t.loaded core pc signed bus.byteAt))
        ∧ ∀ fault after, Bus.read address t.width bus = .error fault after →
          i.execute core pc bus = .error (.bus pc fault) bus ∧ fault.address = address
      | .store =>
        (inSram → ∃ effects sram, i.execute core pc bus = .ok effects { bus with sram }
          ∧ effects.commit core = next
          ∧ sram.size = bus.sram.size
          ∧ ∀ a, sramBase.toNat ≤ a →
            Bus.byteAt { bus with sram } a = t.stored core pc bus.byteAt a)
        ∧ ∀ fault after,
          Bus.write address t.width (valueOf core pc t.register) bus = .error fault after →
          i.execute core pc bus = .error (.bus pc fault) bus ∧ fault.address = address
  := by
  obtain ⟨t, ht, rfl⟩ := SingleTransfer.decode?_of_decode h htransfers
  have hregister : t.register ≠ 15 := by
    rintro hpc
    apply hrd
    rw [(t.toInstruction_fields w length).2.1, hpc]
    rfl
  use t, ht
  constructor
  · intro hpc
    rw [ThumbCore.setPc, Word.even_eq_self (Word.add_even hpc (t.length_even w length ht))]
  cases hdirection : t.direction with
  | load signed =>
    have hexecute := t.execute_load w length core pc bus hdirection hregister
    constructor
    · rintro ⟨halign, hspan⟩
      obtain ⟨raw, hread, hraw⟩ := hspan.read halign
      rw [hread] at hexecute
      refine ⟨_, hexecute, ?_⟩
      rw [Effects.commit_goto_write _ _ _ hregister, t.loaded_eq core pc signed hraw]
    · intro fault after hread
      obtain ⟨rfl, hfault⟩ := Bus.read_rejected hread
      rw [hread] at hexecute
      exact ⟨hexecute, hfault⟩
  | store =>
    have hexecute := t.execute_store w length core pc bus hdirection
    constructor
    · rintro ⟨halign, hspan⟩
      obtain ⟨sram, hwrite, hsize, hbytes⟩ := hspan.write halign (valueOf core pc t.register)
      rw [hwrite] at hexecute
      exact ⟨_, sram, hexecute, Effects.commit_goto core _, hsize, hbytes⟩
    · intro fault after hwrite
      obtain ⟨rfl, hfault⟩ := Bus.write_rejected hwrite
      rw [hwrite] at hexecute
      exact ⟨hexecute, hfault⟩

/-! ### A load that extends the sign -/

/-- The instruction `ldrsh r0, [r1, r2]`. -/
def signedLoad : Instruction :=
  { Instruction.plain .ldr 0x5E88 2 with
    rd := some 0
    rn := some 1
    rm := some 2
    width := .halfword
    signed := true }

/-- A core with the start of memory in `r1` and a distance in `r2`. -/
def holdingBase : ThumbCore :=
  { ThumbCore.reset 0x20000004 with
    general := #v[0, 0x20000000, 2, 0, 0, 0, 0, 0, 0, 0, 0, 0, 0] }

/-- A bus with a negative halfword in memory. -/
def negativeBus : Bus :=
  { Bus.initial 4 with sram := ⟨#[0, 0, 0xFE, 0xFF]⟩ }

theorem signedLoad_execute :
  ∃ effects, signedLoad.execute holdingBase 0x20000000 negativeBus = .ok effects negativeBus
    ∧ effects.commit holdingBase
      = { holdingBase with
          general := #v[0xFFFFFFFE, 0x20000000, 2, 0, 0, 0, 0, 0, 0, 0, 0, 0, 0]
          pc := 0x20000002 }
  := by
  have hdecode : Instruction.decode 0x5E88 2 = .ok signedLoad := rfl
  have hrd : signedLoad.rd ≠ some 15 := by decide
  obtain ⟨t, ht, _, htransfer⟩ :=
    Instruction.execute_singleTransfer hdecode rfl hrd holdingBase 0x20000000 negativeBus
  cases ht
  obtain ⟨effects, hexecute, hcommit⟩ := htransfer.1 (by decide)
  use effects, hexecute
  rw [hcommit]
  decide +kernel

end ThumbSoc
