import Mathlib.Tactic.IntervalCases
import ThumbSoc.Proofs.Bus.Memory
import ThumbSoc.Proofs.Commit
import ThumbSoc.Proofs.Invariants.Core

/-!
# The interrupted context

A supervisor call stores the context it interrupts in a frame below the stack pointer, and a
later return through that frame brings the context back. The handler in between may do what it
likes, as long as it keeps the frame and comes back to the stack pointer and the level of
exceptions that the call left.
-/

namespace ThumbSoc

/-- The core with new values in the five general registers of a frame. -/
def ThumbCore.scratch (core : ThumbCore) (r0 r1 r2 r3 r12 : Word) : ThumbCore :=
  ((((core.write (.general 0) r0).write (.general 1) r1).write (.general 2) r2).write (.general 3)
    r3).write (.general 12) r12

/-- The core that goes on at `pc` in the context of another core: the registers of a frame, the
stack pointer, the status register and the bookkeeping of exceptions are those of the other
core, and everything else stays. -/
def ThumbCore.resumed (later core : ThumbCore) (pc : Word) : ThumbCore :=
  { later with
    general := .ofFn fun n =>
      if n.val < 4 ∨ n.val = 12 then core.general.get n else later.general.get n
    sp := core.sp
    lr := core.lr
    pc
    psr := core.psr
    inException := core.inException
    exceptionLevel := core.exceptionLevel }

namespace Exception

/-- What a handler keeps of the state in which it was entered, where its frame is at `offset`
in memory. -/
structure Kept (offset : Nat) (entered : ThumbCore) (enteredBus : Bus) (later : ThumbCore)
    (laterBus : Bus) : Prop where
  sp : later.sp = entered.sp
  exceptionLevel : later.exceptionLevel = entered.exceptionLevel
  inException : later.inException = entered.inException
  frame : laterBus.sram.readBytes? offset (4 * frameWords)
    = enteredBus.sram.readBytes? offset (4 * frameWords)

variable {core : ThumbCore} {sp : Word}

/-! ### The place of the frame -/

theorem toNat_sub_frame (sp : Word) :
  (sp - 32).toNat = (4294967264 + sp.toNat) % 4294967296
  := UInt32.toNat_sub sp 32

/-- Bit 2 of a word in its place. -/
theorem toNat_and_four (w : Word) :
  (w &&& 4).toNat = w.toNat / 4 % 2 * 4
  := by
  have hfour : (4 : Word).toNat = Nat.pow 2 2 := rfl
  rw [Word.toNat_and_bit hfour]

/-- The frame lies 32 bytes below the stack pointer, or 36 bytes if that is a multiple of four
and not of eight. -/
theorem toNat_frameBelow (sp : Word) :
  (frameBelow sp).toNat = (sp - 32).toNat - sp.toNat / 4 % 2 * 4
  := by
  have hparts := Word.toNat_and_not_add_and (sp - 32) 4
  rw [toNat_and_four, toNat_sub_frame] at hparts
  rw [frameBelow, toNat_sub_frame]
  omega

theorem frameBelow_aligned (h : (frameBelow sp).toNat % 4 = 0) :
  (frameBelow sp).toNat % 8 = 0 ∧ sp.toNat % 4 = 0
  := by
  rw [toNat_frameBelow, toNat_sub_frame] at h ⊢
  omega

/-- The stack pointer is found again above the frame, with the status word that was stored. -/
theorem stackAbove_storedStatus (hpsr : Word.Clear Psr.realigned core.psr)
    (hsp : core.sp.toNat % 4 = 0) :
  stackAbove (frameBelow core.sp) (storedStatus core) = core.sp
  := by
  have hsub := toNat_sub_frame core.sp
  have hframe := toNat_frameBelow core.sp
  have hbit := toNat_and_four core.sp
  have hadd : (frameBelow core.sp + 32).toNat
      = ((frameBelow core.sp).toNat + 32) % 4294967296 := UInt32.toNat_add _ _
  have hlt := core.sp.toNat_lt
  apply UInt32.toNat_inj.mp
  rw [storedStatus]
  split
  · next hzero =>
    have hclear : core.psr &&& Psr.realigned = 0 := hpsr
    have hzero' : (core.sp &&& 4).toNat = 0 := congrArg UInt32.toNat hzero
    rw [stackAbove, if_pos hclear, hadd]
    omega
  · next hset =>
    have hmarked : (core.psr ||| Psr.realigned) &&& Psr.realigned ≠ 0 := by
      rw [Word.or_and_mask]
      decide
    have hset' : (core.sp &&& 4).toNat ≠ 0 := by
      intro h
      apply hset (UInt32.toNat_inj.mp h)
    have hclear : Word.Clear 4 (frameBelow core.sp + 32) := by
      apply UInt32.toNat_inj.mp
      rw [toNat_and_four, hadd]
      change _ = 0
      omega
    rw [stackAbove, if_neg hmarked, Word.toNat_or_of_clear hclear, hadd]
    change _ + 4 = _
    omega

/-- The status word without the mark is the one before the call. -/
theorem storedStatus_unmarked (hpsr : Word.Clear Psr.realigned core.psr) :
  storedStatus core &&& ~~~Psr.realigned = core.psr
  := by
  rw [storedStatus]
  split
  · apply hpsr.and_not
  · rw [Word.or_and_not, hpsr.and_not]

/-! ### Entering -/

/-- An exception whose frame lies in memory stores it there, and goes on behind the frame. -/
theorem enter_ok {number : UInt8} {effects entry : Effects} {bus enteredBus : Bus} {offset : Nat}
    (h : enter core number effects bus = .ok entry enteredBus)
    (hspan : sramOffset? (frameBelow core.sp) (4 * frameWords) bus.sram.size = some offset) :
  bus.Routed (frameBelow core.sp) frameWords
    ∧ enteredBus.sram = bus.sram.setWords offset (frame core effects.nextPc)
    ∧ ∃ link handler, entry = { ((effects.write 13 (frameBelow core.sp)).write 14 link).jump handler
        with transition := some (.enter number) }
  := by
  obtain ⟨_, mid, hprobe, hrest⟩ := bind_eq_ok.mp h
  obtain ⟨rfl, hrouted⟩ := Bus.probeWords_ok hprobe
  obtain ⟨handler, read, hread, hrest⟩ := bind_eq_ok.mp hrest
  obtain ⟨target, _, hafter⟩ := Bus.read_ok hread
  have hsram : read.sram = mid.sram := by rw [hafter, Bus.afterRead_sram]
  obtain ⟨_, stored, hstore, hpure⟩ := bind_eq_ok.mp hrest
  have hlength : (frame core effects.nextPc).length = frameWords := rfl
  have hrouted' := hrouted.congr (congrArg Sram.size hsram)
  rw [← hsram, ← hlength] at hspan
  rw [← hlength] at hrouted'
  have hwrite := Bus.writeWords_memory hrouted' hspan
  rcases Bus.storeWords_eq read (frameBelow core.sp) (frame core effects.nextPc) with
    ⟨hunrouted, _⟩ | ⟨_, hstores⟩
  · exact absurd hrouted' hunrouted
  rw [hwrite] at hstores
  obtain ⟨_, rfl⟩ := EStateM.Result.ok.inj (hstores.symm.trans hstore)
  obtain ⟨rfl, rfl⟩ := EStateM.Result.ok.inj hpure
  use hrouted
  constructor
  · rw [hsram]
  · use if core.inException then returnToHandler else returnToThread, handler

/-! ### Leaving -/

/-- Leaving takes the words of the frame apart. -/
theorem leave_ok {start r0 r1 r2 r3 r12 lr target status : Word} {bus bus' : Bus}
    (effects : Effects)
    (h : Bus.readWords start frameWords bus = .ok [r0, r1, r2, r3, r12, lr, target, status] bus') :
  leave start effects bus = .ok
    { (((((((effects.write 0 r0).write 1 r1).write 2 r2).write 3 r3).write 12 r12).write 14
        lr).write 13 (stackAbove start status)).jump target with
      status := some (status &&& ~~~Psr.realigned)
      transition := some .leave } bus'
  := by
  rw [leave, bind_of_ok _ h]
  rfl

/-- A frame that was kept reads back as it was stored. -/
theorem Kept.readWords {entered later : ThumbCore} {bus enteredBus laterBus : Bus} {start : Word}
    {offset : Nat} {values : List Word} (h : Kept offset entered enteredBus later laterBus)
    (hrouted : bus.Routed start frameWords)
    (hspan : sramOffset? start (4 * frameWords) bus.sram.size = some offset)
    (hstored : enteredBus.sram = bus.sram.setWords offset values)
    (hlength : values.length = frameWords) :
  Bus.readWords start frameWords laterBus = .ok values laterBus
  := by
  obtain ⟨hbase, hend, hoffset⟩ := Bus.sramOffset?_some hspan
  have hfits : offset + 4 * values.length ≤ bus.sram.size := by omega
  have hsize : enteredBus.sram.size = bus.sram.size := by rw [hstored, Sram.size_setWords]
  obtain ⟨hlater, hbytes⟩ := Sram.byte_of_readBytes? h.frame (by omega)
  have hbounds : sramBase.toNat ≤ start.toNat
      ∧ start.toNat + 4 * frameWords ≤ sramBase.toNat + laterBus.sram.size := by omega
  have hspan' : sramOffset? start (4 * frameWords) laterBus.sram.size = some offset := by
    simp only [sramOffset?, if_pos hbounds, hoffset]
  rw [Bus.readWords_memory hrouted hspan', Sram.words_congr hbytes, hstored, ← hlength,
    Sram.words_setWords hfits]

/-- While an exception is handled, a branch to a return value leaves it. -/
theorem execute_return {later : ThumbCore} {laterBus bus' : Bus} {ret : Instruction}
    {laterPc : Word} {exit : Effects} (hhandling : later.inException = true)
    (hret : ret.opcode = .bx) (htarget : isReturn (later.operandOr laterPc ret.rm 0) = true)
    (h : leave later.sp (ret.continuing laterPc) laterBus = .ok exit bus') :
  ret.execute later laterPc laterBus = .ok exit bus'
  := by
  simp only [Instruction.execute, hret, branch, hhandling, htarget, Bool.and_true, if_true]
  apply Instruction.transferring_ok.mpr h

/-! ### There and back -/

/-- The core in which a handler is entered. -/
theorem commit_entered {number : UInt8} {nextPc link handler : Word} :
  ({ (((Effects.goto nextPc).write 13 sp).write 14 link).jump handler with
      transition := some (.enter number) } : Effects).commit core
    = (Transition.apply { core with sp, lr := link } (.enter number)).setPc (Word.even handler)
  := by
  have hwrites : (((Effects.goto nextPc).write 13 sp).write 14 link).applyWrites core
      = { core with sp, lr := link } := by
    simp (disch := decide) only [Effects.applyWrites_write, Effects.applyWrites_goto]
    rfl
  rw [← hwrites]
  rfl

/-- The core that goes on with the words of a frame. -/
theorem commit_left {r0 r1 r2 r3 r12 lr nextPc target status : Word} :
  ({ ((((((((Effects.goto nextPc).write 0 r0).write 1 r1).write 2 r2).write 3 r3).write 12
        r12).write 14 lr).write 13 sp).jump target with
      status := some status
      transition := some .leave } : Effects).commit core
    = (Transition.apply
        { core with
          general := (core.scratch r0 r1 r2 r3 r12).general
          sp
          lr
          psr := status } .leave).setPc (Word.even target)
  := by
  have hwrites : ((((((((Effects.goto nextPc).write 0 r0).write 1 r1).write 2 r2).write 3
        r3).write 12 r12).write 14 lr).write 13 sp).applyWrites core
      = { core with general := (core.scratch r0 r1 r2 r3 r12).general, sp, lr } := by
    simp (disch := decide) only [Effects.applyWrites_write, Effects.applyWrites_goto]
    rfl
  have hstatus := congrArg (fun written : ThumbCore => { written with psr := status }) hwrites
  rw [← hstatus]
  rfl

/-- The registers of a frame are those with which the interrupted context goes on. -/
theorem general_scratch (later : ThumbCore) (pc : Word) :
  (later.scratch (core.general.get 0) (core.general.get 1) (core.general.get 2)
      (core.general.get 3) (core.general.get 12)).general
    = (later.resumed core pc).general
  := by
  apply Vector.ext
  intro i hi
  simp only [ThumbCore.scratch, ThumbCore.write, ThumbCore.resumed, Vector.getElem_set,
    Vector.getElem_ofFn]
  interval_cases i <;> rfl

/-- Leaving takes back one level that was not the last one that is counted. -/
theorem apply_leave {level : UInt8} (hroom : level < 255) (h : core.exceptionLevel = level + 1) :
  Transition.apply core .leave = { core with exceptionLevel := level, inException := level ≠ 0 }
  := by
  have hlt := UInt8.lt_iff_toNat_lt.mp hroom
  have hsum : (level + 1).toNat = (level.toNat + 1) % 256 := UInt8.toNat_add level 1
  have hpos : level + 1 ≠ 0 := by
    intro hzero
    rw [hzero] at hsum
    change level.toNat < 255 at hlt
    change 0 = _ at hsum
    omega
  have hback : level + 1 - 1 = level := UInt8.add_sub_cancel level 1
  simp only [Transition.apply, h, if_neg hpos, hback]

/-- A handler that was entered by a supervisor call whose frame lies in memory comes back by a
branch to a return value: whatever it did to the registers, the flags, the rest of memory and
the devices, the context of the call is there again, and the branch changes nothing else. -/
theorem svc_bx_resumes {bus enteredBus : Bus} {call : Instruction} {entry : Effects} {pc : Word}
    {offset : Nat} (hcall : call.opcode = .svc) (hlength : call.length = 2)
    (hpsr : Word.Clear Psr.realigned core.psr)
    (hlevel : core.inException = true ↔ 0 < core.exceptionLevel)
    (hroom : core.exceptionLevel < 255) (hpc : pc.toNat % 2 = 0)
    (henter : call.execute core pc bus = .ok entry enteredBus)
    (hspan : sramOffset? (frameBelow core.sp) (4 * frameWords) bus.sram.size = some offset) :
  (entry.commit core).sp = frameBelow core.sp
    ∧ (entry.commit core).sp.toNat % 8 = 0
    ∧ ∀ (later : ThumbCore) (laterBus : Bus) (ret : Instruction) (laterPc : Word),
      Kept offset (entry.commit core) enteredBus later laterBus →
      ret.opcode = .bx → isReturn (later.operandOr laterPc ret.rm 0) = true →
      ∃ exit, ret.execute later laterPc laterBus = .ok exit laterBus
        ∧ exit.commit later = later.resumed core (pc + 2)
  := by
  have hcalled : call.execute core pc
      = Instruction.transferring pc (enter core supervisorCall (call.continuing pc)) := by
    simp only [Instruction.execute, hcall]
  rw [hcalled] at henter
  obtain ⟨hrouted, hstored, link, handler, rfl⟩ :=
    enter_ok (Instruction.transferring_ok.mp henter) hspan
  obtain ⟨haligned, hsp⟩ := frameBelow_aligned hrouted.aligned
  simp only [Instruction.continuing, commit_entered]
  use rfl, haligned
  intro later laterBus ret laterPc hkept hret htarget
  -- The handler still runs, on the stack on which it was entered.
  have hhandling : later.inException = true := hkept.inException
  have hstack : later.sp = frameBelow core.sp := hkept.sp
  have hleave := leave_ok (ret.continuing laterPc) (hkept.readWords hrouted hspan hstored rfl)
  rw [storedStatus_unmarked hpsr, stackAbove_storedStatus hpsr hsp, ← hstack] at hleave
  refine ⟨_, execute_return hhandling hret htarget hleave, ?_⟩
  have hnext : (call.continuing pc).nextPc = pc + 2 := by
    change pc + UInt32.ofNat call.length = _
    rw [hlength]
    rfl
  have heven : Word.even (pc + 2) = pc + 2 := Word.even_eq_self (Word.add_even hpc rfl)
  have hentered : later.exceptionLevel = core.exceptionLevel + 1 := by
    rw [hkept.exceptionLevel]
    change (if core.exceptionLevel = 255 then 255 else core.exceptionLevel + 1) = _
    rw [if_neg (UInt8.ne_of_lt hroom)]
  have hhandled : core.inException = decide (core.exceptionLevel ≠ 0) := by
    rw [Bool.eq_iff_iff, hlevel, decide_eq_true_iff, UInt8.pos_iff_ne_zero]
  have hgeneral : (later.scratch core.general[0] core.general[1] core.general[2] core.general[3]
      core.general[12]).general = (later.resumed core (pc + 2)).general := general_scratch later _
  rw [Instruction.continuing, commit_left, hnext, heven, hgeneral, apply_leave hroom,
    ThumbCore.setPc, heven, ThumbCore.resumed, hhandled]
  apply hentered

/-! ### A handler that calls -/

/-- A handler whose stack pointer is between two multiples of eight. -/
def interrupted : ThumbCore :=
  { ThumbCore.reset 0x2000005C with
    general := #v[1, 2, 3, 4, 5, 6, 7, 8, 9, 10, 11, 12, 13]
    lr := returnToThread
    psr := 0x2100000B
    vtor := sramBase
    inException := true
    exceptionLevel := 1 }

/-- What it is interrupted by clears the registers and the flags, and returns through `r0`. -/
def scribbled (entered : ThumbCore) : ThumbCore :=
  { entered with general := #v[returnToHandler, 0, 0, 0, 0, 0, 0, 0, 0, 0, 0, 0, 0], psr := 0 }

theorem nested_svc_bx_resumes :
  ∃ entry enteredBus,
    (Instruction.plain .svc 0xDF00 2).execute interrupted 0x20000040 (Bus.initial 96)
        = .ok entry enteredBus
      ∧ ∃ exit, { Instruction.plain .bx 0x4700 2 with rm := some 0 }.execute
          (scribbled (entry.commit interrupted)) 0x20000000 enteredBus = .ok exit enteredBus
        ∧ exit.commit (scribbled (entry.commit interrupted))
          = (scribbled (entry.commit interrupted)).resumed interrupted 0x20000042
  := by
  have hspan : sramOffset? (frameBelow interrupted.sp) 32 96 = some 56 := by decide
  have hsucceeds : (match (Instruction.plain .svc 0xDF00 2).execute interrupted 0x20000040
      (Bus.initial 96) with
    | .ok _ _ => true
    | .error _ _ => false) = true := by with_unfolding_all rfl
  cases henter : (Instruction.plain .svc 0xDF00 2).execute interrupted 0x20000040
      (Bus.initial 96) with
  | error fault bus =>
    rw [henter] at hsucceeds
    cases hsucceeds
  | ok entry enteredBus =>
    use entry, enteredBus, rfl
    have h := svc_bx_resumes rfl rfl (by decide) (by decide) (by decide) (by decide) henter hspan
    apply h.2.2
    · constructor <;> rfl
    · rfl
    · have htarget : (scribbled (entry.commit interrupted)).operandOr 0x20000000 (some 0) 0
          = returnToHandler := rfl
      rw [htarget]
      decide

end Exception

end ThumbSoc
