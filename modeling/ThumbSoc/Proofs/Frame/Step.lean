import ThumbSoc.Proofs.Bus.Route
import ThumbSoc.Proofs.CoreStep
import ThumbSoc.Proofs.Encoding.WellFormed
import ThumbSoc.Proofs.Exceptions.Nesting
import ThumbSoc.Proofs.Frame.Execution
import ThumbSoc.Proofs.Loads

/-!
# The frame of a step

A step that retires an instruction changes of the core only what the fields of the instruction say,
unless the instruction enters or leaves an exception, and some fields of the core not even then.
Memory changes only if the instruction is a store.
-/

namespace ThumbSoc

/-! ### Instructions in memory -/

namespace Bus

variable {bus : Bus} {pc : Word}

/-- Instructions are fetched from even addresses. -/
theorem fetch_even {value : Word} (h : bus.fetch pc = .ok value) :
  pc.toNat % 2 = 0
  := by
  rw [fetch] at h
  split at h
  · cases h
  · next hroute => exact (route_ok hroute).1
  · cases h

theorem instructionAt_ok {i : Instruction} (h : bus.instructionAt pc = .ok i) :
  pc.toNat % 2 = 0 ∧ ∃ w length, Instruction.decode w length = .ok i
  := by
  rw [instructionAt] at h
  split at h
  · cases h
  · next w length hencoding =>
    constructor
    · rw [fetchEncoding] at hencoding
      cases hfirst : bus.fetch pc with
      | error fault =>
        rw [hfirst] at hencoding
        cases hencoding
      | ok first => exact fetch_even hfirst
    · split at h
      · cases h
      · next hdecode =>
        cases h
        use w, length

end Bus

/-- Instructions are as long as to keep addresses even. -/
theorem Instruction.even_next {i : Instruction} {pc w : Word} {length : Nat}
    (hpc : pc.toNat % 2 = 0) (h : decode w length = .ok i) :
  Word.even (i.next pc) = pc + UInt32.ofNat i.length
  := by
  have hlength : (UInt32.ofNat i.length).toNat % 2 = 0 := by
    rcases (wellFormed_of_decode h).halfwords with hlength | hlength
    all_goals
      rw [hlength]
      rfl
  exact Word.even_eq_self (Word.add_even hpc hlength)

/-! ### The frame of an instruction -/

namespace Instruction

variable {i : Instruction} {core : ThumbCore} {pc : Word} {bus bus' : Bus} {effects : Effects}

/-- Only stores and the calls of the supervisor change memory. -/
theorem execute_sram (h : i.execute core pc bus = .ok effects bus') (hcall : i.opcode ≠ .svc)
    (hopcode : i.opcode ∉ [.str, .stm, .push]) :
  bus'.sram = bus.sram
  := by
  obtain ⟨mid, hdrained, hstores⟩ := execute_stores h
  have hnone : i.stores core pc = [] := by
    rw [stores, storedWords]
    generalize i.opcode = opcode at hcall hopcode
    cases opcode
    all_goals first
      | rfl
      | exact absurd rfl hcall
      | exact absurd (by decide) hopcode
  rw [hnone] at hstores
  cases hstores
  exact hdrained.sram

/-- What a step with an instruction that neither enters nor leaves an exception leaves alone. -/
structure Confines (i : Instruction) (core after : ThumbCore) (bus bus' : Bus) : Prop where
  exceptionLevel : after.exceptionLevel = core.exceptionLevel
  inException : after.inException = core.inException
  registers : ∀ number : Fin 15, number.val ∉ i.written →
    after.read (.ofNumber number) = core.read (.ofNumber number)
  status : after.psr &&& ~~~i.statusMask = core.psr &&& ~~~i.statusMask
  memory : i.opcode ∉ [.str, .stm, .push] → bus'.sram = bus.sram
  next : ¬ i.Diverts → after.pc = core.pc + UInt32.ofNat i.length

theorem confines_of_within {w : Word} {length : Nat} (hdecode : decode w length = .ok i)
    (hpc : core.pc.toNat % 2 = 0) (hwithin : effects.Within i core.pc)
    (h : i.execute core core.pc bus = .ok effects bus') :
  i.Confines core (effects.commit core) bus bus'
  := by
  have hstanding : (effects.commit core).standing = core.standing := by
    obtain ⟨before, hbefore, hcommit⟩ := effects.commit_standing core
    rw [hcommit, hwithin.transition]
    exact hbefore
  obtain ⟨hlevel, hhandling⟩ := Prod.mk.inj hstanding
  refine ⟨hlevel, hhandling, ?_, ?_, ?_, ?_⟩
  · intro number hnumber
    apply Effects.commit_read core (hwithin.written number hnumber)
    intro hsp value hspecial
    -- A write to the stack pointer under its special name is a write to the stack pointer.
    obtain ⟨hopcode, hselector⟩ := hwithin.special _ _ hspecial
    apply hnumber
    rw [written, hopcode, ← hselector, hsp]
    exact .head _
  · apply Effects.commit_psr core hwithin.status hwithin.transition hwithin.flags
    intro selector value hspecial hlow
    obtain ⟨hopcode, rfl⟩ := hwithin.special _ _ hspecial
    have hmask : i.statusMask = Psr.application := by
      rw [statusMask, hopcode]
      exact if_pos hlow
    rw [hmask]
    exact UInt32.not_and_self
  · exact execute_sram h hwithin.call
  · intro hstays
    rw [← even_next hpc hdecode, ← hwithin.next hstays]
    rfl

end Instruction

/-! ### The frame of a step -/

namespace ThumbCore

variable {core : ThumbCore} {breakpoints : Breakpoints} {armed : Option Word} {bus bus' : Bus}
  {result : CoreStep}

/-- **A step changes only what its instruction reaches.** A step that does not fault stops at a
breakpoint and changes nothing, or passes over an instruction whose condition fails, or retires one.
In the second case only the program counter moves, by the length of the encoding. In the third
case some fields never change, the masks and the banked stack pointer change only if a special
register is written, and nothing else changes beyond what the instruction may write, unless it is
a call of the supervisor, or a branch by which a handler returns. -/
theorem step_frame (h : core.step breakpoints armed bus = .ok result bus') :
  (result = .breakpoint ∧ bus' = bus)
    ∨ (∃ i, bus.instructionAt core.pc = .ok i ∧ i.condition.holds core.flags = false
      ∧ result = .skipped i { core with pc := core.pc + UInt32.ofNat i.length } ∧ bus' = bus)
    ∨ ∃ i effects, core.Performs bus i ∧ i.execute core core.pc bus = .ok effects bus'
      ∧ result = .executed i effects.sleeps (effects.commit core)
      ∧ (effects.commit core).fixed = core.fixed
      ∧ (i.opcode ≠ .msr → (effects.commit core).masks = core.masks)
      ∧ (effects.transition = none → i.Confines core (effects.commit core) bus bus')
      ∧ (effects.transition ≠ none →
        i.opcode = .svc ∨ core.inException = true ∧ i.Diverts)
  := by
  rcases step_ok h with hstops | ⟨i, hi, hfails, rfl, hbus⟩ | ⟨i, effects, hi, hexecute, rfl⟩
  · exact .inl hstops
  · right
    left
    obtain ⟨hpc, w, length, hdecode⟩ := Bus.instructionAt_ok hi
    refine ⟨i, hi, hfails, ?_, hbus⟩
    rw [← Instruction.even_next hpc hdecode]
    rfl
  · right
    right
    obtain ⟨hpc, w, length, hdecode⟩ := Bus.instructionAt_ok hi.1
    have hbounded := Instruction.execute_bounded core core.pc hdecode bus effects bus' hexecute
    refine ⟨i, effects, hi, hexecute, rfl, effects.commit_fixed core, ?_, ?_, hbounded.cause⟩
    · intro hopcode
      exact Effects.commit_masks core (hbounded.special_none hopcode)
    · intro hnone
      exact Instruction.confines_of_within hdecode hpc (hbounded.within_of_transition hnone) hexecute

/-! ### An addition -/

/-- The instruction `adds r0, r0, #1`. -/
def increment : Instruction :=
  { Instruction.plain .add 0x1C40 2 with
    rd := some 0
    rn := some 0
    immediate := 1
    setFlags := true }

/-- A core that stands on it. -/
def counting : ThumbCore :=
  (ThumbCore.reset 0x20000004).setPc 0x20000000

/-- A memory that holds it. -/
def countingBus : Bus :=
  { Bus.initial 4 with sram := ⟨#[0x40, 0x1C, 0x00, 0x00]⟩ }

/-- The addition retires within its bounds. -/
theorem counting_step_frame :
  ∃ after,
    counting.step .empty none countingBus = .ok (.executed increment false after) countingBus
    ∧ after.fixed = counting.fixed ∧ after.masks = counting.masks
    ∧ increment.Confines counting after countingBus countingBus
  := by
  have hexecuted : increment.execute counting counting.pc countingBus
      = .ok (increment.arithmetic counting counting.pc (addWithCarry · · false) increment.rd)
        countingBus := rfl
  have hstep : counting.step .empty none countingBus
      = .ok (.executed increment false
        ((increment.arithmetic counting counting.pc (addWithCarry · · false)
          increment.rd).commit counting)) countingBus := by
    with_unfolding_all rfl
  refine ⟨_, hstep, ?_⟩
  obtain ⟨⟨⟩, -⟩ | ⟨_, -, -, ⟨⟩, -⟩
    | ⟨i, effects, -, hexecute, hresult, hfixed, hmasks, hconfines, -⟩ := step_frame hstep
  obtain ⟨rfl, -, hafter⟩ := CoreStep.executed.inj hresult
  rw [hexecuted] at hexecute
  cases hexecute
  exact ⟨hfixed, hmasks (by decide), hconfines rfl⟩

end ThumbCore

end ThumbSoc
