import ThumbSoc.Proofs.CoreStep
import ThumbSoc.Proofs.Execution
import ThumbSoc.Proofs.Machine.Stepped

/-!
# What a faulting step leaves behind

A step that faults leaves the core as it was, and in general the bus too: the transfers of an
instruction are checked before the first one that has an effect. There is one exception. A
burst of reads is not checked beforehand, and a burst that reads the data register of a serial
port and runs off the end of the registers behind it has taken a byte out of the receive queue
by then. That byte is lost.
-/

namespace ThumbSoc

namespace ThumbCore

/-- The instruction that the core performs makes a burst of reads that overruns the data
register of `port`, where a byte waits. -/
def Overruns (core : ThumbCore) (bus : Bus) (port : Fin 2) : Prop :=
  ∃ i start count, core.Performs bus i ∧ i.Reads core core.pc bus start count
    ∧ bus.Overruns port start count

/-- The instruction that the core performs makes a burst of writes that tears. -/
def Tears (core : ThumbCore) (bus : Bus) : Prop :=
  ∃ i start values, core.Performs bus i ∧ i.storedWords core core.pc = some (start, values)
    ∧ bus.Tears start values.length

variable {core : ThumbCore} {breakpoints : Breakpoints} {armed : Option Word} {bus bus' : Bus}
  {fault : CoreFault}

/-- An overrunning step is a faulting one. -/
theorem Overruns.step {port : Fin 2} (h : core.Overruns bus port)
    (hgoes : ¬ (armed ≠ some core.pc ∧ breakpoints.contains core.pc = true)) :
  ∃ fault, core.step breakpoints armed bus = .error fault (bus.discard port)
  := by
  obtain ⟨i, start, count, ⟨hi, hholds⟩, hreads, hover⟩ := h
  obtain ⟨⟨cause, hcause⟩, _⟩ := hover.rejected
  have hexecute := hreads.fails hcause
  use .bus core.pc cause
  simp only [ThumbCore.step, if_neg hgoes, hi, perform, if_pos hholds]
  apply bind_eq_error.mpr
  left
  apply hexecute

end ThumbCore

/-- What a machine makes of a faulting step: the cores stay as they are, and the bus is the one
that the step leaves. -/
theorem Machine.stepCore_fault {machine : Machine} {index : Nat} {slot : Slot} {core : ThumbCore}
    {fault : CoreFault} {bus : Bus}
    (hslot : machine.slots[index]? = some slot)
    (hcore : slot.core = .thumb core)
    (hruns : slot.state.isRunning = true)
    (h : core.step machine.breakpoints slot.armed (machine.bus.select index) = .error fault bus) :
  (resultState (machine.stepCore index)).slots.map (·.core) = machine.slots.map (·.core)
    ∧ (resultState (machine.stepCore index)).bus = bus
  := by
  have hfaults {fault' : CoreFault} {bus' : Bus} {slot' : Slot}
      (hslot' : machine.slots[index]? = some slot')
      (hfaults : slot'.Faults index machine.breakpoints (machine.bus.select index) fault' bus') :
      bus' = bus := by
    rw [hslot] at hslot'
    cases hslot'
    cases hfaults with
    | noEngine hart =>
      rw [hcore] at hart
      cases hart
    | failed thumb failure =>
      rw [hcore] at thumb
      cases thumb
      rw [h] at failure
      cases failure
      rfl
  have hstepped := machine.stepCore_stepped index
  revert hstepped
  generalize machine.stepCore index = result
  intro hstepped
  cases hstepped with
  | noCore absent =>
    rw [hslot] at absent
    cases absent
  | idle present waits =>
    rw [hslot] at present
    cases present
    rw [hruns] at waits
    cases waits
  | settled present runs thumb success =>
    rw [hslot] at present
    cases present
    rw [hcore] at thumb
    cases thumb
    rw [h] at success
    cases success
  | @parked _ fault' bus' recorder present runs faults policy =>
    rw [Machine.haltIfIdle_eq]
    apply And.intro (machine.failed_cores index (.parked fault') bus' recorder)
    apply hfaults present faults
  | @halted slot' _ bus' recorder present runs faults policy =>
    apply And.intro (machine.failed_cores index slot'.state bus' recorder)
    apply hfaults present faults

/-- A step that faults leaves the bus as it was, unless it overruns the data register of a
serial port. Then the oldest received byte is lost, and nothing else changes. A store that
tears is out of the question in a memory that fits its window. The cores of a machine stay as
they are in any case. -/
theorem ThumbCore.step_error_unchanged_or_overruns {core : ThumbCore} {breakpoints : Breakpoints}
    {armed : Option Word} {bus bus' : Bus} {fault : CoreFault}
    (h : core.step breakpoints armed bus = .error fault bus') :
  (∀ port, core.Overruns bus port → bus' = bus.discard port ∧ bus' ≠ bus)
    ∧ ((∀ port, ¬ core.Overruns bus port) → ¬ core.Tears bus → bus' = bus)
    ∧ (core.Tears bus → sramWindow < bus.sram.size)
    ∧ ∀ (machine : Machine) (index : Nat) (slot : Slot), machine.slots[index]? = some slot →
      slot.core = .thumb core → slot.state.isRunning = true → slot.armed = armed →
      machine.breakpoints = breakpoints → machine.bus.select index = bus →
      (resultState (machine.stepCore index)).slots.map (·.core) = machine.slots.map (·.core)
        ∧ (resultState (machine.stepCore index)).bus = bus'
  := by
  constructor
  · intro port hover
    have hgoes : ¬ (armed ≠ some core.pc ∧ breakpoints.contains core.pc = true) := by
      intro hstops
      simp only [step, if_pos hstops] at h
      cases h
    obtain ⟨fault', hstep⟩ := hover.step hgoes
    rw [h] at hstep
    cases hstep
    obtain ⟨_, _, _, _, _, hburst⟩ := hover
    apply And.intro rfl hburst.rejected.2
  constructor
  · intro hover htears
    rcases step_error h with ⟨_, hsame⟩ | ⟨i, hperforms, hexecute⟩
    · apply hsame
    · rcases Instruction.execute_error hperforms.signed hexecute with
        hsame | ⟨cause, start, count, hreads, hfails⟩ | ⟨start, values, hstored, hburst⟩
      · apply hsame
      · rcases Bus.readWords_error hfails with hsame | ⟨port, hburst, _⟩
        · apply hsame
        · exact absurd ⟨i, start, count, hperforms, hreads, hburst⟩ (hover port)
      · exact absurd ⟨i, start, values, hperforms, hstored, hburst⟩ htears
  constructor
  · rintro ⟨_, _, _, _, _, hburst⟩
    apply hburst.size
  · intro machine index slot hslot hcore hruns harmed hbreakpoints hbus
    subst harmed hbreakpoints hbus
    apply Machine.stepCore_fault hslot hcore hruns h

/-! ### A load that loses a byte -/

/-- The instruction `ldm r0!, {r1, r2, r3}`. -/
def lossyLoad : Instruction :=
  { Instruction.plain .ldm 0xC80E 2 with rn := some 0, registers := ⟨0x0E⟩, writeback := true }

/-- A bus with that instruction in memory and a byte waiting at the first serial port. -/
def lossyBus : Bus :=
  { Bus.initial 4 with
    sram := ⟨#[0x0E, 0xC8, 0x00, 0x00]⟩
    serial := #v[{ Serial.initial with received := [0x41] }, .initial] }

/-- A core that stands on that instruction with the address of the serial port in `r0`. -/
def lossyCore : ThumbCore :=
  ((ThumbCore.reset sramBase).setPc sramBase).write (.ofNumber 0) 0x40034000

theorem lossy_step :
  lossyCore.step .empty none lossyBus
    = .error (.bus sramBase (.unmapped 0x40034008)) (lossyBus.discard 0)
  := by with_unfolding_all rfl

theorem lossy_overruns :
  lossyCore.Overruns lossyBus 0
  := by
  have hstart : lossyCore.operand lossyCore.pc 0 = serialBase.get 0 := by decide
  have hcount : lossyLoad.registers.size = 3 := by decide
  use lossyLoad, serialBase.get 0, 3
  constructor
  · constructor
    · with_unfolding_all rfl
    · decide
  constructor
  · rw [← hstart, ← hcount]
    apply Instruction.Reads.loadMultiple rfl rfl
  · apply Bus.Overruns.here
    · with_unfolding_all rfl
    · decide

/-- The exception occurs. -/
theorem overrunning_step_changes_bus :
  lossyCore.step .empty none lossyBus
      = .error (.bus sramBase (.unmapped 0x40034008)) (lossyBus.discard 0)
    ∧ lossyCore.Overruns lossyBus 0 ∧ lossyBus.discard 0 ≠ lossyBus
  := by
  constructor
  · apply lossy_step
  constructor
  · apply lossy_overruns
  · apply ((ThumbCore.step_error_unchanged_or_overruns lossy_step).1 0 lossy_overruns).2

/-- Not every faulting step leaves the bus as it was. -/
theorem not_forall_step_error_unchanged :
  ¬ ∀ (core : ThumbCore) (breakpoints : Breakpoints) (armed : Option Word) (bus bus' : Bus)
      (fault : CoreFault), core.step breakpoints armed bus = .error fault bus' → bus' = bus
  := by
  intro h
  have hsame := h lossyCore .empty none lossyBus (lossyBus.discard 0) _ lossy_step
  revert hsame
  decide

end ThumbSoc
