import ThumbSoc.Machine.Progress
import ThumbSoc.Proofs.CoreStep
import ThumbSoc.Proofs.Loads
import ThumbSoc.Proofs.Machine.Stepped

/-!
# Isolated cores

A step of one core leaves every other core alone, whatever comes of it, and a step that faults
leaves its own core alone too. So does any interleaving of steps with the cores that it does not
step.

The cores share the bus, and with it the register that tells a core its number. That register
answers to whichever core was selected last, and every step selects its core before anything else:
an instruction finds the number of its own core there, whoever made transfers before.
-/

namespace ThumbSoc

/-! ### The register of the core number -/

namespace Bus

variable {bus bus' : Bus}

/-- The register that tells a core its number. -/
theorem read_coreNumber (hsize : bus.sram.size ≤ sramWindow) :
  Bus.read sioBase .word bus = .ok bus.gpio.core bus
  := by
  have houtside : sramOffset? sioBase Width.word.bytes bus.sram.size = none := by
    rw [sramOffset?, if_neg]
    change ¬ (0x20000000 ≤ 0xD0000000 ∧ 0xD0000000 + 4 ≤ 0x20000000 + bus.sram.size)
    change bus.sram.size ≤ 0x42800 at hsize
    omega
  have hroute : bus.route sioBase .word .read = .ok (.gpio 0) := by
    have halign : checkAlignment sioBase .word = .ok () := rfl
    have hrights : checkRights sioBase .read = .ok () := by decide
    have hdevice : deviceAt? sioBase = some (.gpio 0) := by decide
    simp only [route, halign, hrights, houtside, hdevice, bind, Except.bind]
  have hlane : lane bus.gpio.core 0 .word = bus.gpio.core := UInt32.shiftRight_zero
  simp only [Bus.read, hroute, readTarget]
  exact congrArg (EStateM.Result.ok · bus) hlane

/-- Loads find the number of the core in its register, also behind other loads. -/
theorem found_coreNumber {loads : List Load} (hsize : bus.sram.size ≤ sramWindow) :
  ∀ entry ∈ found loads bus, entry.1 = ⟨sioBase, .word⟩ → entry.2 = bus.gpio.core
  := by
  induction loads generalizing bus with
  | nil => exact List.forall_mem_nil _
  | cons load rest ih =>
    rw [found]
    have hkeeps := read_drained load.address load.width bus
    cases hread : Bus.read load.address load.width bus with
    | error => exact List.forall_mem_nil _
    | ok value mid =>
      rw [hread] at hkeeps
      have hdrained : bus.Drained mid := hkeeps
      have hmid : mid.sram.size ≤ sramWindow := by
        rw [hdrained.sram]
        exact hsize
      have hrest := ih hmid
      rw [hdrained.gpio] at hrest
      refine List.forall_mem_cons.mpr ⟨?_, hrest⟩
      rintro rfl
      rw [read_coreNumber hsize] at hread
      cases hread
      rfl

/-! ### The size of memory -/

/-- Memory is as large as it was. -/
def SameSize (bus bus' : Bus) : Prop :=
  bus'.sram.size = bus.sram.size

theorem SameSize.trans {mid : Bus} (h : bus.SameSize mid) (h' : mid.SameSize bus') :
  bus.SameSize bus'
  := Eq.trans h' h

theorem Drained.sameSize (h : bus.Drained bus') :
  bus.SameSize bus'
  := congrArg Sram.size h.sram

theorem write_size (address : Word) (width : Width) (value : Word) :
  Keeps SameSize (Bus.write address width value)
  := by
  intro bus
  cases hwrite : Bus.write address width value bus with
  | ok u bus' =>
    obtain ⟨_, _, _, hsize, _⟩ := write_ok hwrite
    exact hsize
  | error fault bus' =>
    rw [(write_error hwrite).1]
    rfl

end Bus

/-- No step of a core changes the size of memory. -/
theorem ThumbCore.step_size (core : ThumbCore) (breakpoints : Breakpoints) (armed : Option Word) :
  Keeps Bus.SameSize (core.step breakpoints armed)
  := by
  apply step_keeps
  · intro bus
    rfl
  · intro i
    apply Instruction.execute_keeps
    · intro bus mid bus'
      exact Bus.SameSize.trans
    · intro bus bus'
      exact Bus.Drained.sameSize
    · exact Bus.write_size

theorem Slot.Faults.memory {slot : Slot} {index : Nat} {breakpoints : Breakpoints} {bus bus' : Bus}
    {fault : CoreFault} (h : slot.Faults index breakpoints bus fault bus') :
  bus.SameSize bus'
  := by
  cases h with
  | noEngine => rfl
  | @failed core _ _ thumb failure =>
    have hsize := core.step_size breakpoints slot.armed bus
    rw [failure] at hsize
    exact hsize

namespace Machine

variable {machine after : Machine} {index : Nat}
  {result : EStateM.Result MachineError Machine StepOutcome}

/-! ### A step -/

/-- What a step of core `index` leaves alone: the other cores with all that belongs to them, the
configuration, the breakpoints, and how many cores and how much memory there are. -/
structure Spares (machine after : Machine) (index : Nat) : Prop where
  others : ∀ other ≠ index, after.slots[other]? = machine.slots[other]?
  config : after.config = machine.config
  breakpoints : after.breakpoints = machine.breakpoints
  cores : after.slots.size = machine.slots.size
  memory : machine.bus.SameSize after.bus

namespace Spares

theorem refl (machine : Machine) (index : Nat) :
  machine.Spares machine index
  := ⟨fun _ _ => rfl, rfl, rfl, rfl, rfl⟩

theorem haltIfIdle (h : machine.Spares after index) :
  machine.Spares after.haltIfIdle index
  := by
  rw [haltIfIdle_eq]
  exact ⟨h.others, h.config, h.breakpoints, h.cores, h.memory⟩

end Spares

/-- Only the slot in question is changed. -/
theorem getElem?_modify_ne {slots : Array Slot} {change : Slot → Slot} {other : Nat}
    (h : other ≠ index) :
  (slots.modify index change)[other]? = slots[other]?
  := by rw [Array.getElem?_modify, if_neg h.symm]

theorem failed_spares (state : RunState) (recorder : Option (Array Event)) {bus : Bus}
    (hbus : machine.bus.SameSize bus) :
  machine.Spares (machine.failed index state bus recorder) index
  := ⟨fun _ => getElem?_modify_ne, rfl, rfl, Array.size_modify, hbus⟩

/-- Whatever comes of it, a step spares everything but its own core. -/
theorem Stepped.spares (h : machine.Stepped index result) :
  machine.Spares (resultState result) index
  := by
  cases h with
  | noCore => exact .refl machine index
  | idle => exact (Spares.refl machine index).haltIfIdle
  | @settled slot core result bus recorder present runs thumb success =>
    have hsize := core.step_size machine.breakpoints slot.armed (machine.bus.select index)
    rw [success] at hsize
    exact Spares.haltIfIdle ⟨fun _ => getElem?_modify_ne, rfl, rfl, Array.size_modify, hsize⟩
  | parked present runs faults policy => exact (failed_spares _ _ faults.memory).haltIfIdle
  | @halted slot fault bus recorder present runs faults policy =>
    have hspares : machine.Spares (machine.failed index slot.state bus recorder) index :=
      failed_spares slot.state recorder faults.memory
    exact ⟨hspares.others, hspares.config, hspares.breakpoints, hspares.cores, hspares.memory⟩

/-- Whether a step ended in a fault, under either policy. -/
def faulted : EStateM.Result MachineError Machine StepOutcome → Bool
  | .error (.fault ..) _ | .ok (.parked ..) _ => true
  | _ => false

/-- A step that faults leaves the registers of its core and the cycle counter alone. -/
theorem Stepped.faulted_keeps (h : machine.Stepped index result) (hfault : faulted result = true) :
  ((resultState result).slots.map (·.core) = machine.slots.map (·.core))
    ∧ (resultState result).cycles = machine.cycles
  := by
  cases h with
  | noCore => cases hfault
  | idle => cases hfault
  | @settled slot core result => cases result <;> cases hfault
  | @parked slot fault bus recorder =>
    rw [resultState, haltIfIdle_slots, haltIfIdle_cycles]
    exact ⟨machine.failed_cores index _ _ _, rfl⟩
  | @halted slot fault bus recorder =>
    exact ⟨machine.failed_cores index slot.state bus recorder, rfl⟩

/-! ### What a step executes -/

/-- The result of a step of core `index` tells how the execution of its instruction ended. The bus
is the one that the execution left, and if there was no fault the core has its effects. -/
inductive Reports (index : Nat) (core : ThumbCore) (i : Instruction) :
    EStateM.Result CoreFault Bus Effects → EStateM.Result MachineError Machine StepOutcome →
      Prop where
  | executed {effects : Effects} {bus : Bus} {after : Machine}
      (leaves : after.bus = bus)
      (commits : after.slots[index]?.map (·.core) = some (.thumb (effects.commit core))) :
      Reports index core i (.ok effects bus) (.ok (.executed index core.pc i.length) after)
  | parked {fault : CoreFault} {bus : Bus} {after : Machine}
      (leaves : after.bus = bus) :
      Reports index core i (.error fault bus) (.ok (.parked index fault) after)
  | halted {fault : CoreFault} {bus : Bus} {after : Machine}
      (leaves : after.bus = bus) :
      Reports index core i (.error fault bus) (.error (.fault index fault) after)

/-- A step of core `index` executes the instruction that the core stands on, on the bus that the
step prepares, with the given reads, and the given result tells how that ended. -/
structure Executes (machine : Machine) (index : Nat) (core : ThumbCore) (i : Instruction)
    (reads : List (Load × Word)) (result : EStateM.Result MachineError Machine StepOutcome) :
    Prop where
  present : machine.slots[index]?.map (·.core) = some (.thumb core)
  performs : core.Performs (machine.prepare index).bus i
  accesses : i.Accesses core core.pc (machine.prepare index).bus reads
    (i.execute core core.pc (machine.prepare index).bus)
  reports : Reports index core i (i.execute core core.pc (machine.prepare index).bus) result

/-- A step that reports an executed instruction has executed one. -/
theorem Stepped.executes (h : machine.Stepped index result) {pc : Word} {length : Nat}
    (hresult : result = .ok (.executed index pc length) after) :
  ∃ core i reads, machine.Executes index core i reads result
  := by
  cases h with
  | noCore => cases hresult
  | idle => cases hresult
  | parked => cases hresult
  | halted => cases hresult
  | @settled slot core step bus recorder present runs thumb success =>
    rcases ThumbCore.step_ok success with
      ⟨rfl, _⟩ | ⟨i, _, _, rfl, _⟩ | ⟨i, effects, hperforms, hexecute, rfl⟩
    · cases hresult
    · cases hresult
    · obtain ⟨reads, haccesses⟩ := i.execute_found core core.pc (machine.prepare index).bus
      have hpresent : machine.slots[index]?.map (·.core) = some (.thumb core) := by
        rw [present, Option.map_some, thumb]
      refine ⟨core, i, reads, hpresent, hperforms, haccesses, ?_⟩
      change Reports index core i (i.execute core core.pc (machine.bus.select index)) _
      rw [hexecute]
      apply Reports.executed
      · apply haltIfIdle_bus
      · rw [haltIfIdle_slots, Machine.settled, Array.getElem?_modify, if_pos rfl, present,
          Option.map_some, Option.map_some, Slot.settle]

/-- An executed instruction has read all that its loads find. -/
theorem Executes.reads_eq {core : ThumbCore} {i : Instruction} {reads : List (Load × Word)}
    {pc : Word} {length : Nat} (h : machine.Executes index core i reads result)
    (hresult : result = .ok (.executed index pc length) after) :
  reads = Bus.found (i.loads core core.pc (machine.prepare index).bus) (machine.prepare index).bus
  := by
  obtain ⟨_, _, haccesses, hreports⟩ := h
  rw [hresult] at hreports
  generalize i.execute core core.pc (machine.prepare index).bus = ended at haccesses hreports
  cases hreports with
  | executed =>
    cases haccesses with
    | completes loaded => exact (Bus.found_of_ok loaded).symm

/-- A step that faults at an instruction whose condition holds has executed it. -/
theorem Stepped.executes_of_faulted (h : machine.Stepped index result)
    (hfault : faulted result = true) {core : ThumbCore} {i : Instruction}
    (hpresent : machine.slots[index]?.map (·.core) = some (.thumb core))
    (hperforms : core.Performs (machine.prepare index).bus i) :
  ∃ reads, machine.Executes index core i reads result
  := by
  obtain ⟨reads, haccesses⟩ := i.execute_found core core.pc (machine.prepare index).bus
  refine ⟨reads, hpresent, hperforms, haccesses, ?_⟩
  -- Neither is the engine missing nor does the fetch fail, so the fault is that of the execution.
  have hexecute {slot : Slot} {fault : CoreFault} {bus : Bus}
      (present : machine.slots[index]? = some slot)
      (faults : slot.Faults index machine.breakpoints (machine.bus.select index) fault bus) :
      i.execute core core.pc (machine.prepare index).bus = .error fault bus := by
    rw [present, Option.map_some] at hpresent
    cases faults with
    | noEngine hart =>
      rw [hart] at hpresent
      cases hpresent
    | failed thumb failure =>
      rw [thumb] at hpresent
      cases hpresent
      rcases ThumbCore.step_error failure with ⟨hnone, _⟩ | ⟨other, hother, hexecute⟩
      · exact absurd hperforms.1 (hnone i)
      · cases hother.1.symm.trans hperforms.1
        exact hexecute
  cases h with
  | noCore => cases hfault
  | idle => cases hfault
  | @settled slot core result => cases result <;> cases hfault
  | parked present runs faults policy =>
    rw [hexecute present faults]
    exact .parked (haltIfIdle_bus _)
  | halted present runs faults policy =>
    rw [hexecute present faults]
    exact .halted rfl

/-! ### Interleavings -/

/-- The machine after steps of the given cores, whatever comes of each of them. -/
def interleave (machine : Machine) (order : List Nat) : Machine :=
  order.foldl (fun machine index => resultState (machine.stepCore index)) machine

/-- Any number of steps spare the cores that they do not step. -/
theorem interleave_spares (order : List Nat) (h : index ∉ order) :
  (machine.interleave order).slots[index]? = machine.slots[index]?
  := by
  induction order generalizing machine with
  | nil => rfl
  | cons first rest ih =>
    obtain ⟨hfirst, hrest⟩ := not_or.mp (List.mem_cons.not.mp h)
    have hspares := (machine.stepCore_stepped first).spares
    exact (ih hrest).trans (hspares.others index hfirst)

theorem interleave_bounds (order : List Nat) :
  (machine.interleave order).slots.size = machine.slots.size
    ∧ machine.bus.SameSize (machine.interleave order).bus
  := by
  induction order generalizing machine with
  | nil => exact ⟨rfl, rfl⟩
  | cons first rest ih =>
    have hspares := (machine.stepCore_stepped first).spares
    obtain ⟨hcores, hmemory⟩ := @ih (resultState (machine.stepCore first))
    exact ⟨hcores.trans hspares.cores, hspares.memory.trans hmemory⟩

/-- **Cores are isolated and identified.** Let a machine have no more cores and no more memory than
a configuration permits. After any interleaving of steps, a step of core `index` leaves every other
core with its registers, run state and ignored breakpoint as it was, and the configuration and the
breakpoints too. If it faults, under either policy, no core's registers change, nor does the cycle
counter.

A step that reports an executed instruction has executed the one that the core stands on, on the
bus that it has prepared, and so has a step that faults at an instruction whose condition holds.
Whatever word this execution reads from the register of the core number is `index`. -/
theorem stepCore_isolated (machine : Machine) (hcores : machine.slots.size ≤ Config.maxCores)
    (hmemory : machine.bus.sram.size ≤ sramWindow) (order : List Nat) (index : Nat) :
  let before := machine.interleave order
  let result := before.stepCore index
  let after := resultState result
  (∀ other ≠ index, after.slots[other]? = before.slots[other]?)
    ∧ after.config = before.config
    ∧ after.breakpoints = before.breakpoints
    ∧ (faulted result = true →
      after.slots.map (·.core) = before.slots.map (·.core) ∧ after.cycles = before.cycles)
    ∧ (∀ pc length, result = .ok (.executed index pc length) after →
      ∃ core i reads, before.Executes index core i reads result)
    ∧ (∀ core i, before.slots[index]?.map (·.core) = some (.thumb core) →
      core.Performs (before.prepare index).bus i → faulted result = true →
      ∃ reads, before.Executes index core i reads result)
    ∧ ∀ core i reads, before.Executes index core i reads result →
      ∀ value, (⟨sioBase, .word⟩, value) ∈ reads → value = UInt32.ofNat index
  := by
  intro before result after
  have hstepped := before.stepCore_stepped index
  have hspares := hstepped.spares
  refine ⟨hspares.others, hspares.config, hspares.breakpoints, hstepped.faulted_keeps,
    fun _ _ => hstepped.executes,
    fun _ _ hpresent hperforms hfault => hstepped.executes_of_faulted hfault hpresent hperforms, ?_⟩
  intro core i reads hexecutes value hvalue
  obtain ⟨hsame, hsize⟩ := machine.interleave_bounds order
  have hprepared : (before.prepare index).bus.sram.size ≤ sramWindow := by
    rw [← hsize] at hmemory
    exact hmemory
  have hfound := hexecutes.accesses.mem_found _ hvalue
  have hnumber := Bus.found_coreNumber hprepared _ hfound rfl
  have hindex : index < 4 := by
    obtain ⟨slot, hslot, _⟩ := Option.map_eq_some_iff.mp hexecutes.present
    obtain ⟨hlt, _⟩ := Array.getElem?_eq_some_iff.mp hslot
    change index < (machine.interleave order).slots.size at hlt
    rw [hsame] at hlt
    exact Nat.lt_of_lt_of_le hlt hcores
  have hmin : min index 0xFFFFFFFF = index := Nat.min_eq_left (by omega)
  exact hnumber.trans (congrArg UInt32.ofNat hmin)

/-! ### Two cores that ask for their number -/

/-- A core that stands on a load from the register of the core number. -/
def askingCore : ThumbCore :=
  ((ThumbCore.reset (sramBase + 4)).setPc sramBase).write (.ofNumber 1) sioBase

/-- Two such cores, with a load into the first register from the address in the second. -/
def asking : Machine where
  config := { coreCount := 2, sramSize := 4, dormantSecondaries := false }
  slots := #[⟨.thumb askingCore, .running, none⟩, ⟨.thumb askingCore, .running, none⟩]
  bus := { Bus.initial 4 with sram := ⟨#[0x08, 0x68, 0x08, 0x68]⟩ }
  breakpoints := .empty
  cycles := 0
  halted := false
  breakpointHit := false
  cursor := 0
  recorder := none

theorem asking_performs :
  askingCore.Performs ((asking.interleave [0]).prepare 1).bus (Narrow.scaledOffset .word 0x6808)
  := ⟨by with_unfolding_all rfl, rfl⟩

theorem asking_found :
  let bus := ((asking.interleave [0]).prepare 1).bus
  Bus.found ((Narrow.scaledOffset .word 0x6808).loads askingCore askingCore.pc bus) bus
    = [(⟨sioBase, .word⟩, bus.gpio.core)]
  := by with_unfolding_all rfl

theorem asking_executed :
  (asking.interleave [0]).stepCore 1
    = .ok (.executed 1 sramBase 2) (resultState ((asking.interleave [0]).stepCore 1))
  := by with_unfolding_all rfl

/-- After a step of the first core the second one reads its own number, and keeps it. -/
theorem asking_stepCore_isolated :
  let before := asking.interleave [0]
  let result := before.stepCore 1
  let after := resultState result
  after.slots[0]? = before.slots[0]? ∧ after.config = before.config
    ∧ after.breakpoints = before.breakpoints
    ∧ (faulted result = true →
      after.slots.map (·.core) = before.slots.map (·.core) ∧ after.cycles = before.cycles)
    ∧ (∃ core i, before.Executes 1 core i [(⟨sioBase, .word⟩, 1)] result)
    ∧ after.slots[1]?.bind (·.core.read? 0) = some 1
  := by
  obtain ⟨hothers, hconfig, hbreakpoints, hfault, hexecuted, _, hnumber⟩ :=
    stepCore_isolated asking (by decide) (by decide) [0] 1
  obtain ⟨core, i, reads, hexecutes⟩ := hexecuted _ _ asking_executed
  have hpresent : (asking.interleave [0]).slots[1]?.map (·.core) = some (.thumb askingCore) := by
    rw [asking.interleave_spares [0] (by decide)]
    rfl
  cases hexecutes.present.symm.trans hpresent
  cases hexecutes.performs.1.symm.trans asking_performs.1
  obtain rfl := (hexecutes.reads_eq asking_executed).trans asking_found
  have hcore := hnumber _ _ _ hexecutes _ List.mem_cons_self
  rw [hcore] at hexecutes
  exact ⟨hothers 0 (by decide), hconfig, hbreakpoints, hfault, ⟨_, _, hexecutes⟩,
    by with_unfolding_all rfl⟩

end Machine

end ThumbSoc
