import Mathlib.Tactic.Use
import ThumbSoc.Machine.Step
import ThumbSoc.Proofs.Transfer

/-!
# The cases of a step

Everything that a step of a machine can do, as a relation: there is no core to step, the core
idles, its step succeeds and is put into the machine, or its step fails and the failure is
treated by the policy of the configuration. In each case the machine afterwards is written out
in terms of the machine before, up to the recorded events.

The functions that make up a step are inverted here once and for all. What a step keeps and
how it changes the counters is read off the relation.
-/

namespace ThumbSoc

/-! ### The parts of a step -/

/-- Whether the step of the core took a cycle. -/
def CoreStep.takesCycle : CoreStep → Bool
  | breakpoint => false
  | skipped .. | executed .. => true

/-- A slot after a step of its core. -/
def Slot.settle (slot : Slot) : CoreStep → Slot
  | .breakpoint => { slot with armed := none }
  | .skipped _ core => { slot with core := .thumb core, armed := none }
  | .executed _ sleeps core =>
    { slot with
      core := .thumb core
      state := if sleeps then .sleeping else slot.state
      armed := none }

/-- The report on a step of core `index`, which stood at `pc`. -/
def CoreStep.outcome (index : Nat) (pc : Word) : CoreStep → StepOutcome
  | .breakpoint => .breakpoint index pc
  | .skipped i _ => .skipped index pc i.length
  | .executed i .. => .executed index pc i.length

theorem CoreStep.outcome_takesCycle (index : Nat) (pc : Word) (result : CoreStep) :
  (result.outcome index pc).takesCycle = result.takesCycle
  := by cases result <;> rfl

/-- The core of a slot faults, with the fault and the bus that it leaves: there is no engine
for it, or its step fails. -/
inductive Slot.Faults (slot : Slot) (index : Nat) (breakpoints : Breakpoints) (bus : Bus) :
    CoreFault → Bus → Prop where
  | noEngine {hart : Hart} (core : slot.core = .hart hart) :
      Faults slot index breakpoints bus (.noEngine index) bus
  | failed {core : ThumbCore} {fault : CoreFault} {bus' : Bus} (thumb : slot.core = .thumb core)
      (failure : core.step breakpoints slot.armed bus = .error fault bus') :
      Faults slot index breakpoints bus fault bus'

/-! ### Changes of a slot -/

section Slots

variable {slots : Array Slot} {index : Nat} {change change' : Slot → Slot}

/-- Changes that agree on the slot in question are the same. -/
theorem modify_congr (h : ∀ slot, slots[index]? = some slot → change slot = change' slot) :
  slots.modify index change = slots.modify index change'
  := by
  apply Array.ext_getElem?
  intro i
  rw [Array.getElem?_modify, Array.getElem?_modify]
  split
  · next hi =>
    subst hi
    cases hslot : slots[index]? with
    | none => rfl
    | some slot => rw [Option.map_some, Option.map_some, h slot hslot]
  · rfl

theorem modify_self (h : ∀ slot, slots[index]? = some slot → change slot = slot) :
  slots.modify index change = slots
  := by
  have hid : slots.modify index change = slots.modify index id := modify_congr h
  rw [hid]
  apply Array.ext_getElem?
  intro i
  rw [Array.getElem?_modify, Option.map_id]
  split <;> rfl

theorem modify_modify :
  (slots.modify index change).modify index change' = slots.modify index (change' ∘ change)
  := by
  apply Array.ext_getElem?
  intro i
  simp only [Array.getElem?_modify]
  split
  · rw [Option.map_map]
  · rfl

/-- A change that keeps some part of every slot keeps it in the whole row. -/
theorem map_modify {α : Type} {part : Slot → α} (h : ∀ slot, part (change slot) = part slot) :
  (slots.modify index change).map part = slots.map part
  := by
  apply Array.ext_getElem?
  intro i
  rw [Array.getElem?_map, Array.getElem?_modify, Array.getElem?_map]
  split
  · cases slots[i]? with
    | none => rfl
    | some slot => rw [Option.map_some, Option.map_some, h, Option.map_some]
  · rfl

end Slots

namespace Machine

variable (machine : Machine) (index : Nat)

theorem emit_eq (event : Event) :
  machine.emit event = { machine with recorder := (machine.emit event).recorder }
  := by
  rw [emit]
  split <;> rfl

theorem haltIfIdle_eq :
  machine.haltIfIdle = { machine with halted := machine.halted || !machine.anyRunning }
  := by
  rw [haltIfIdle]
  cases machine.anyRunning with
  | true => simp
  | false => simp

theorem haltIfIdle_bus :
  machine.haltIfIdle.bus = machine.bus
  := by rw [haltIfIdle_eq]

/-- Putting a core into a run state changes that state and the recorder. -/
theorem setState_eq (state : RunState) :
  machine.setState index state
    = { machine with
        slots := machine.slots.modify index ({ · with state })
        recorder := (machine.setState index state).recorder }
  := by
  rw [setState]
  split
  · next hnone =>
    rw [modify_self]
    intro slot hslot
    rw [hnone] at hslot
    cases hslot
  · next slot hslot =>
    split
    · next hstate =>
      rw [modify_self]
      intro slot' hslot'
      rw [hslot] at hslot'
      cases hslot'
      rw [← hstate]
    · apply emit_eq

/-- The machine after a successful step of a core, before it is checked for idleness. -/
def settled (machine : Machine) (index : Nat) (result : CoreStep) (bus : Bus)
    (recorder : Option (Array Event)) : Machine :=
  { machine with
    slots := machine.slots.modify index (·.settle result)
    bus
    cycles := machine.cycles + result.takesCycle.toNat
    breakpointHit := machine.breakpointHit || result = .breakpoint
    recorder }

/-- The machine after a failed step of a core that is then in the given run state. -/
def failed (machine : Machine) (index : Nat) (state : RunState) (bus : Bus)
    (recorder : Option (Array Event)) : Machine :=
  { machine with
    slots := machine.slots.modify index ({ · with state, armed := none })
    bus
    recorder }

theorem failed_cores (state : RunState) (bus : Bus) (recorder : Option (Array Event)) :
  (machine.failed index state bus recorder).slots.map (·.core) = machine.slots.map (·.core)
  := by
  simp only [failed]
  apply map_modify
  intro slot
  rfl

/-- The possible results of stepping core `index`. -/
inductive Stepped (machine : Machine) (index : Nat) :
    EStateM.Result MachineError Machine StepOutcome → Prop where
  | noCore
      (absent : machine.slots[index]? = none) :
      Stepped machine index (.error (.noCore index machine.slots.size) machine)
  | idle {slot : Slot}
      (present : machine.slots[index]? = some slot)
      (waits : slot.state.isRunning = false) :
      Stepped machine index (.ok (.idle index slot.state) machine.haltIfIdle)
  | settled {slot : Slot} {core : ThumbCore} {result : CoreStep} {bus : Bus}
      {recorder : Option (Array Event)}
      (present : machine.slots[index]? = some slot)
      (runs : slot.state.isRunning = true)
      (thumb : slot.core = .thumb core)
      (success : core.step machine.breakpoints slot.armed (machine.bus.select index)
        = .ok result bus) :
      Stepped machine index (.ok (result.outcome index core.pc)
        (machine.settled index result bus recorder).haltIfIdle)
  | parked {slot : Slot} {fault : CoreFault} {bus : Bus} {recorder : Option (Array Event)}
      (present : machine.slots[index]? = some slot)
      (runs : slot.state.isRunning = true)
      (faults : slot.Faults index machine.breakpoints (machine.bus.select index) fault bus)
      (policy : machine.config.faultPolicy = .parkCore) :
      Stepped machine index (.ok (.parked index fault)
        (machine.failed index (.parked fault) bus recorder).haltIfIdle)
  | halted {slot : Slot} {fault : CoreFault} {bus : Bus} {recorder : Option (Array Event)}
      (present : machine.slots[index]? = some slot)
      (runs : slot.state.isRunning = true)
      (faults : slot.Faults index machine.breakpoints (machine.bus.select index) fault bus)
      (policy : machine.config.faultPolicy = .haltAll) :
      Stepped machine index (.error (.fault index fault)
        (machine.failed index slot.state bus recorder).halt)

/-- A failed step is treated as the policy says. -/
theorem treatFault_stepped {slot : Slot} {fault : CoreFault} {bus : Bus}
    (present : machine.slots[index]? = some slot)
    (runs : slot.state.isRunning = true)
    (faults : slot.Faults index machine.breakpoints (machine.bus.select index) fault bus) :
  machine.Stepped index ({ machine.prepare index with bus }.treatFault index fault)
  := by
  cases hpolicy : machine.config.faultPolicy with
  | haltAll =>
    have hfailed : ∃ recorder, { machine.prepare index with bus }.treatFault index fault
        = .error (.fault index fault) (machine.failed index slot.state bus recorder).halt := by
      have hslots : machine.slots.modify index ({ · with armed := none })
          = machine.slots.modify index ({ · with state := slot.state, armed := none }) := by
        apply modify_congr
        intro slot' hslot'
        rw [present] at hslot'
        cases hslot'
        rfl
      rw [treatFault]
      rw [emit_eq]
      simp only [prepare, modifySlot, hpolicy, hslots]
      apply Exists.intro
      rfl
    obtain ⟨recorder, hfailed⟩ := hfailed
    rw [hfailed]
    apply Stepped.halted present runs faults hpolicy
  | parkCore =>
    have hfailed : ∃ recorder, { machine.prepare index with bus }.treatFault index fault
        = .ok (.parked index fault)
          (machine.failed index (.parked fault) bus recorder).haltIfIdle := by
      rw [treatFault]
      rw [emit_eq]
      simp only [prepare, modifySlot, hpolicy]
      rw [setState_eq]
      simp only [modify_modify]
      apply Exists.intro
      rfl
    obtain ⟨recorder, hfailed⟩ := hfailed
    rw [hfailed]
    apply Stepped.parked present runs faults hpolicy

/-- What a successful step changes in the machine, up to the recorded events. -/
theorem settle_eq (pc : Word) (result : CoreStep) (bus : Bus) :
  ∃ recorder, { machine.prepare index with bus }.settle index pc result
    = (result.outcome index pc, (machine.settled index result bus recorder).haltIfIdle)
  := by
  cases result with
  | breakpoint =>
    simp only [settle, prepare, modifySlot]
    rw [emit_eq]
    simp only [settled, CoreStep.takesCycle, decide_true, Bool.or_true]
    apply Exists.intro
    rfl
  | skipped i after =>
    simp only [settle, setCore, retire, prepare, modifySlot, modify_modify]
    rw [emit_eq]
    simp only [settled, CoreStep.takesCycle, reduceCtorEq, decide_false, Bool.or_false]
    apply Exists.intro
    rfl
  | executed i sleeps after =>
    cases sleeps with
    | false =>
      simp only [settle, setCore, retire, prepare, modifySlot, modify_modify]
      rw [emit_eq]
      simp only [settled, CoreStep.takesCycle, reduceCtorEq, decide_false, Bool.or_false]
      apply Exists.intro
      rfl
    | true =>
      simp only [settle, setCore, retire, prepare, modifySlot, modify_modify, if_true]
      rw [setState_eq, emit_eq]
      simp only [modify_modify, settled, CoreStep.takesCycle, reduceCtorEq, decide_false,
        Bool.or_false]
      apply Exists.intro
      rfl

/-- A successful step is put into the machine. -/
theorem settle_stepped {slot : Slot} {core : ThumbCore} {result : CoreStep} {bus : Bus}
    (present : machine.slots[index]? = some slot)
    (runs : slot.state.isRunning = true)
    (thumb : slot.core = .thumb core)
    (success : core.step machine.breakpoints slot.armed (machine.bus.select index)
      = .ok result bus) :
  machine.Stepped index (.ok ({ machine.prepare index with bus }.settle index core.pc result).1
    ({ machine.prepare index with bus }.settle index core.pc result).2)
  := by
  obtain ⟨recorder, hsettle⟩ := machine.settle_eq index core.pc result bus
  rw [hsettle]
  apply Stepped.settled present runs thumb success

/-- Every step of a core is one of the cases. -/
theorem stepCore_stepped :
  machine.Stepped index (machine.stepCore index)
  := by
  rw [stepCore]
  split
  · next habsent => apply Stepped.noCore habsent
  · next slot hslot =>
    split
    · next hruns =>
      simp only
      split
      · next hart hhart =>
        apply machine.treatFault_stepped index hslot hruns (.noEngine hhart)
      · next core hcore =>
        rw [onBus_eq]
        cases hstep : core.step (machine.prepare index).breakpoints slot.armed
            (machine.prepare index).bus with
        | error fault bus =>
          simp only
          apply machine.treatFault_stepped index hslot hruns (.failed hcore hstep)
        | ok result bus =>
          simp only
          apply machine.settle_stepped index hslot hruns hcore hstep
    · next hwaits =>
      apply Stepped.idle hslot
      apply Bool.eq_false_iff.mpr hwaits

end Machine

end ThumbSoc
