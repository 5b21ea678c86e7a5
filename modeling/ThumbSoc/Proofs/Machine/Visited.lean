import ThumbSoc.Proofs.CoreStep
import ThumbSoc.Proofs.Machine.Turns

/-!
# What a step does to the cores

A step of a machine visits one core and leaves the others alone. The visited core rests if it
is not running. If it is, it is no longer armed afterwards, and it stays where it stands or
gets past an instruction; it gets past one on a breakpoint only if it was armed there.
-/

namespace ThumbSoc

/-- What a visit makes of the slot of its core, and whether the core gets past an
instruction. -/
inductive Slot.Visited (slot : Slot) (breakpoints : Breakpoints) : Slot → Bool → Prop where
  | rests (waits : slot.state.isRunning = false) : Visited slot breakpoints slot false
  | stays {after : Slot} (runs : slot.state.isRunning = true) (disarmed : after.armed = none)
      (core : after.core = slot.core) :
      Visited slot breakpoints after false
  | moves {after : Slot} (runs : slot.state.isRunning = true) (disarmed : after.armed = none)
      (free : breakpoints.contains slot.core.pc → slot.armed = some slot.core.pc) :
      Visited slot breakpoints after true

namespace Machine

/-- Whether a step got its core past an instruction. -/
def passes : EStateM.Result MachineError Machine StepOutcome → Bool
  | .ok outcome _ => outcome.takesCycle
  | .error .. => false

theorem settle_visited {slot : Slot} {core : ThumbCore} {breakpoints : Breakpoints}
    {bus bus' : Bus} {step : CoreStep} (runs : slot.state.isRunning = true)
    (thumb : slot.core = .thumb core)
    (success : core.step breakpoints slot.armed bus = .ok step bus') :
  slot.Visited breakpoints (slot.settle step) step.takesCycle
  := by
  have free (hpast : step ≠ .breakpoint) :
      breakpoints.contains slot.core.pc → slot.armed = some slot.core.pc := by
    intro hcontains
    rw [thumb] at hcontains ⊢
    apply Decidable.byContradiction
    intro harmed
    have hstops : core.step breakpoints slot.armed bus = .ok .breakpoint bus :=
      ThumbCore.step_eq_breakpoint_iff.mpr ⟨⟨harmed, hcontains⟩, rfl⟩
    rw [hstops] at success
    cases success
    apply hpast rfl
  cases step with
  | breakpoint => exact .stays runs rfl rfl
  | skipped => exact .moves runs rfl (free nofun)
  | executed => exact .moves runs rfl (free nofun)

namespace Stepped

variable {machine : Machine} {index : Nat}
  {result : EStateM.Result MachineError Machine StepOutcome}

/-- A step changes the slot of its core only, and keeps the configuration, the cursor and the
breakpoints. -/
theorem frame (h : machine.Stepped index result) :
  (resultState result).config = machine.config
    ∧ (resultState result).cursor = machine.cursor
    ∧ (resultState result).breakpoints = machine.breakpoints
    ∧ ∃ change, (resultState result).slots = machine.slots.modify index change
      ∧ ∀ slot, machine.slots[index]? = some slot →
        slot.Visited machine.breakpoints (change slot) (passes result)
  := by
  cases h with
  | noCore absent =>
    use rfl, rfl, rfl, id, (modify_self fun _ _ => rfl).symm
    intro slot hslot
    rw [absent] at hslot
    cases hslot
  | @idle slot present waits =>
    rw [resultState, haltIfIdle_eq]
    use rfl, rfl, rfl, id, (modify_self fun _ _ => rfl).symm
    intro slot' hslot'
    rw [present] at hslot'
    cases hslot'
    exact .rests waits
  | @settled slot core step bus recorder present runs thumb success =>
    rw [resultState, haltIfIdle_eq]
    use rfl, rfl, rfl, (·.settle step), rfl
    intro slot' hslot'
    rw [present] at hslot'
    cases hslot'
    rw [passes, CoreStep.outcome_takesCycle]
    apply settle_visited runs thumb success
  | @parked slot fault bus recorder present runs faults policy =>
    rw [resultState, haltIfIdle_eq]
    use rfl, rfl, rfl, ({ · with state := .parked fault, armed := none }), rfl
    intro slot' hslot'
    rw [present] at hslot'
    cases hslot'
    exact .stays runs rfl rfl
  | @halted slot fault bus recorder present runs faults policy =>
    use rfl, rfl, rfl, ({ · with state := slot.state, armed := none }), rfl
    intro slot' hslot'
    rw [present] at hslot'
    cases hslot'
    exact .stays runs rfl rfl

theorem size (h : machine.Stepped index result) :
  (resultState result).slots.size = machine.slots.size
  := by
  obtain ⟨_, _, _, change, hslots, _⟩ := h.frame
  rw [hslots, Array.size_modify]

theorem others (h : machine.Stepped index result) {i : Nat} (hi : i ≠ index) :
  (resultState result).slots[i]? = machine.slots[i]?
  := by
  obtain ⟨_, _, _, change, hslots, _⟩ := h.frame
  rw [hslots, Array.getElem?_modify, if_neg hi.symm]

theorem visited (h : machine.Stepped index result) {slot : Slot}
    (hslot : machine.slots[index]? = some slot) :
  ∃ after, (resultState result).slots[index]? = some after
    ∧ slot.Visited machine.breakpoints after (passes result)
  := by
  obtain ⟨_, _, _, change, hslots, hvisited⟩ := h.frame
  use change slot
  rw [hslots, Array.getElem?_modify, if_pos rfl, hslot]
  use rfl
  apply hvisited slot hslot

end Stepped

end Machine

end ThumbSoc
