import ThumbSoc.Proofs.CoreStep
import ThumbSoc.Proofs.Machine.Request

/-!
# What a step records

A step of a machine records one event that reports what came of it, unless the core idles, and
then the change of the run state of the core if there is one. `told_eq` says so of all that a
step records, which `stepCore_recorder` reads off the functions that make it up.

`recorded` is what a recorder holds after further events, and `changes` are the events that tell
of the difference between the run states of two machines.
-/

namespace ThumbSoc

namespace Machine

variable {machine after : Machine} {index : Nat}

/-! ### Recorders -/

/-- What the recorder holds after further events. -/
def recorded (machine : Machine) (events : List Event) : Option (Array Event) :=
  if machine.config.tracing then machine.recorder.map (· ++ events.toArray) else machine.recorder

theorem recorded_nil (machine : Machine) :
  machine.recorded [] = machine.recorder
  := by
  rw [recorded]
  split
  · simp
  · rfl

/-- Events that follow each other are recorded one after the other. -/
theorem recorded_recorded {first : List Event} (hconfig : after.config = machine.config)
    (hrecorder : after.recorder = machine.recorded first) (second : List Event) :
  after.recorded second = machine.recorded (first ++ second)
  := by
  rw [recorded, hconfig, hrecorder, recorded, recorded]
  cases machine.config.tracing with
  | false => simp
  | true => simp [Option.map_map, Function.comp_def]

theorem emit_recorder (machine : Machine) (event : Event) :
  (machine.emit event).recorder = machine.recorded [event]
  := by
  rw [emit, recorded]
  split
  · simp
  · rfl

theorem haltIfIdle_recorder (machine : Machine) :
  machine.haltIfIdle.recorder = machine.recorder
  := by rw [haltIfIdle_eq]

/-! ### Changes of run states -/

/-- The run states of the cores. -/
def states (machine : Machine) : Array RunState :=
  machine.slots.map (·.state)

/-- The event that tells how the run state of a core has changed, if it has. -/
def change? (machine after : Machine) (index : Nat) : Option Event :=
  if machine.states[index]? = after.states[index]? then none
  else after.states[index]?.map (.runState index)

/-- The events that tell how the run states of the cores have changed, in the order of the
cores. -/
def changes (machine after : Machine) : List Event :=
  (List.range machine.slots.size).filterMap (machine.change? after)

theorem states_size (machine : Machine) :
  machine.states.size = machine.slots.size
  := Array.size_map

theorem states_get (machine : Machine) (index : Nat) :
  machine.states[index]? = machine.slots[index]?.map (·.state)
  := Array.getElem?_map

/-- A change of a slot that keeps its run state. -/
theorem states_modifySlot (machine : Machine) (index : Nat) {change : Slot → Slot}
    (hstate : ∀ slot, (change slot).state = slot.state) :
  (machine.modifySlot index change).states = machine.states
  := map_modify hstate

/-- Which events tell of a change depends on the run states before and after it. -/
theorem changes_congr {machine' after' : Machine} (hbefore : machine.states = machine'.states)
    (hafter : after.states = after'.states) :
  machine.changes after = machine'.changes after'
  := by
  have hchange : machine.change? after = machine'.change? after' := by
    funext index
    rw [change?, change?, hbefore, hafter]
  rw [changes, changes, ← states_size, ← states_size, hbefore, hchange]

theorem changes_of_states_eq (h : machine.states = after.states) :
  machine.changes after = []
  := by
  rw [changes, List.filterMap_eq_nil_iff]
  intro index _
  rw [change?, if_pos (by rw [h])]

/-- Filtering a range by a function that is defined at one number only. -/
theorem filterMap_range_single {α : Type} {f : Nat → Option α} (hother : ∀ i ≠ index, f i = none)
    {count : Nat} (houtside : count ≤ index → f index = none) :
  (List.range count).filterMap f = (f index).toList
  := by
  induction count with
  | zero => rw [houtside (Nat.zero_le _)]; rfl
  | succ count ih =>
    rw [List.range_succ, List.filterMap_append]
    by_cases hi : count = index
    · subst hi
      have hbefore : (List.range count).filterMap f = [] := by
        rw [List.filterMap_eq_nil_iff]
        intro i hmem
        apply hother i
        have hlt := List.mem_range.mp hmem
        omega
      rw [hbefore, List.nil_append]
      cases hf : f count with
      | none => simp [hf]
      | some a => simp [hf]
    · have hnone : [count].filterMap f = [] := by simp [hother count hi]
      rw [hnone, List.append_nil]
      apply ih
      intro hle
      apply houtside
      omega

/-- The change of a single slot. -/
theorem changes_modify {change : Slot → Slot} {slot : Slot}
    (hslots : after.slots = machine.slots.modify index change)
    (present : machine.slots[index]? = some slot) :
  machine.changes after
    = if (change slot).state = slot.state then [] else [.runState index (change slot).state]
  := by
  have hother : ∀ i ≠ index, machine.change? after i = none := by
    intro i hi
    rw [change?, states_get, states_get, hslots, Array.getElem?_modify, if_neg hi.symm, if_pos rfl]
  have hindex : machine.change? after index
      = if (change slot).state = slot.state then none
        else some (.runState index (change slot).state) := by
    rw [change?, states_get, states_get, hslots, Array.getElem?_modify, if_pos rfl, present]
    simp only [Option.map_some, Option.some.injEq, eq_comm]
  have hinside : ¬ machine.slots.size ≤ index := by
    obtain ⟨hlt, _⟩ := Array.getElem?_eq_some_iff.mp present
    omega
  rw [changes, filterMap_range_single hother (fun houtside => absurd houtside hinside), hindex]
  split <;> rfl

/-- Putting a core into a run state records the change. -/
theorem setState_recorder (machine : Machine) (index : Nat) (state : RunState) :
  (machine.setState index state).recorder
    = machine.recorded (machine.changes (machine.setState index state))
  := by
  cases hslot : machine.slots[index]? with
  | none =>
    have hsame : machine.setState index state = machine := by simp only [setState, hslot]
    rw [hsame, changes_of_states_eq rfl, recorded_nil]
  | some slot =>
    have hslots : (machine.setState index state).slots
        = machine.slots.modify index ({ · with state }) := by rw [setState_eq]
    rw [changes_modify hslots hslot]
    simp only [setState, hslot]
    by_cases hstate : slot.state = state
    · rw [if_pos hstate, if_pos hstate.symm, recorded_nil]
    · rw [if_neg hstate, if_neg (Ne.symm hstate)]
      apply emit_recorder

/-- Taking a running core out of the schedule records its new run state. -/
theorem setState_recorder_of_running {slot : Slot} {state : RunState}
    (present : machine.slots[index]? = some slot) (runs : slot.state.isRunning = true)
    (hout : state.isRunning = false) :
  (machine.setState index state).recorder = machine.recorded [.runState index state]
  := by
  have hslots : (machine.setState index state).slots
      = machine.slots.modify index ({ · with state }) := by rw [setState_eq]
  have hne : state ≠ slot.state := by
    rintro rfl
    rw [runs] at hout
    cases hout
  rw [setState_recorder, changes_modify hslots present, if_neg hne]

end Machine

/-! ### Steps of cores -/

/-- The event that reports a successful step of core `index`, which stood at `pc`. -/
def CoreStep.event (index : Nat) (pc : Word) : CoreStep → Event
  | .breakpoint => .breakpoint index pc
  | .skipped i _ => .instruction index pc i false
  | .executed i .. => .instruction index pc i true

/-- The events that tell about a successful step of core `index`, which stood at `pc`. -/
def CoreStep.told (index : Nat) (pc : Word) (result : CoreStep) : List Event :=
  result.event index pc ::
    match result with
    | .executed _ true _ => [.runState index .sleeping]
    | _ => []

namespace Machine

variable {machine after : Machine} {index : Nat}

/-- The events that tell about a fault of core `index`. -/
def toldFault (machine : Machine) (index : Nat) (fault : CoreFault) : List Event :=
  .fault index fault ::
    match machine.config.faultPolicy with
    | .haltAll => []
    | .parkCore => [.runState index (.parked fault)]

/-- The events that tell about a step of core `index`. -/
def told (machine : Machine) (index : Nat) : List Event :=
  match machine.slots[index]? with
  | none => []
  | some slot =>
    if slot.state.isRunning then
      match slot.core with
      | .hart _ => machine.toldFault index (.noEngine index)
      | .thumb core =>
        match core.step machine.breakpoints slot.armed (machine.bus.select index) with
        | .error fault _ => machine.toldFault index fault
        | .ok result _ => result.told index core.pc
    else []

theorem treatFault_recorder {slot : Slot} (fault : CoreFault)
    (present : machine.slots[index]? = some slot) (runs : slot.state.isRunning = true) :
  (resultState (machine.treatFault index fault)).recorder
    = machine.recorded (machine.toldFault index fault)
  := by
  have hconfig : (machine.emit (.fault index fault)).config = machine.config := by rw [emit_eq]
  have hpresent : (machine.emit (.fault index fault)).slots[index]? = some slot := by
    rw [emit_slots, present]
  simp only [treatFault, hconfig, toldFault]
  cases machine.config.faultPolicy with
  | haltAll => exact emit_recorder machine _
  | parkCore =>
    simp only [resultState]
    rw [haltIfIdle_recorder, setState_recorder_of_running hpresent runs rfl,
      recorded_recorded hconfig (emit_recorder machine _)]
    rfl

theorem settle_recorder {slot : Slot} (pc : Word) (result : CoreStep)
    (present : machine.slots[index]? = some slot) (runs : slot.state.isRunning = true) :
  (machine.settle index pc result).2.recorder = machine.recorded (result.told index pc)
  := by
  cases result with
  | breakpoint =>
    simp only [settle]
    rw [haltIfIdle_recorder, emit_recorder]
    rfl
  | skipped i core =>
    simp only [settle]
    rw [haltIfIdle_recorder, retire, emit_recorder]
    rfl
  | executed i sleeps core =>
    have hretired : ((machine.setCore index core).retire index pc i true).recorder
        = machine.recorded [.instruction index pc i true] := by
      rw [retire, emit_recorder]
      rfl
    simp only [settle]
    rw [haltIfIdle_recorder]
    cases sleeps with
    | false => exact hretired
    | true =>
      have hconfig : ((machine.setCore index core).retire index pc i true).config
          = machine.config := by
        rw [retire, emit_eq]
        rfl
      have hpresent : ((machine.setCore index core).retire index pc i true).slots[index]?
          = some { slot with core := .thumb core } := by
        rw [retire, emit_slots]
        simp only [setCore, modifySlot, Array.getElem?_modify, if_true, present, Option.map_some]
      rw [if_pos rfl, setState_recorder_of_running hpresent runs rfl,
        recorded_recorded hconfig hretired]
      rfl

theorem stepCore_recorder (machine : Machine) (index : Nat) :
  (resultState (machine.stepCore index)).recorder = machine.recorded (machine.told index)
  := by
  rw [stepCore, told]
  cases hslot : machine.slots[index]? with
  | none => exact machine.recorded_nil.symm
  | some slot =>
    simp only
    by_cases hruns : slot.state.isRunning = true
    · have hpresent (bus : Bus) : { machine.prepare index with bus }.slots[index]?
          = some { slot with armed := none } := by
        simp only [prepare, modifySlot, Array.getElem?_modify, if_true, hslot, Option.map_some]
      rw [if_pos hruns, if_pos hruns]
      cases slot.core with
      | hart hart => exact treatFault_recorder _ (hpresent _) hruns
      | thumb core =>
        simp only
        rw [onBus_eq]
        have hbus : (machine.prepare index).bus = machine.bus.select index := rfl
        have hset : (machine.prepare index).breakpoints = machine.breakpoints := rfl
        rw [hbus, hset]
        cases core.step machine.breakpoints slot.armed (machine.bus.select index) with
        | error fault bus => exact treatFault_recorder _ (hpresent bus) hruns
        | ok result bus => exact settle_recorder core.pc result (hpresent bus) hruns
    · rw [if_neg hruns, if_neg hruns]
      simp only [resultState]
      rw [haltIfIdle_recorder, recorded_nil]

theorem told_of_faults {slot : Slot} {fault : CoreFault} {bus : Bus}
    (present : machine.slots[index]? = some slot) (runs : slot.state.isRunning = true)
    (faults : slot.Faults index machine.breakpoints (machine.bus.select index) fault bus) :
  machine.told index = machine.toldFault index fault
  := by
  cases faults with
  | noEngine core => simp only [told, present, runs, if_true, core]
  | failed thumb failure => simp only [told, present, runs, if_true, thumb, failure]

end Machine

/-! ### Visits -/

/-- The event that reports what came of a visit. A core that idles is not reported. -/
def Visit.report (visit : Visit) : Option Event :=
  match visit.result with
  | .ok (.executed core pc _) _ =>
    (visit.machine.bus.instructionAt pc).toOption.map (.instruction core pc · true)
  | .ok (.skipped core pc _) _ =>
    (visit.machine.bus.instructionAt pc).toOption.map (.instruction core pc · false)
  | .ok (.breakpoint core pc) _ => some (.breakpoint core pc)
  | .ok (.parked core fault) _ => some (.fault core fault)
  | .ok (.idle _ _) _ => none
  | .error (.fault core fault) _ => some (.fault core fault)
  | .error _ _ => none

/-- A visit in which the step of the core succeeds reports this step. -/
theorem Visit.report_of_step {visit : Visit} {core : ThumbCore} {armed : Option Word}
    {step : CoreStep} {bus : Bus} {after : Machine}
    (success : core.step visit.machine.breakpoints armed (visit.machine.bus.select visit.index)
      = .ok step bus)
    (hresult : visit.result = .ok (step.outcome visit.index core.pc) after) :
  visit.report = some (step.event visit.index core.pc)
  := by
  rw [report, hresult]
  rcases ThumbCore.step_ok success with ⟨rfl, _⟩ | ⟨i, hi, _, rfl, _⟩ | ⟨i, effects, hi, _, rfl⟩
  · rfl
  · have hi : visit.machine.bus.instructionAt core.pc = .ok i := hi
    simp only [CoreStep.outcome, CoreStep.event, hi, Except.toOption, Option.map_some]
  · have hi : visit.machine.bus.instructionAt core.pc = .ok i := hi.1
    simp only [CoreStep.outcome, CoreStep.event, hi, Except.toOption, Option.map_some]

namespace Machine

/-- What a visit tells is the report, and then the new run state of the core. -/
theorem told_eq (machine : Machine) (index : Nat) :
  machine.told index = (Visit.report ⟨machine, index⟩).toList
    ++ machine.changes (resultState (machine.stepCore index))
  := by
  have hstepped := machine.stepCore_stepped index
  have hsame (after : Machine) (hslots : after.slots = machine.slots) :
      machine.changes after = [] := by
    apply changes_of_states_eq
    rw [states, states, hslots]
  generalize hresult : machine.stepCore index = result at hstepped ⊢
  have hresult : Visit.result ⟨machine, index⟩ = result := hresult
  cases hstepped with
  | noCore absent =>
    simp only [told, absent, resultState, Visit.report, hresult]
    rw [hsame _ rfl]
    rfl
  | idle present waits =>
    simp only [told, present, waits, Bool.false_eq_true, if_false, resultState, Visit.report,
      hresult]
    rw [hsame _ machine.haltIfIdle_slots]
    rfl
  | @settled slot core step bus recorder present runs thumb success =>
    have hslots : (machine.settled index step bus recorder).haltIfIdle.slots
        = machine.slots.modify index (·.settle step) := by rw [haltIfIdle_slots, settled]
    simp only [told, present, runs, if_true, thumb, success, resultState]
    rw [Visit.report_of_step success hresult, changes_modify hslots present]
    cases step with
    | breakpoint => simp [CoreStep.told, Slot.settle]
    | skipped i after => simp [CoreStep.told, Slot.settle]
    | executed i sleeps after =>
      cases sleeps with
      | false => simp [CoreStep.told, Slot.settle]
      | true =>
        have hne : RunState.sleeping ≠ slot.state := by
          intro hsleeps
          rw [← hsleeps] at runs
          cases runs
        simp [CoreStep.told, Slot.settle, hne]
  | @parked slot fault bus recorder present runs faults policy =>
    have hne : RunState.parked fault ≠ slot.state := by
      intro hparked
      rw [← hparked] at runs
      cases runs
    have hslots : (machine.failed index (.parked fault) bus recorder).haltIfIdle.slots
        = machine.slots.modify index ({ · with state := .parked fault, armed := none }) := by
      rw [haltIfIdle_slots, failed]
    simp only [resultState, Visit.report, hresult]
    rw [told_of_faults present runs faults, changes_modify hslots present]
    simp [toldFault, policy, hne]
  | @halted slot fault bus recorder present runs faults policy =>
    have hslots : (machine.failed index slot.state bus recorder).halt.slots
        = machine.slots.modify index ({ · with state := slot.state, armed := none }) := by
      rw [halt, failed]
    simp only [resultState, Visit.report, hresult]
    rw [told_of_faults present runs faults, changes_modify hslots present]
    simp [toldFault, policy]

end Machine

end ThumbSoc
