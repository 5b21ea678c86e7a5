import ThumbSoc.Proofs.Machine.Request
import ThumbSoc.Proofs.Machine.Visited

/-!
# The first core alone

`alone` takes all cores but the first one out of a machine. As long as the others are dormant,
nothing that concerns the first core notices: its steps, the requests of the host and a reset
do the same before and after the others are taken out. A turn of a dormant core passes, and the
machine halts at it if the first core does not run, as it does at the turn of the first core.
-/

namespace ThumbSoc.Machine

/-- The machine with its first core only. -/
def alone (machine : Machine) : Machine :=
  { machine with
    config := { machine.config with coreCount := 1 }
    slots := machine.slots[0]?.toArray
    cursor := 0 }

/-- The result of a computation, with the first core only. -/
def aloneAfter {ε α : Type} : EStateM.Result ε Machine α → EStateM.Result ε Machine α
  | .ok a after => .ok a after.alone
  | .error e after => .error e after.alone

/-- All cores but the first one are dormant. -/
def OthersDormant (machine : Machine) : Prop :=
  ∀ i slot, machine.slots[i + 1]? = some slot → slot.state = .dormant

/-- All cores but the first one are dormant, and a reset leaves them so. -/
structure Secluded (machine : Machine) : Prop where
  dormancy : machine.config.dormantSecondaries = true
  cursor : machine.cursor < machine.slots.size
  others : machine.OthersDormant

variable {machine after : Machine}

theorem OthersDormant.modifySlot (h : machine.OthersDormant) (change : Slot → Slot) :
  (machine.modifySlot 0 change).OthersDormant
  := by
  intro i slot hslot
  simp only [Machine.modifySlot] at hslot
  rw [Array.getElem?_modify, if_neg (Nat.zero_ne_add_one i)] at hslot
  apply h i slot hslot

theorem OthersDormant.emit (h : machine.OthersDormant) (event : Event) :
  (machine.emit event).OthersDormant
  := by
  rw [emit_eq]
  apply h

theorem OthersDormant.setState (h : machine.OthersDormant) (state : RunState) :
  (machine.setState 0 state).OthersDormant
  := by
  rw [setState_eq]
  apply h.modifySlot ({ · with state })

theorem Secluded.first (h : machine.Secluded) :
  ∃ slot, machine.slots[0]? = some slot
  := by
  have hsize : 0 < machine.slots.size := Nat.lt_of_le_of_lt (Nat.zero_le _) h.cursor
  use machine.slots[0]
  apply Array.getElem?_eq_getElem hsize

theorem Secluded.modify (h : machine.Secluded) (change : Slot → Slot) :
  { machine with slots := machine.slots.modify 0 change }.Secluded
  where
  dormancy := h.dormancy
  cursor := by
    rw [Array.size_modify]
    apply h.cursor
  others := h.others.modifySlot change

/-- Requests about the first core leave the others dormant. -/
theorem Requested.secluded (hrequested : machine.Requested 0 after) (h : machine.Secluded) :
  after.Secluded
  := by
  cases hrequested with
  | shared => exact { h with }
  | core change bus recorder armed => exact { h.modify change with }

/-! ### The parts of a step, alone -/

section Parts

variable (machine : Machine)

theorem alone_first :
  machine.alone.slots[0]? = machine.slots[0]?
  := by
  rw [alone]
  cases machine.slots[0]? with
  | none => rfl
  | some slot => rfl

theorem alone_modifySlot (change : Slot → Slot) :
  machine.alone.modifySlot 0 change = (machine.modifySlot 0 change).alone
  := by
  simp only [alone, modifySlot, Array.getElem?_modify, if_true]
  cases machine.slots[0]? with
  | none => rfl
  | some slot => rfl

theorem alone_emit (event : Event) :
  machine.alone.emit event = (machine.emit event).alone
  := by
  simp only [emit]
  split
  · next htracing =>
    change machine.config.tracing = true at htracing
    rw [if_pos htracing]
    rfl
  · next hquiet =>
    change ¬ machine.config.tracing = true at hquiet
    rw [if_neg hquiet]

theorem alone_setState (state : RunState) :
  machine.alone.setState 0 state = (machine.setState 0 state).alone
  := by
  simp only [setState, alone_first]
  split
  · rfl
  · split
    · rfl
    · rw [alone_modifySlot, alone_emit]

variable {machine}

/-- A machine whose other cores are dormant has a running core if the first one runs. -/
theorem alone_anyRunning (h : machine.OthersDormant) :
  machine.alone.anyRunning = machine.anyRunning
  := by
  apply Bool.eq_iff_iff.mpr
  rw [anyRunning, anyRunning, Array.any_eq_true', Array.any_eq_true']
  constructor
  · rintro ⟨slot, hslot, hruns⟩
    use slot, Array.mem_of_getElem? (Option.mem_toArray.mp hslot)
  · rintro ⟨slot, hslot, hruns⟩
    obtain ⟨i, hi⟩ := Array.mem_iff_getElem?.mp hslot
    cases i with
    | zero => use slot, Option.mem_toArray.mpr hi
    | succ i =>
      rw [h i slot hi] at hruns
      cases hruns

theorem alone_haltIfIdle (h : machine.OthersDormant) :
  machine.alone.haltIfIdle = machine.haltIfIdle.alone
  := by
  rw [haltIfIdle, haltIfIdle, alone_anyRunning h]
  split
  · rfl
  · rfl

theorem alone_treatFault (h : machine.OthersDormant) (fault : CoreFault) :
  machine.alone.treatFault 0 fault = aloneAfter (machine.treatFault 0 fault)
  := by
  rw [treatFault, treatFault, alone_emit]
  have hemit := h.emit (.fault 0 fault)
  cases hpolicy : (machine.emit (.fault 0 fault)).config.faultPolicy with
  | haltAll =>
    have halone : (machine.emit (.fault 0 fault)).alone.config.faultPolicy = .haltAll := hpolicy
    simp only [halone]
    rfl
  | parkCore =>
    have halone : (machine.emit (.fault 0 fault)).alone.config.faultPolicy = .parkCore := hpolicy
    simp only [halone]
    rw [alone_setState, alone_haltIfIdle (hemit.setState _)]
    rfl

theorem alone_setCore (machine : Machine) (core : ThumbCore) :
  machine.alone.setCore 0 core = (machine.setCore 0 core).alone
  := machine.alone_modifySlot ({ · with core := .thumb core })

theorem alone_retire (machine : Machine) (pc : Word) (i : Instruction) (executed : Bool) :
  machine.alone.retire 0 pc i executed = (machine.retire 0 pc i executed).alone
  := alone_emit { machine with cycles := machine.cycles + 1 } (.instruction 0 pc i executed)

theorem OthersDormant.setCore (h : machine.OthersDormant) (core : ThumbCore) :
  (machine.setCore 0 core).OthersDormant
  := h.modifySlot ({ · with core := .thumb core })

theorem OthersDormant.retire (h : machine.OthersDormant) (pc : Word) (i : Instruction)
    (executed : Bool) :
  (machine.retire 0 pc i executed).OthersDormant
  := by
  have hcycles : { machine with cycles := machine.cycles + 1 }.OthersDormant := h
  apply hcycles.emit

theorem alone_settle (h : machine.OthersDormant) (pc : Word) (result : CoreStep) :
  machine.alone.settle 0 pc result
    = ((machine.settle 0 pc result).1, (machine.settle 0 pc result).2.alone)
  := by
  cases result with
  | breakpoint =>
    have hhit : { machine with breakpointHit := true }.OthersDormant := h
    have halone := alone_emit { machine with breakpointHit := true } (.breakpoint 0 pc)
    have hhalts := alone_haltIfIdle (hhit.emit (.breakpoint 0 pc))
    rw [← halone] at hhalts
    apply congrArg (Prod.mk _) hhalts
  | skipped i core =>
    have hdormant := (h.setCore core).retire pc i false
    simp only [settle]
    rw [alone_setCore, alone_retire, alone_haltIfIdle hdormant]
  | executed i sleeps core =>
    have hdormant := (h.setCore core).retire pc i true
    simp only [settle]
    rw [alone_setCore, alone_retire]
    cases sleeps with
    | false =>
      simp only [Bool.false_eq_true, if_false]
      rw [alone_haltIfIdle hdormant]
    | true =>
      simp only [if_true]
      rw [alone_setState, alone_haltIfIdle (hdormant.setState .sleeping)]

theorem alone_prepare (machine : Machine) :
  machine.alone.prepare 0 = (machine.prepare 0).alone
  := by
  have halone := machine.alone_modifySlot ({ · with armed := none })
  rw [prepare, halone]
  rfl

theorem alone_onBus {ε α : Type} (machine : Machine) (action : EStateM ε Bus α) :
  machine.alone.onBus action = aloneAfter (machine.onBus action)
  := by
  rw [onBus_eq, onBus_eq]
  have hbus : machine.alone.bus = machine.bus := rfl
  rw [hbus]
  cases action machine.bus with
  | ok a bus => rfl
  | error e bus => rfl

theorem OthersDormant.onBus {ε α : Type} (h : machine.OthersDormant) (action : EStateM ε Bus α) :
  (resultState (machine.onBus action)).OthersDormant
  := by
  rw [onBus_eq]
  cases action machine.bus with
  | ok a bus => apply h
  | error e bus => apply h

/-- A step of the first core is the same, alone. -/
theorem alone_stepCore (h : machine.Secluded) :
  machine.alone.stepCore 0 = aloneAfter (machine.stepCore 0)
  := by
  obtain ⟨slot, hslot⟩ := h.first
  have hprepared : (machine.prepare 0).OthersDormant :=
    h.others.modifySlot ({ · with armed := none })
  simp only [stepCore, alone_first, hslot]
  split
  · rw [alone_prepare]
    split
    · apply alone_treatFault hprepared
    · next core _ =>
      have hstep := hprepared.onBus (core.step (machine.prepare 0).breakpoints slot.armed)
      have hset : (machine.prepare 0).alone.breakpoints = (machine.prepare 0).breakpoints := rfl
      rw [hset, alone_onBus]
      generalize (machine.prepare 0).onBus _ = result at hstep
      cases result with
      | ok result after =>
        have hstep : after.OthersDormant := hstep
        simp only [aloneAfter]
        rw [alone_settle hstep]
      | error fault after =>
        have hstep : after.OthersDormant := hstep
        apply alone_treatFault hstep
  · rw [alone_haltIfIdle h.others]
    rfl

end Parts

/-! ### Steps, alone -/

theorem Secluded.advance (h : machine.Secluded) :
  machine.advance.Secluded
  := by
  have hcursor : (machine.cursor + 1) % machine.slots.size < machine.slots.size := by
    apply Nat.mod_lt
    apply Nat.lt_of_le_of_lt (Nat.zero_le _) h.cursor
  exact { h with cursor := hcursor }

theorem Secluded.haltIfIdle (h : machine.Secluded) :
  machine.haltIfIdle.Secluded
  := by
  rw [haltIfIdle_eq]
  exact { h with }

/-- A step of the first core leaves the others dormant. -/
theorem Secluded.stepped (h : machine.Secluded)
    {result : EStateM.Result MachineError Machine StepOutcome} (hstepped : machine.Stepped 0 result) :
  (resultState result).Secluded
  := by
  obtain ⟨hconfig, hcursor, _⟩ := hstepped.frame
  constructor
  case dormancy =>
    rw [hconfig]
    apply h.dormancy
  case cursor =>
    rw [hcursor, hstepped.size]
    apply h.cursor
  case others =>
    intro i slot hslot
    rw [hstepped.others (Nat.succ_ne_zero i)] at hslot
    apply h.others i slot hslot

theorem alone_size (h : machine.Secluded) :
  machine.alone.slots.size = 1
  := by
  obtain ⟨slot, hslot⟩ := h.first
  simp only [alone, hslot]
  rfl

theorem alone_advance (h : machine.Secluded) :
  machine.alone.advance = machine.advance.alone
  := by
  rw [advance, alone_size h, Nat.mod_one]
  rfl

/-- The turn of the first core is the same, alone. -/
theorem alone_step (h : machine.Secluded) (hfirst : machine.cursor = 0) :
  machine.alone.step = aloneAfter machine.step
  := by
  have hstep : machine.step = machine.advance.stepCore 0 := by
    rw [step, hfirst]
  rw [hstep, ← alone_stepCore h.advance, ← alone_advance h]
  rfl

theorem stepCore_idle {index : Nat} {slot : Slot} (hslot : machine.slots[index]? = some slot)
    (hwaits : slot.state.isRunning = false) :
  machine.stepCore index = .ok (.idle index slot.state) machine.haltIfIdle
  := by
  rw [stepCore, hslot]
  simp only [hwaits, Bool.false_eq_true, if_false]

/-- The turn of another core passes, and the machine halts if the first core does not run. -/
theorem step_other (h : machine.Secluded) {i : Nat} (hother : machine.cursor = i + 1) :
  machine.step = .ok (.idle (i + 1) .dormant) machine.advance.haltIfIdle
  := by
  obtain ⟨slot, hslot⟩ : ∃ slot, machine.slots[i + 1]? = some slot := by
    have hcursor := h.cursor
    rw [hother] at hcursor
    use machine.slots[i + 1]
    apply Array.getElem?_eq_getElem hcursor
  have hstate := h.others i slot hslot
  have hwaits : slot.state.isRunning = false := by
    rw [hstate]
    rfl
  have hslot : machine.advance.slots[i + 1]? = some slot := hslot
  rw [step, hother, stepCore_idle hslot hwaits, hstate]

/-- If no core runs, the first core idles at its turn and the machine halts. -/
theorem alone_step_idle (h : machine.Secluded) (hnone : machine.anyRunning = false) :
  ∃ outcome, machine.alone.step = .ok outcome machine.advance.haltIfIdle.alone
  := by
  obtain ⟨slot, hslot⟩ := h.first
  have hwaits : slot.state.isRunning = false := by
    rw [anyRunning, Array.any_eq_false'] at hnone
    apply Bool.eq_false_iff.mpr
    apply hnone slot (Array.mem_of_getElem? hslot)
  have hslot : machine.advance.slots[0]? = some slot := hslot
  have hstep : machine.alone.step = machine.alone.advance.stepCore 0 := rfl
  rw [hstep, alone_advance h, alone_stepCore h.advance, stepCore_idle hslot hwaits]
  use .idle 0 slot.state
  rfl

/-! ### Requests, alone -/

section Requests

variable (machine : Machine)

theorem alone_loadBytes (address : Word) (data : List UInt8) :
  machine.alone.loadBytes address data = (machine.loadBytes address data).map alone
  := by
  rw [loadBytes, loadBytes]
  have hbus : machine.alone.bus = machine.bus := rfl
  rw [hbus]
  split
  · rfl
  · rfl

theorem alone_loadSegments (segments : List Segment) :
  segments.foldlM (fun (s : Machine) segment => s.loadBytes segment.address segment.data)
      machine.alone
    = (segments.foldlM (fun (s : Machine) segment => s.loadBytes segment.address segment.data)
        machine).map alone
  := by
  induction segments generalizing machine with
  | nil => rfl
  | cons segment rest ih =>
    rw [List.foldlM_cons, List.foldlM_cons, alone_loadBytes]
    cases machine.loadBytes segment.address segment.data with
    | error e => rfl
    | ok mid => apply ih

theorem alone_loadImage (image : Image) :
  machine.alone.loadImage image = (machine.loadImage image).map alone
  := by
  have haccepts (segment : Segment) : machine.alone.accepts segment = machine.accepts segment := rfl
  simp only [loadImage, haccepts]
  split
  · rfl
  · rw [alone_loadSegments]
    cases image.segments.foldlM
        (fun (s : Machine) segment => s.loadBytes segment.address segment.data) machine with
    | error e => rfl
    | ok after =>
      apply congrArg Except.ok
      apply after.alone_modifySlot

theorem alone_loadFile (path : String) (content : Except String (List UInt8)) (base : Word) :
  machine.alone.loadFile path content base = (machine.loadFile path content base).map alone
  := by
  cases content with
  | error reason => rfl
  | ok data => apply machine.alone_loadImage

theorem alone_addBreakpoint (address : Word) :
  machine.alone.addBreakpoint address = (machine.addBreakpoint address).map alone
  := by
  rw [addBreakpoint, addBreakpoint]
  have hset : machine.alone.breakpoints = machine.breakpoints := rfl
  rw [hset]
  cases machine.breakpoints.add address with
  | error e => rfl
  | ok set => rfl

theorem alone_setPin (pin : Nat) (high : Bool) :
  machine.alone.setPin pin high = (machine.setPin pin high).map alone
  := by
  rw [setPin, setPin]
  split
  · rfl
  · rfl

theorem alone_serialWrite (port : Nat) (data : List UInt8) :
  machine.alone.serialWrite port data
    = (machine.serialWrite port data).map (fun result => (result.1, result.2.alone))
  := by
  rw [serialWrite, serialWrite]
  have hbus : machine.alone.bus = machine.bus := rfl
  rw [hbus]
  split
  · rfl
  · rfl

theorem alone_serialRead (port count : Nat) :
  machine.alone.serialRead port count
    = (machine.serialRead port count).map (fun result => (result.1, result.2.alone))
  := by
  rw [serialRead, serialRead]
  have hbus : machine.alone.bus = machine.bus := rfl
  rw [hbus]
  split
  · rfl
  · rfl

theorem alone_transfer {α : Type} (action : Transfer α) :
  machine.alone.transfer action = aloneAfter (machine.transfer action)
  := by
  rw [transfer, transfer, alone_onBus]
  cases machine.onBus action with
  | ok a after => rfl
  | error fault after => rfl

theorem alone_takeEvents :
  machine.alone.takeEvents = (machine.takeEvents.1, machine.takeEvents.2.alone)
  := by
  rw [takeEvents, takeEvents]
  have hrecorder : machine.alone.recorder = machine.recorder := rfl
  rw [hrecorder]
  cases machine.recorder with
  | none => rfl
  | some events => rfl

end Requests

theorem alone_slot (h : machine.Secluded) :
  machine.alone.slot 0 = machine.slot 0
  := by
  obtain ⟨slot, hslot⟩ := h.first
  rw [Machine.slot, Machine.slot, alone_first, hslot]

theorem alone_launch (h : machine.Secluded) (pc sp : Word) :
  machine.alone.launch 0 pc sp = (machine.launch 0 pc sp).map alone
  := by
  rw [launch, launch, alone_slot h]
  cases machine.slot 0 with
  | error e => rfl
  | ok slot =>
    apply congrArg Except.ok
    rw [alone_modifySlot, alone_setState]

theorem alone_wake (h : machine.Secluded) :
  machine.alone.wake 0 = (machine.wake 0).map alone
  := by
  rw [wake, wake, alone_slot h]
  cases machine.slot 0 with
  | error e => rfl
  | ok slot =>
    apply congrArg Except.ok
    split
    · apply alone_setState
    · rfl

theorem alone_setRegister (h : machine.Secluded) (register : Nat) (value : Word) :
  machine.alone.setRegister 0 register value = (machine.setRegister 0 register value).map alone
  := by
  rw [setRegister, setRegister, alone_slot h]
  cases machine.slot 0 with
  | error e => rfl
  | ok slot =>
    simp only [bind, Except.bind]
    cases slot.core.write? register value with
    | none => rfl
    | some core =>
      apply congrArg Except.ok
      apply alone_modifySlot

theorem alone_getRegister (h : machine.Secluded) (register : Nat) :
  machine.alone.getRegister 0 register = machine.getRegister 0 register
  := by rw [getRegister, getRegister, alone_slot h]

/-! ### Resume and reset, alone -/

theorem Secluded.resume (h : machine.Secluded) :
  machine.resume.Secluded
  where
  dormancy := h.dormancy
  cursor := by
    simp only [Machine.resume, Array.size_map]
    apply h.cursor
  others i slot hslot := by
    simp only [Machine.resume, Array.getElem?_map] at hslot
    obtain ⟨before, hbefore, rfl⟩ := Option.map_eq_some_iff.mp hslot
    have hstate := h.others i before hbefore
    split
    · apply hstate
    · apply hstate

theorem alone_resume (machine : Machine) :
  machine.alone.resume = machine.resume.alone
  := by
  simp only [resume, alone, Array.getElem?_map, Option.toArray_map]
  rfl

theorem alone_resetCore (machine : Machine) :
  machine.alone.resetCore 0 = (machine.resetCore 0).alone
  := by
  rw [resetCore, resetCore]
  rw [← alone_setState, ← alone_modifySlot]
  rfl

theorem Secluded.resetCore (h : machine.Secluded) :
  (machine.resetCore 0).Secluded
  := by
  apply (Requested.setState _ 0 _).secluded
  exact { h.modify ({ · with core := freshCore machine.config, armed := none }) with }

/-- The run state of a dormant core is its state after a reset. -/
theorem resetCore_other (h : machine.Secluded) (i : Nat) :
  machine.resetCore (i + 1)
    = machine.modifySlot (i + 1) ({ · with core := freshCore machine.config, armed := none })
  := by
  have hinitial : initialState machine.config (i + 1) = .dormant := by
    rw [initialState, if_pos ⟨Nat.succ_pos i, h.dormancy⟩]
  rw [Machine.resetCore, hinitial, Machine.setState]
  split
  · rfl
  · next slot hslot =>
    rw [if_pos]
    simp only [modifySlot, Array.getElem?_modify, if_true] at hslot
    obtain ⟨before, hbefore, rfl⟩ := Option.map_eq_some_iff.mp hslot
    apply h.others i before hbefore

theorem Secluded.resetCore_other (h : machine.Secluded) (i : Nat) :
  (machine.resetCore (i + 1)).alone = machine.alone ∧ (machine.resetCore (i + 1)).Secluded
  := by
  rw [Machine.resetCore_other h]
  constructor
  · simp only [alone, modifySlot, Array.getElem?_modify, Nat.succ_ne_zero, if_false]
  · constructor
    case dormancy => apply h.dormancy
    case cursor =>
      simp only [modifySlot, Array.size_modify]
      apply h.cursor
    case others =>
      intro k slot hslot
      simp only [modifySlot, Array.getElem?_modify] at hslot
      split at hslot
      · obtain ⟨before, hbefore, rfl⟩ := Option.map_eq_some_iff.mp hslot
        apply h.others k before hbefore
      · apply h.others k slot hslot

/-- Resetting the cores one after the other resets the first one, alone. -/
theorem Secluded.resetCores (h : machine.Secluded) (count : Nat) :
  ((List.range (count + 1)).foldl Machine.resetCore machine).alone = machine.alone.resetCore 0
    ∧ ((List.range (count + 1)).foldl Machine.resetCore machine).Secluded
  := by
  induction count with
  | zero => apply And.intro (alone_resetCore machine).symm h.resetCore
  | succ count ih =>
    obtain ⟨halone, hsecluded⟩ := ih
    rw [List.range_succ, List.foldl_append, List.foldl_cons, List.foldl_nil]
    obtain ⟨hother, hafter⟩ := hsecluded.resetCore_other count
    apply And.intro (hother.trans halone) hafter

theorem reset_alone (h : machine.Secluded) :
  machine.alone.reset = machine.reset.alone ∧ machine.reset.Secluded
  := by
  have hcount : machine.slots.size = (machine.slots.size - 1) + 1 := by
    have hcursor := h.cursor
    omega
  obtain ⟨halone, hsecluded⟩ := h.resetCores (machine.slots.size - 1)
  rw [← hcount] at halone hsecluded
  constructor
  · have hcores : (List.range 1).foldl Machine.resetCore machine.alone
        = ((List.range machine.slots.size).foldl Machine.resetCore machine).alone := halone.symm
    rw [reset, reset, alone_size h, hcores]
    rfl
  · have hcursor := Nat.lt_of_le_of_lt (Nat.zero_le _) hsecluded.cursor
    exact { hsecluded with cursor := hcursor }

end ThumbSoc.Machine
