import ThumbSoc.Proofs.Invariants.Breakpoints
import ThumbSoc.Proofs.Invariants.Bus
import ThumbSoc.Proofs.Invariants.Mark
import ThumbSoc.Proofs.Machine.Operation
import ThumbSoc.Proofs.Machine.Turns

/-!
# Sound machines

A machine is sound for a configuration and a property of cores if it has the cores and the
memory that the configuration asks for, every core has the property, the cursor points to a
core, and the bus and the breakpoint set are sound. A property of cores is stable if cores have
it after a reset and nothing that a machine does to its cores takes it away; writes of
registers by debug index are a case of their own.

Every operation keeps machines sound for every stable property, and so do any number of them.
-/

namespace ThumbSoc

/-- Nothing that a machine of the configuration does to a core takes the property away. -/
structure Core.Stable (config : Config) (P : Core → Prop) : Prop where
  fresh : P (Machine.freshCore config)
  setPc : ∀ core value, P core → P (core.setPc value)
  setSp : ∀ core value, P core → P (core.setSp value)
  commit : ∀ (core : ThumbCore) (effects : Effects), effects.Unmarked → P (.thumb core) →
    P (.thumb (effects.commit core))

/-- An operation that writes a register by debug index keeps the property of the core; every
other operation does so anyway. -/
def Operation.Respects (P : Core → Prop) : Operation → Prop
  | .setRegister _ register value =>
    ∀ core after, Core.write? register value core = some after → P core → P after
  | _ => True

/-- Whether an operation writes the status register by its debug index. -/
def Operation.writesStatus : Operation → Bool
  | .setRegister _ register _ => register == 16
  | _ => false

/-! ### Stable properties -/

theorem Core.Sound.fresh (config : Config) :
  Core.Sound config.vectorTable (Machine.freshCore config)
  := by
  rw [Machine.freshCore]
  cases config.architecture with
  | arm => apply ThumbCore.Sound.reset
  | riscV => apply Hart.Sound.reset

theorem Core.Sound.stable (config : Config) :
  Core.Stable config (Core.Sound config.vectorTable)
  where
  fresh := Core.Sound.fresh config
  setPc _ value h := h.setPc value
  setSp _ value h := h.setSp value
  commit _ effects _ h := ThumbCore.Sound.commit h effects

theorem Operation.respects_sound (operation : Operation) (vectorTable : Word) :
  operation.Respects (Core.Sound vectorTable)
  := by
  cases operation with
  | setRegister index register value =>
    intro core after hwrite h
    apply h.write? hwrite
  | _ => trivial

theorem Core.Unmarked.stable (config : Config) :
  Core.Stable config Core.Unmarked
  where
  fresh := by
    rw [Machine.freshCore]
    cases config.architecture with
    | arm =>
      change Word.Clear Psr.realigned Psr.t
      decide
    | riscV => trivial
  setPc core _ h := by cases core <;> apply h
  setSp core _ h := by cases core <;> apply h
  commit _ effects heffects h := heffects.commit h

theorem Operation.respects_unmarked {operation : Operation}
    (h : operation.writesStatus = false) :
  operation.Respects Core.Unmarked
  := by
  cases operation with
  | setRegister index register value =>
    intro core after hwrite
    apply Core.Unmarked.write? _ hwrite
    apply ne_of_beq_false h
  | _ => trivial

namespace Machine

/-- The machine has the shape that the configuration asks for, and its cores have a property. -/
structure Sound (config : Config) (P : Core → Prop) (machine : Machine) : Prop where
  /-- Only the recording of events can be switched. -/
  configured : machine.config = { config with tracing := machine.config.tracing }
  slots : machine.slots.size = config.coreCount
  cursor : machine.cursor < config.coreCount
  cores : ∀ slot ∈ machine.slots, P slot.core
  bus : machine.bus.Sound config.sramSize
  breakpoints : machine.breakpoints.Sound

namespace Sound

variable {config : Config} {P : Core → Prop} {machine : Machine}

/-! ### Parts of a machine -/

/-- A change that keeps the property of every core. -/
theorem modify (h : machine.Sound config P) (index : Nat) (change : Slot → Slot)
    (hchange : ∀ slot, P slot.core → P (change slot).core) :
  { machine with slots := machine.slots.modify index change }.Sound config P
  where
  configured := h.configured
  slots := (Array.size_modify ..).trans h.slots
  cursor := h.cursor
  cores slot hslot := by
    obtain ⟨i, hi⟩ := Array.mem_iff_getElem?.mp hslot
    rw [Array.getElem?_modify] at hi
    split at hi
    · obtain ⟨before, hbefore, rfl⟩ := Option.map_eq_some_iff.mp hi
      apply hchange
      apply h.cores before (Array.mem_of_getElem? hbefore)
    · apply h.cores slot (Array.mem_of_getElem? hi)
  bus := h.bus
  breakpoints := h.breakpoints

theorem mem_of_slot {index : Nat} {slot : Slot} (h : machine.slot index = .ok slot) :
  slot ∈ machine.slots
  := by
  rw [Machine.slot] at h
  split at h
  · next hslot =>
    cases h
    apply Array.mem_of_getElem? hslot
  · cases h

theorem setState (h : machine.Sound config P) (index : Nat) (state : RunState) :
  (machine.setState index state).Sound config P
  := by
  rw [setState_eq]
  exact { h.modify index ({ · with state }) (fun _ => id) with }

theorem haltIfIdle (h : machine.Sound config P) :
  machine.haltIfIdle.Sound config P
  := by
  rw [haltIfIdle_eq]
  exact { h with }

/-! ### Building and resetting -/

theorem create (hstable : Core.Stable config P) (h : Machine.create config = .ok machine) :
  machine.Sound config P
  := by
  rw [Machine.create] at h
  cases hcheck : config.check with
  | error e =>
    rw [hcheck] at h
    cases h
  | ok _ =>
    rw [hcheck] at h
    cases h
    have hcount : 0 < config.coreCount := by
      rw [Config.check] at hcheck
      split at hcheck
      · cases hcheck
      · next hinside =>
        have hnonzero : config.coreCount ≠ 0 := fun hzero => hinside (Or.inl hzero)
        apply Nat.pos_of_ne_zero hnonzero
    constructor
    case configured => rfl
    case slots => simp
    case cursor => apply hcount
    case cores =>
      intro slot hslot
      obtain ⟨index, _, rfl⟩ := Array.mem_map.mp hslot
      apply hstable.fresh
    case bus => apply Bus.Sound.initial
    case breakpoints => apply Breakpoints.Sound.empty

theorem resetCore (hstable : Core.Stable config P) (h : machine.Sound config P) (index : Nat) :
  (machine.resetCore index).Sound config P
  := by
  have hfresh : P (freshCore machine.config) := by
    rw [h.configured]
    apply hstable.fresh
  apply setState
  apply h.modify
  intro _ _
  apply hfresh

theorem reset (hstable : Core.Stable config P) (h : machine.Sound config P) :
  machine.reset.Sound config P
  := by
  have hcores :
      ((List.range machine.slots.size).foldl Machine.resetCore machine).Sound config P := by
    apply List.foldlRecOn _ _ h
    intro machine hmachine index _
    apply hmachine.resetCore hstable
  exact { hcores with
    bus := hcores.bus.reset
    cursor := Nat.lt_of_le_of_lt (Nat.zero_le _) h.cursor }

/-! ### Steps and runs -/

theorem advance (h : machine.Sound config P) :
  machine.advance.Sound config P
  := by
  have hcursor : (machine.cursor + 1) % machine.slots.size < config.coreCount := by
    rw [h.slots]
    apply Nat.mod_lt
    apply Nat.lt_of_le_of_lt (Nat.zero_le _) h.cursor
  exact { h with cursor := hcursor }

/-- A step of a core has it skip an instruction or apply effects, if it changes it at all. -/
theorem settle (hstable : Core.Stable config P) {core : ThumbCore} {breakpoints : Breakpoints}
    {armed : Option Word} {bus bus' : Bus} {result : CoreStep}
    (hstep : core.step breakpoints armed bus = .ok result bus') (h : P (.thumb core)) (slot : Slot)
    (hslot : P slot.core) :
  P (slot.settle result).core
  := by
  rcases ThumbCore.step_ok hstep with
    ⟨rfl, _⟩ | ⟨i, _, _, rfl, _⟩ | ⟨i, effects, _, hexecute, rfl⟩
  · apply hslot
  · apply hstable.setPc (.thumb core) _ h
  · apply hstable.commit core effects _ h
    apply i.execute_unmarked core core.pc _ _ _ hexecute

theorem faults {slot : Slot} {index : Nat} {fault : CoreFault} {bus : Bus}
    (h : machine.Sound config P)
    (hfaults : slot.Faults index machine.breakpoints (machine.bus.select index) fault bus) :
  bus.Sound config.sramSize
  := by
  have hselected := h.bus.select index
  cases hfaults with
  | noEngine => apply hselected
  | @failed core _ _ thumb failure =>
    have hkeeps := core.step_sound machine.breakpoints slot.armed _ hselected
    rw [failure] at hkeeps
    apply hkeeps

theorem failed (h : machine.Sound config P) (index : Nat) (state : RunState) {bus : Bus}
    (hbus : bus.Sound config.sramSize) (recorder : Option (Array Event)) :
  (machine.failed index state bus recorder).Sound config P
  := by
  have hcores := h.modify index ({ · with state, armed := none }) (fun _ => id)
  exact { hcores with bus := hbus }

theorem stepped (hstable : Core.Stable config P) (h : machine.Sound config P) {index : Nat}
    {result : EStateM.Result MachineError Machine StepOutcome}
    (hstepped : machine.Stepped index result) :
  (resultState result).Sound config P
  := by
  cases hstepped with
  | noCore => apply h
  | idle => apply h.haltIfIdle
  | @settled slot core result bus recorder present runs thumb success =>
    have hcore : P (.thumb core) := by
      rw [← thumb]
      apply h.cores slot (Array.mem_of_getElem? present)
    have hbus := core.step_sound machine.breakpoints slot.armed _ (h.bus.select index)
    rw [success] at hbus
    have hcores := h.modify index (·.settle result) (settle hstable success hcore)
    apply haltIfIdle
    exact { hcores with bus := hbus }
  | @parked slot fault bus recorder present runs faults policy =>
    apply haltIfIdle
    apply h.failed _ _ (h.faults faults)
  | @halted slot fault bus recorder present runs faults policy =>
    exact { h.failed index slot.state (h.faults faults) recorder with }

theorem step (hstable : Core.Stable config P) (h : machine.Sound config P) :
  (resultState machine.step).Sound config P
  := stepped hstable h.advance machine.step_stepped

theorem turns (hstable : Core.Stable config P) {goal : Nat} {path : List Machine} {last : Machine}
    (hturns : Turns goal machine path last) (h : machine.Sound config P) :
  last.Sound config P
  := by
  induction hturns with
  | nil => apply h
  | cons goes turn rest ih =>
    apply ih
    have hstep := h.step hstable
    rw [turn] at hstep
    apply hstep

theorem runTo (hstable : Core.Stable config P) (h : machine.Sound config P) (goal steps : Nat) :
  (resultState (Machine.runTo goal machine steps)).Sound config P
  := by
  obtain ⟨path, last, hturns, hend⟩ := runTo_turns goal machine steps
  have hlast := turns hstable hturns h
  rcases hend with ⟨_, hrun⟩ | ⟨e, after, _, hfails, hrun⟩
  · rw [hrun]
    apply hlast
  · have hstep := hlast.step hstable
    rw [hfails] at hstep
    rw [hrun]
    apply hstep

theorem runCycles (hstable : Core.Stable config P) (h : machine.Sound config P) (budget : Nat) :
  (resultState (machine.runCycles budget)).Sound config P
  := by
  have hrun := h.runTo hstable (min (machine.cycles + budget) cycleLimit) 0
  rw [Machine.runCycles]
  simp only
  split
  · next hresult =>
    rw [hresult] at hrun
    apply hrun
  · next hresult =>
    rw [hresult] at hrun
    apply hrun

theorem runUntilHalt (hstable : Core.Stable config P) (h : machine.Sound config P) :
  (resultState machine.runUntilHalt).Sound config P
  := by
  have hrun := h.runTo hstable cycleLimit 0
  unfold Machine.runUntilHalt
  simp only
  split
  · next hresult =>
    rw [hresult] at hrun
    apply hrun
  · next hresult =>
    rw [hresult] at hrun
    apply hrun

/-! ### Host access -/

theorem loadBytes (h : machine.Sound config P) {address : Word} {data : List UInt8}
    {after : Machine} (hload : machine.loadBytes address data = .ok after) :
  after.Sound config P
  := by
  rw [Machine.loadBytes] at hload
  split at hload
  · next hbus =>
    cases hload
    exact { h with bus := h.bus.load? hbus }
  · cases hload

theorem loadSegments (h : machine.Sound config P) {segments : List Segment} {after : Machine}
    (hload : segments.foldlM (fun s segment => s.loadBytes segment.address segment.data) machine
      = .ok after) :
  after.Sound config P
  := by
  induction segments generalizing machine with
  | nil =>
    cases hload
    apply h
  | cons segment rest ih =>
    rw [List.foldlM_cons] at hload
    cases hfirst : machine.loadBytes segment.address segment.data with
    | error e =>
      rw [hfirst] at hload
      cases hload
    | ok mid =>
      rw [hfirst] at hload
      apply ih (h.loadBytes hfirst) hload

theorem loadImage (hstable : Core.Stable config P) (h : machine.Sound config P) {image : Image}
    {after : Machine} (hload : machine.loadImage image = .ok after) :
  after.Sound config P
  := by
  rw [Machine.loadImage] at hload
  split at hload
  · cases hload
  · cases hsegments : image.segments.foldlM
        (fun s segment => s.loadBytes segment.address segment.data) machine with
    | error e =>
      rw [hsegments] at hload
      cases hload
    | ok mid =>
      rw [hsegments] at hload
      cases hload
      apply (h.loadSegments hsegments).modify
      intro slot hslot
      apply hstable.setPc _ _ hslot

theorem loadFile (hstable : Core.Stable config P) (h : machine.Sound config P) {path : String}
    {content : Except String (List UInt8)} {base : Word} {after : Machine}
    (hload : machine.loadFile path content base = .ok after) :
  after.Sound config P
  := by
  cases content with
  | error reason => cases hload
  | ok data => apply h.loadImage hstable hload

theorem resume (h : machine.Sound config P) :
  machine.resume.Sound config P
  := by
  constructor
  case configured => apply h.configured
  case slots => apply Array.size_map.trans h.slots
  case cursor => apply h.cursor
  case cores =>
    intro slot hslot
    obtain ⟨before, hbefore, rfl⟩ := Array.mem_map.mp hslot
    have hcore := h.cores before hbefore
    split
    · apply hcore
    · apply hcore
  case bus => apply h.bus
  case breakpoints => apply h.breakpoints

theorem launch (hstable : Core.Stable config P) (h : machine.Sound config P) {index : Nat}
    {pc sp : Word} {after : Machine} (hlaunch : machine.launch index pc sp = .ok after) :
  after.Sound config P
  := by
  rw [Machine.launch] at hlaunch
  cases hslot : machine.slot index with
  | error e =>
    rw [hslot] at hlaunch
    cases hlaunch
  | ok slot =>
    rw [hslot] at hlaunch
    cases hlaunch
    apply setState
    apply h.modify
    intro slot hcore
    apply hstable.setSp
    apply hstable.setPc _ _ hcore

theorem wake (h : machine.Sound config P) {index : Nat} {after : Machine}
    (hwake : machine.wake index = .ok after) :
  after.Sound config P
  := by
  rw [Machine.wake] at hwake
  cases hslot : machine.slot index with
  | error e =>
    rw [hslot] at hwake
    cases hwake
  | ok slot =>
    rw [hslot] at hwake
    cases hwake
    split
    · apply h.setState
    · apply h

theorem addBreakpoint (h : machine.Sound config P) {address : Word} {after : Machine}
    (hadd : machine.addBreakpoint address = .ok after) :
  after.Sound config P
  := by
  rw [Machine.addBreakpoint] at hadd
  cases hset : machine.breakpoints.add address with
  | error e =>
    rw [hset] at hadd
    cases hadd
  | ok set =>
    rw [hset] at hadd
    cases hadd
    exact { h with breakpoints := h.breakpoints.add hset }

/-- A write of a register by debug index keeps the property if it does so for single cores. -/
theorem setRegister (h : machine.Sound config P) {index register : Nat} {value : Word}
    (hwrite : ∀ core after, Core.write? register value core = some after → P core → P after)
    {after : Machine} (hset : machine.setRegister index register value = .ok after) :
  after.Sound config P
  := by
  rw [Machine.setRegister] at hset
  cases hslot : machine.slot index with
  | error e =>
    rw [hslot] at hset
    cases hset
  | ok slot =>
    rw [hslot] at hset
    cases hcore : slot.core.write? register value with
    | none =>
      simp only [bind, Except.bind, hcore] at hset
      cases hset
    | some core =>
      simp only [bind, Except.bind, hcore] at hset
      cases hset
      apply h.modify
      intro _ _
      apply hwrite slot.core core hcore (h.cores slot (mem_of_slot hslot))

theorem transfer {α : Type} (h : machine.Sound config P) {action : Transfer α}
    (haction : Keeps (Bus.KeepsSound config.sramSize) action) :
  (resultState (machine.transfer action)).Sound config P
  := by
  have hbus := haction machine.bus h.bus
  rw [Machine.transfer]
  rw [onBus_eq]
  cases hresult : action machine.bus with
  | ok a bus =>
    rw [hresult] at hbus
    exact { h with bus := hbus }
  | error fault bus =>
    rw [hresult] at hbus
    exact { h with bus := hbus }

theorem setPin (h : machine.Sound config P) {pin : Nat} {high : Bool} {after : Machine}
    (hset : machine.setPin pin high = .ok after) :
  after.Sound config P
  := by
  rw [Machine.setPin] at hset
  split at hset
  · cases hset
    exact { h with bus := h.bus.drive pin high }
  · cases hset

theorem serialWrite (h : machine.Sound config P) {port : Nat} {data : List UInt8}
    {after : Machine} (hwrite : (machine.serialWrite port data).map (·.2) = .ok after) :
  after.Sound config P
  := by
  rw [Machine.serialWrite] at hwrite
  split at hwrite
  · next hbus =>
    cases hwrite
    exact { h with bus := h.bus.hostWrite? hbus }
  · cases hwrite

theorem serialRead (h : machine.Sound config P) {port count : Nat} {after : Machine}
    (hread : (machine.serialRead port count).map (·.2) = .ok after) :
  after.Sound config P
  := by
  rw [Machine.serialRead] at hread
  split at hread
  · next hbus =>
    cases hread
    exact { h with bus := h.bus.hostRead? hbus }
  · cases hread

/-! ### All operations -/

/-- Every operation keeps machines sound, if it respects the property. -/
theorem perform (hstable : Core.Stable config P) (h : machine.Sound config P)
    {operation : Operation} (hrespects : operation.Respects P) :
  (machine.perform operation).Sound config P
  := by
  cases operation with
  | step => apply h.step hstable
  | stepCore index => apply h.stepped hstable (machine.stepCore_stepped index)
  | runCycles budget => apply h.runCycles hstable
  | runUntilHalt => apply h.runUntilHalt hstable
  | loadBytes address data => apply orElse_keeps h (fun _ => h.loadBytes)
  | loadImage image => apply orElse_keeps h (fun _ => h.loadImage hstable)
  | loadFile path content base => apply orElse_keeps h (fun _ => h.loadFile hstable)
  | halt => exact { h with }
  | resume => apply h.resume
  | reset => apply h.reset hstable
  | launch index pc sp => apply orElse_keeps h (fun _ => h.launch hstable)
  | wake index => apply orElse_keeps h (fun _ => h.wake)
  | addBreakpoint address => apply orElse_keeps h (fun _ => h.addBreakpoint)
  | removeBreakpoint address => exact { h with breakpoints := h.breakpoints.remove address }
  | clearBreakpoints => exact { h with breakpoints := Breakpoints.Sound.empty }
  | getRegister index register => apply h
  | setRegister index register value =>
    apply orElse_keeps h (fun _ => h.setRegister hrespects)
  | readMemory address =>
    apply h.transfer
    apply Bus.keepsSound_of_drained (Bus.read_drained address .word)
  | writeMemory address value =>
    apply h.transfer
    apply Bus.write_sound
  | readBytes address count =>
    apply h.transfer
    apply Bus.keepsSound_of_drained (Bus.readBytes_drained address #[] count)
  | listing address count => apply h
  | setPin pin high => apply orElse_keeps h (fun _ => h.setPin)
  | getPin pin => apply h
  | serialWrite port data => apply orElse_keeps h (fun _ => h.serialWrite)
  | serialRead port count => apply orElse_keeps h (fun _ => h.serialRead)
  | setTracing on =>
    have hconfigured : { machine.config with tracing := on } = { config with tracing := on } := by
      rw [h.configured]
    exact { h with configured := hconfigured }
  | record => exact { h with }
  | takeEvents =>
    simp only [Machine.perform, Machine.takeEvents]
    split
    · apply h
    · exact { h with }

/-- So do any number of operations that respect the property. -/
theorem performAll (hstable : Core.Stable config P) (h : machine.Sound config P)
    {operations : List Operation}
    (hrespects : ∀ operation ∈ operations, operation.Respects P) :
  (machine.performAll operations).Sound config P
  := by
  apply List.foldlRecOn operations Machine.perform h
  intro machine hmachine operation hoperation
  apply hmachine.perform hstable (hrespects operation hoperation)

end Sound

/-! ### Reachable machines -/

/-- Whatever operations are performed on a new machine, it has the cores and the memory of its
configuration, the cursor points to a core, and the cores, the breakpoint set and the devices
are well formed. The status registers do not show the mark of a realigned frame unless a
debugger wrote one of them. -/
theorem create_performAll_sound {config : Config} {machine : Machine}
    (h : create config = .ok machine) (operations : List Operation) :
  (machine.performAll operations).Sound config (Core.Sound config.vectorTable)
    ∧ ((∀ operation ∈ operations, operation.writesStatus = false) →
      ∀ slot ∈ (machine.performAll operations).slots, slot.core.Unmarked)
  := by
  constructor
  · have hstable := Core.Sound.stable config
    apply (Sound.create hstable h).performAll hstable
    intro operation _
    apply Operation.respects_sound
  · intro hquiet
    have hstable := Core.Unmarked.stable config
    apply ((Sound.create hstable h).performAll hstable _).cores
    intro operation hoperation
    apply Operation.respects_unmarked (hquiet operation hoperation)

/-- A configuration with one core and one word of memory. -/
def tiny : Config := { coreCount := 1, sramSize := 4 }

/-- The core branches to itself, runs into a breakpoint there, and is reset. -/
def tinySession : List Operation :=
  [.writeMemory sramBase 0xE7FE, .launch 0 sramBase 0, .runCycles 10, .setRegister 0 0 1,
    .addBreakpoint sramBase, .runUntilHalt, .reset]

theorem tiny_performAll_sound :
  ∃ machine, create tiny = .ok machine
    ∧ (machine.performAll tinySession).Sound tiny (Core.Sound tiny.vectorTable)
    ∧ ∀ slot ∈ (machine.performAll tinySession).slots, slot.core.Unmarked
  := by
  obtain ⟨machine, hcreate⟩ : ∃ machine, create tiny = .ok machine := ⟨_, rfl⟩
  obtain ⟨hsound, hunmarked⟩ := create_performAll_sound hcreate tinySession
  use machine, hcreate, hsound
  apply hunmarked
  decide

end Machine

end ThumbSoc
