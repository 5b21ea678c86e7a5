import ThumbSoc.Machine

/-!
# One step of a machine

A step visits one core. A core that is not running idles; any other performs one step of its
own, and a fault is treated by the policy of the configuration. Executed and skipped
instructions take one cycle each, and nothing else takes any.
-/

namespace ThumbSoc.Machine

/-- Performs a computation on the bus of the machine. -/
@[inline]
def onBus {ε α : Type} (machine : Machine) (action : EStateM ε Bus α) :
    EStateM.Result ε Machine α :=
  match machine with
  | ⟨config, slots, bus, breakpoints, cycles, halted, breakpointHit, cursor, recorder⟩ =>
    match action bus with
    | .ok a bus =>
      .ok a ⟨config, slots, bus, breakpoints, cycles, halted, breakpointHit, cursor, recorder⟩
    | .error e bus =>
      .error e ⟨config, slots, bus, breakpoints, cycles, halted, breakpointHit, cursor, recorder⟩

/-- What an action on the bus does to the machine: the bus changes, and nothing else. -/
theorem onBus_eq {ε α : Type} (machine : Machine) (action : EStateM ε Bus α) :
  machine.onBus action =
    match action machine.bus with
    | .ok a bus => .ok a { machine with bus }
    | .error e bus => .error e { machine with bus }
  := by
  cases machine
  rfl

/-- Counts a cycle for an instruction and records it. -/
def retire (machine : Machine) (index : Nat) (pc : Word) (i : Instruction) (executed : Bool) :
    Machine :=
  ({ machine with cycles := machine.cycles + 1 }).emit (.instruction index pc i executed)

/-- Replaces the core in a slot. -/
def setCore (machine : Machine) (index : Nat) (core : ThumbCore) : Machine :=
  machine.modifySlot index ({ · with core := .thumb core })

/-- Treats a fault of core `index`. -/
def treatFault (machine : Machine) (index : Nat) (fault : CoreFault) :
    EStateM.Result MachineError Machine StepOutcome :=
  let machine := machine.emit (.fault index fault)
  match machine.config.faultPolicy with
  | .haltAll => .error (.fault index fault) machine.halt
  | .parkCore => .ok (.parked index fault) (machine.setState index (.parked fault)).haltIfIdle

/-- Puts the outcome of a step of core `index`, which stood at `pc`, into the machine. -/
def settle (machine : Machine) (index : Nat) (pc : Word) (result : CoreStep) :
    StepOutcome × Machine :=
  match result with
  | .breakpoint =>
    (.breakpoint index pc,
      (({ machine with breakpointHit := true }).emit (.breakpoint index pc)).haltIfIdle)
  | .skipped i core =>
    (.skipped index pc i.length, ((machine.setCore index core).retire index pc i false).haltIfIdle)
  | .executed i sleeps core =>
    let machine := (machine.setCore index core).retire index pc i true
    let machine := if sleeps then machine.setState index .sleeping else machine
    (.executed index pc i.length, machine.haltIfIdle)

/-- Prepares the step of a running core: the bus learns who accesses it, and an ignored
breakpoint is ignored no longer. -/
def prepare (machine : Machine) (index : Nat) : Machine :=
  let machine := machine.modifySlot index ({ · with armed := none })
  { machine with bus := machine.bus.select index }

/-- Steps core `index`, whoever's turn it is. -/
def stepCore (machine : Machine) (index : Nat) : EStateM.Result MachineError Machine StepOutcome :=
  match machine.slots[index]? with
  | none => .error (.noCore index machine.slots.size) machine
  | some slot =>
    if slot.state.isRunning then
      let machine := machine.prepare index
      match slot.core with
      | .hart _ => machine.treatFault index (.noEngine index)
      | .thumb core =>
        match machine.onBus (core.step machine.breakpoints slot.armed) with
        | .error fault machine => machine.treatFault index fault
        | .ok result machine =>
          let (outcome, machine) := machine.settle index core.pc result
          .ok outcome machine
    else .ok (.idle index slot.state) machine.haltIfIdle

/-- Passes the turn to the next core, after the last one to the first. -/
def advance (machine : Machine) : Machine :=
  { machine with cursor := (machine.cursor + 1) % machine.slots.size }

/-- Steps the core whose turn it is. Whatever comes of it, the turn passes on. -/
def step (machine : Machine) : EStateM.Result MachineError Machine StepOutcome :=
  let index := machine.cursor
  machine.advance.stepCore index

end ThumbSoc.Machine
