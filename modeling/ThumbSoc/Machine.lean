import ThumbSoc.Step
import ThumbSoc.Machine.Config
import ThumbSoc.Machine.Event

/-!
# Machines

A machine is a row of cores on one bus, with breakpoints, a cycle counter and a cursor that
says whose turn it is. Cores are stepped one at a time, and a step is complete before the
next one begins. The host can halt and resume the machine, reset it, and launch or wake single
cores.

Events are recorded when the configuration asks for it and a recorder is installed.
-/

namespace ThumbSoc

/-- A core with its place in the schedule. -/
structure Slot where
  core : Core
  state : RunState
  /-- The breakpoint address that the next step of this core ignores. -/
  armed : Option Word
  deriving DecidableEq, Repr

/-- The state of a machine. -/
structure Machine where
  config : Config
  slots : Array Slot
  bus : Bus
  breakpoints : Breakpoints
  /-- Cycles since the machine was built. The counter of a machine is 64 bits wide. This number has
  no bound, and it is what that counter shows as long as fewer than `2 ^ 64` cycles were counted. -/
  cycles : Nat
  halted : Bool
  /-- Whether a breakpoint was hit since the last resume. -/
  breakpointHit : Bool
  /-- The core whose turn it is. -/
  cursor : Nat
  /-- The recorded events, oldest first, if a recorder is installed. -/
  recorder : Option (Array Event)
  deriving DecidableEq

namespace Machine

/-! ### Building and resetting -/

/-- A core as it is after a reset. -/
def freshCore (config : Config) : Core :=
  match Core.reset config.architecture config.sramTop with
  | .thumb core => .thumb { core with vtor := config.vectorTable }
  | .hart hart => .hart hart

/-- The run state of core `index` after a reset. -/
def initialState (config : Config) (index : Nat) : RunState :=
  if 0 < index ∧ config.dormantSecondaries then .dormant else .running

/-- The machine of a configuration, without a recorder. -/
def create (config : Config) : Except ConfigError Machine := do
  config.check
  return {
    config
    slots := (Array.range config.coreCount).map fun index =>
      ⟨freshCore config, initialState config index, none⟩
    bus := .initial config.sramSize
    breakpoints := .empty
    cycles := 0
    halted := false
    breakpointHit := false
    cursor := 0
    recorder := none }

/-- Installs a recorder with no events. -/
def record (machine : Machine) : Machine :=
  { machine with recorder := some #[] }

/-- Records an event, if events are recorded. -/
def emit (machine : Machine) (event : Event) : Machine :=
  if machine.config.tracing then
    { machine with recorder := machine.recorder.map (·.push event) }
  else machine

/-- Takes the recorded events out of the recorder. -/
def takeEvents (machine : Machine) : Array Event × Machine :=
  match machine.recorder with
  | none => (#[], machine)
  | some events => (events, { machine with recorder := some #[] })

/-- Switches the recording of events. -/
def setTracing (machine : Machine) (on : Bool) : Machine :=
  { machine with config := { machine.config with tracing := on } }

/-- Changes the slot of core `index`, if there is such a core. -/
def modifySlot (machine : Machine) (index : Nat) (change : Slot → Slot) : Machine :=
  { machine with slots := machine.slots.modify index change }

/-- Puts core `index` into a run state. A change is recorded. -/
def setState (machine : Machine) (index : Nat) (state : RunState) : Machine :=
  match machine.slots[index]? with
  | none => machine
  | some slot =>
    if slot.state = state then machine
    else (machine.modifySlot index ({ · with state })).emit (.runState index state)

/-- Puts core `index` into its reset state. -/
def resetCore (machine : Machine) (index : Nat) : Machine :=
  let config := machine.config
  (machine.modifySlot index ({ · with core := freshCore config, armed := none })).setState index
    (initialState config index)

/-- Resets the cores, memory and the devices. The cycle counter and the breakpoints stay. -/
def reset (machine : Machine) : Machine :=
  let machine := (List.range machine.slots.size).foldl resetCore machine
  { machine with
    bus := machine.bus.reset
    halted := false
    breakpointHit := false
    cursor := 0 }

/-! ### Control -/

/-- Stops runs before their next step. -/
def halt (machine : Machine) : Machine :=
  { machine with halted := true }

/-- Lets runs go on. Every core that stands on a breakpoint ignores it once. -/
def resume (machine : Machine) : Machine :=
  let arm (slot : Slot) : Slot :=
    if machine.breakpoints.contains slot.core.pc then { slot with armed := some slot.core.pc }
    else slot
  { machine with slots := machine.slots.map arm, halted := false, breakpointHit := false }

/-- The slot of core `index`. -/
def slot (machine : Machine) (index : Nat) : Except MachineError Slot :=
  match machine.slots[index]? with
  | some slot => .ok slot
  | none => .error (.noCore index machine.slots.size)

/-- Starts core `index` at `pc` with the stack at `sp`. -/
def launch (machine : Machine) (index : Nat) (pc sp : Word) : Except MachineError Machine := do
  let _ ← machine.slot index
  let start (slot : Slot) : Slot := { slot with core := (slot.core.setPc pc).setSp sp }
  return (machine.modifySlot index start).setState index .running

/-- Wakes core `index` if it sleeps. -/
def wake (machine : Machine) (index : Nat) : Except MachineError Machine := do
  let slot ← machine.slot index
  return if slot.state = .sleeping then machine.setState index .running else machine

/-- Whether some core executes on its turn. -/
def anyRunning (machine : Machine) : Bool :=
  machine.slots.any (·.state.isRunning)

/-- Halts a machine in which no core executes any more. -/
def haltIfIdle (machine : Machine) : Machine :=
  if machine.anyRunning then machine else { machine with halted := true }

end Machine

end ThumbSoc
