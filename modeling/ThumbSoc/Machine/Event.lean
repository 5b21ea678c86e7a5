import ThumbSoc.Fault
import ThumbSoc.Instruction

/-!
# Run states, events and outcomes

Whether a core is scheduled, what a machine records while it runs, and what its steps and runs
report.
-/

namespace ThumbSoc

/-- How a core takes part in the schedule. -/
inductive RunState where
  /-- Executes on its turn. -/
  | running
  /-- Waits to be launched. -/
  | dormant
  /-- Sleeps until it is woken. -/
  | sleeping
  /-- Is out of the schedule because it faulted. -/
  | parked (fault : CoreFault)
  deriving DecidableEq, Repr

/-- Whether a core executes on its turn. -/
def RunState.isRunning (state : RunState) : Bool :=
  state = .running

/-- What a machine records when events are recorded. -/
inductive Event where
  /-- An instruction was executed, or skipped because its condition did not hold. -/
  | instruction (core : Nat) (pc : Word) (instruction : Instruction) (executed : Bool)
  | breakpoint (core : Nat) (pc : Word)
  | fault (core : Nat) (fault : CoreFault)
  | runState (core : Nat) (state : RunState)
  deriving DecidableEq, Repr

/-- What one step of a machine did. -/
inductive StepOutcome where
  | executed (core : Nat) (pc : Word) (length : Nat)
  | skipped (core : Nat) (pc : Word) (length : Nat)
  | breakpoint (core : Nat) (pc : Word)
  | idle (core : Nat) (state : RunState)
  | parked (core : Nat) (fault : CoreFault)
  deriving DecidableEq, Repr

/-- Whether the step took a cycle: executed and skipped instructions do. -/
def StepOutcome.takesCycle : StepOutcome → Bool
  | executed .. | skipped .. => true
  | _ => false

/-- Why a run ended. -/
inductive StopReason where
  | halted
  | breakpoint
  | cycleBudget
  deriving DecidableEq, Repr

/-- The name of the reason in reports. -/
def StopReason.name : StopReason → String
  | halted => "Halted"
  | breakpoint => "Breakpoint"
  | cycleBudget => "CycleBudget"

/-- The number of steps and of cycles of a run, and why it ended. -/
structure RunOutcome where
  steps : Nat
  cycles : Nat
  reason : StopReason
  deriving DecidableEq, Repr

/-- The reasons for which a request to a machine fails. -/
inductive MachineError where
  | noCore (core count : Nat)
  | noRegister (index : Nat)
  | noPin (pin : Nat)
  | noSerial (port : Nat)
  /-- A core faulted, and the policy is to halt. -/
  | fault (core : Nat) (fault : CoreFault)
  /-- The bus rejected an access of the host. -/
  | bus (fault : BusFault)
  deriving DecidableEq, Repr

namespace MachineError

/-- The wording of the error. -/
def message : MachineError → String
  | noCore core count => s!"core {core} does not exist (system has {count})"
  | noRegister index => s!"register index {index} is not addressable"
  | noPin pin => s!"gpio pin {pin} does not exist"
  | noSerial port => s!"uart {port} does not exist"
  | fault core f => s!"core {core} faulted: {f.message}"
  | bus f => f.message

/-- The wording of the error and of each cause below it, outermost first. -/
def messages (error : MachineError) : List String :=
  match error with
  | fault _ f => error.message :: f.messages
  | _ => [error.message]

end MachineError

end ThumbSoc
