import ThumbSoc.Machine.Progress

/-!
# Runs

A run steps the machine until a goal for the cycle counter is reached, the machine halts, or a
breakpoint is hit; a step that fails ends it with an error. It reports the steps and cycles
that it took, and why it ended.
-/

namespace ThumbSoc.Machine

/-- The last value of the cycle counter, which is 64 bits wide. It cannot count a cycle more, so no
run goes on from there. -/
def cycleLimit : Nat := UInt64.size - 1

/-- Steps towards `goal`, and counts the steps. -/
def runTo (goal : Nat) (machine : Machine) (steps : Nat) :
    EStateM.Result MachineError Machine Nat :=
  if _hstop : machine.stopped goal then .ok steps machine
  else
    match h : machine.step with
    | .error e after => .error e after
    | .ok _ after => runTo goal after (steps + 1)
termination_by machine.progress goal
decreasing_by exact step_falls (by simpa using _hstop) h

/-- Why a run ended that did not reach its goal. -/
def stopReason (machine : Machine) : StopReason :=
  if machine.breakpointHit then .breakpoint else .halted

/-- Runs for at most `budget` cycles. -/
def runCycles (machine : Machine) (budget : Nat) : EStateM.Result MachineError Machine RunOutcome :=
  let start := machine.cycles
  let goal := min (start + budget) cycleLimit
  match runTo goal machine 0 with
  | .error e after => .error e after
  | .ok steps after =>
    let reason := if goal ≤ after.cycles then .cycleBudget else after.stopReason
    .ok ⟨steps, after.cycles - start, reason⟩ after

/-- Runs until the machine halts or a breakpoint is hit. There is no budget, and a program that
reaches neither end keeps the machine running for ever. So that every run has a result, such a run
ends here once the cycle counter shows its last value, with the reason `halted` although nothing
has halted the machine. Runs that end before are not affected. -/
def runUntilHalt (machine : Machine) : EStateM.Result MachineError Machine RunOutcome :=
  let start := machine.cycles
  match runTo cycleLimit machine 0 with
  | .error e after => .error e after
  | .ok steps after => .ok ⟨steps, after.cycles - start, after.stopReason⟩ after

end ThumbSoc.Machine
