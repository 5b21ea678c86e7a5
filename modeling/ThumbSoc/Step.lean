import ThumbSoc.Breakpoints
import ThumbSoc.Bus.Program
import ThumbSoc.Semantics

/-!
# One step of a core

A step of a Thumb core looks for a breakpoint, fetches and decodes, checks the condition,
executes, and applies the effects. A step that faults yields no new core.
-/

namespace ThumbSoc

/-- The outcome of a step of a core. -/
inductive CoreStep where
  /-- The core stands on a breakpoint and did nothing. -/
  | breakpoint
  /-- The condition of the instruction did not hold. -/
  | skipped (instruction : Instruction) (after : ThumbCore)
  /-- The instruction was executed. -/
  | executed (instruction : Instruction) (sleeps : Bool) (after : ThumbCore)
  deriving DecidableEq, Repr

namespace ThumbCore

/-- Executes an instruction on the core that stands on it, if its condition holds. -/
def perform (core : ThumbCore) (i : Instruction) : EStateM CoreFault Bus CoreStep :=
  if i.condition.holds core.flags then do
    let effects ← i.execute core core.pc
    return .executed i effects.sleeps (effects.commit core)
  else return .skipped i (core.setPc (i.next core.pc))

/-- One step. A breakpoint at the address `armed` is ignored. -/
def step (core : ThumbCore) (breakpoints : Breakpoints) (armed : Option Word) :
    EStateM CoreFault Bus CoreStep := fun bus =>
  if armed ≠ some core.pc ∧ breakpoints.contains core.pc then .ok .breakpoint bus
  else
    match bus.instructionAt core.pc with
    | .error fault => .error fault bus
    | .ok i => core.perform i bus

end ThumbCore

end ThumbSoc
