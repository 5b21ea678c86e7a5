import ThumbSoc.Core.Special
import ThumbSoc.Word.Sum

/-!
# Effects

Executing an instruction does not change the core. It yields the effects that the instruction
has on the core, and these are applied in one go once every transfer of the instruction has
succeeded. They are applied in a fixed order: registers, status register, flags, special
register, exception bookkeeping, program counter.
-/

namespace ThumbSoc

/-- What an instruction does to the condition flags. -/
inductive FlagsUpdate where
  | keep
  /-- The outcome of a logical operation, which leaves the overflow flag alone. -/
  | logical (n z c : Bool)
  /-- The outcome of an addition or subtraction. -/
  | arithmetic (flags : Flags)
  deriving DecidableEq, Repr

namespace FlagsUpdate

/-- The flags of a logical result with the given shifter carry. -/
def ofLogical (result : Word) (carry : Bool) : FlagsUpdate :=
  logical (Word.negative result) (result == 0) carry

/-- The flags of a sum. -/
def ofSum (sum : Sum) : FlagsUpdate :=
  arithmetic ⟨Word.negative sum.value, sum.value == 0, sum.carry, sum.overflow⟩

/-- Applies the update to a core. -/
def apply (core : ThumbCore) : FlagsUpdate → ThumbCore
  | keep => core
  | logical n z c => ((core.setFlag Psr.n n).setFlag Psr.z z).setFlag Psr.c c
  | arithmetic flags => core.setFlags flags

end FlagsUpdate

/-- How an instruction moves between the levels of exception handling. -/
inductive Transition where
  /-- Starts to handle the exception of the given number. -/
  | enter (number : UInt8)
  /-- Ends the handling of the current exception. -/
  | leave
  deriving DecidableEq, Repr

namespace Transition

/-- Applies the transition to a core. The count of levels stops at 255 and at zero. -/
def apply (core : ThumbCore) : Transition → ThumbCore
  | enter number =>
    let core := core.setExceptionNumber number
    { core with
      inException := true
      exceptionLevel :=
        if core.exceptionLevel = 255 then 255 else core.exceptionLevel + 1 }
  | leave =>
    let level := if core.exceptionLevel = 0 then 0 else core.exceptionLevel - 1
    { core with exceptionLevel := level, inException := level ≠ 0 }

end Transition

/-- The effects of one instruction on its core. -/
structure Effects where
  /-- New values of `r0` to `r12`, the stack pointer and the link register, by number. -/
  writes : Vector (Option Word) 15
  /-- Where execution continues. -/
  nextPc : Word
  flags : FlagsUpdate
  /-- A new value of the whole status register. -/
  status : Option Word
  /-- A special register, by selector, and the value written to it. -/
  special : Option (Nat × Word)
  transition : Option Transition
  /-- Whether the core sleeps afterwards. -/
  sleeps : Bool
  deriving DecidableEq, Repr

namespace Effects

/-- No effect other than to continue at `nextPc`. -/
def goto (nextPc : Word) : Effects where
  writes := Vector.replicate 15 none
  nextPc := nextPc
  flags := .keep
  status := none
  special := none
  transition := none
  sleeps := false

/-- Adds a jump; bit 0 of the target is dropped. -/
def jump (effects : Effects) (target : Word) : Effects :=
  { effects with nextPc := Word.even target }

/-- Adds a register write. A write beyond the link register is a jump. -/
def write (effects : Effects) (number : Nat) (value : Word) : Effects :=
  if h : number < 15 then { effects with writes := effects.writes.set number (some value) }
  else effects.jump value

/-- Adds a write to a register that may be missing. -/
def write? (effects : Effects) (number : Option Nat) (value : Word) : Effects :=
  match number with
  | some n => effects.write n value
  | none => effects

/-- Adds writes of consecutive values to registers given by number. -/
def writeAll (effects : Effects) (writes : List (Nat × Word)) : Effects :=
  writes.foldl (fun e w => e.write w.1 w.2) effects

/-- The core after the register writes. -/
def applyWrites (effects : Effects) (core : ThumbCore) : ThumbCore :=
  (List.finRange 15).foldl (fun core i =>
    match effects.writes.get i with
    | some value => core.write (Register.ofNumber i) value
    | none => core) core

/-- The core after all effects. -/
def commit (effects : Effects) (core : ThumbCore) : ThumbCore :=
  let core := effects.applyWrites core
  let core := match effects.status with
    | some psr => { core with psr }
    | none => core
  let core := effects.flags.apply core
  let core := match effects.special with
    | some (selector, value) => core.writeSpecial selector value
    | none => core
  let core := match effects.transition with
    | some transition => transition.apply core
    | none => core
  core.setPc effects.nextPc

end Effects

end ThumbSoc
