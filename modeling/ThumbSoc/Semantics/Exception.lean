import ThumbSoc.Bus
import ThumbSoc.Effects

/-!
# Exceptions

Entering an exception stores eight words below the stack pointer, in a frame aligned to eight
bytes, and continues at an address taken from the vector table. Leaving it loads them back.
Bit 9 of the stored status word remembers that the frame was moved down to be aligned.

A handler leaves by branching to a value with top nibble `0xF`, which is no code address.
-/

namespace ThumbSoc.Exception

/-- The number of the supervisor call. -/
def supervisorCall : UInt8 := 11

/-- The link value of a handler that was entered from ordinary code. -/
def returnToThread : Word := 0xFFFFFFF9

/-- The link value of a handler that was entered from another handler. -/
def returnToHandler : Word := 0xFFFFFFF1

/-- The number of words in a frame. -/
def frameWords : Nat := 8

/-- Whether a branch target asks to leave an exception. -/
def isReturn (target : Word) : Bool :=
  target &&& 0xF0000000 == 0xF0000000

/-- The address of the frame that is stored below a stack pointer. -/
def frameBelow (sp : Word) : Word :=
  (sp - 32) &&& ~~~4

/-- The stack pointer above a frame with the given stored status word. -/
def stackAbove (frame status : Word) : Word :=
  if status &&& Psr.realigned = 0 then frame + 32 else (frame + 32) ||| 4

/-- The status word that is stored for a core. -/
def storedStatus (core : ThumbCore) : Word :=
  if core.sp &&& 4 = 0 then core.psr else core.psr ||| Psr.realigned

/-- The words of the frame that is stored for a core that will continue at
`returnAddress`. -/
def frame (core : ThumbCore) (returnAddress : Word) : List Word :=
  [core.general[0], core.general[1], core.general[2], core.general[3], core.general[12],
    core.lr, returnAddress, storedStatus core]

/-- Enters the exception `number`; the frame remembers where the effects so far would
continue. Every word of the frame is checked before the vector is read, and the frame is
stored last. -/
def enter (core : ThumbCore) (number : UInt8) (effects : Effects) : Transfer Effects := do
  let start := frameBelow core.sp
  Bus.probeWords start frameWords
  let handler ← Bus.read (core.vtor + 4 * number.toUInt32) .word
  let _ ← Bus.storeWords start (frame core effects.nextPc)
  let link := if core.inException then returnToHandler else returnToThread
  return { ((effects.write 13 start).write 14 link).jump handler with
    transition := some (.enter number) }

/-- Leaves an exception through the frame at `start`. -/
def leave (start : Word) (effects : Effects) : Transfer Effects := do
  let words ← Bus.readWords start frameWords
  let status := words.getD 7 0
  let effects := effects.writeAll ([0, 1, 2, 3, 12, 14].zip words)
  return { (effects.write 13 (stackAbove start status)).jump (words.getD 6 0) with
    status := some (status &&& ~~~Psr.realigned)
    transition := some .leave }

/-- A branch to a value that was computed or loaded: while an exception is handled it may
leave the exception, through the frame at `start`. -/
def branch (core : ThumbCore) (target start : Word) (effects : Effects) : Transfer Effects :=
  if core.inException && isReturn target then leave start effects
  else pure (effects.jump target)

end ThumbSoc.Exception
