import ThumbSoc.Condition
import ThumbSoc.Register
import ThumbSoc.Word

/-!
# The registers of a Thumb core

The register file of one Cortex-M0+ core: thirteen general registers, stack pointer, link
register, program counter, the packed program status register, the special registers and the
bookkeeping of exceptions. The program counter is always held with bit 0 cleared by the
operations here.
-/

namespace ThumbSoc

/-! ### Fields of the program status register -/

namespace Psr

/-- The negative flag. -/
def n : Word := 0x80000000
/-- The zero flag. -/
def z : Word := 0x40000000
/-- The carry flag. -/
def c : Word := 0x20000000
/-- The overflow flag. -/
def v : Word := 0x10000000
/-- The saturation flag. -/
def q : Word := 0x08000000
/-- The Thumb state bit. -/
def t : Word := 0x01000000
/-- The number of the exception being handled. -/
def exceptionNumber : Word := 0xFF
/-- The flags that a program can write: `n`, `z`, `c`, `v` and `q`. -/
def application : Word := 0xF8000000
/-- The top byte, which a debugger's write leaves alone. -/
def preserved : Word := 0xFF000000
/-- In a stacked status word: the exception frame was moved down to a multiple of eight. -/
def realigned : Word := 0x200

end Psr

/-! ### The register file -/

/-- The state of one Thumb core. -/
structure ThumbCore where
  general : Vector Word 13
  sp : Word
  lr : Word
  pc : Word
  psr : Word
  /-- Exception priority mask, one bit. -/
  primask : Word
  /-- Base priority mask, one byte; zero masks nothing. -/
  basepri : Word
  /-- Fault mask, one bit. -/
  faultmask : Word
  /-- Privilege and stack selection, two bits. -/
  control : Word
  /-- Limit of the main stack. -/
  msplim : Word
  /-- Limit of the process stack. -/
  psplim : Word
  /-- Floating-point status. -/
  fpscr : Word
  /-- The banked process stack pointer. -/
  psp : Word
  /-- Address of the vector table. -/
  vtor : Word
  thumbMode : Bool
  /-- Whether an exception is being handled. -/
  inException : Bool
  /-- How many exceptions are being handled, up to 255. -/
  exceptionLevel : UInt8
  deriving DecidableEq, Repr

namespace ThumbCore

/-- The reset state: all zero but for the stack pointer, which is the end of memory, and the
Thumb state bit. -/
def reset (sp : Word) : ThumbCore where
  general := Vector.replicate 13 0
  sp := sp
  lr := 0
  pc := 0
  psr := Psr.t
  primask := 0
  basepri := 0
  faultmask := 0
  control := 0
  msplim := 0
  psplim := 0
  fpscr := 0
  psp := 0
  vtor := 0
  thumbMode := true
  inException := false
  exceptionLevel := 0

/-- The value held in a register. -/
def read (core : ThumbCore) : Register → Word
  | .general n => core.general.get n
  | .sp => core.sp
  | .lr => core.lr
  | .pc => core.pc
  | .psr => core.psr

/-- Sets the program counter, with bit 0 cleared. -/
def setPc (core : ThumbCore) (value : Word) : ThumbCore :=
  { core with pc := Word.even value }

/-- Writes a register. The program counter loses bit 0, and the status register keeps its top
byte. -/
def write (core : ThumbCore) (register : Register) (value : Word) : ThumbCore :=
  match register with
  | .general n => { core with general := core.general.set n value n.isLt }
  | .sp => { core with sp := value }
  | .lr => { core with lr := value }
  | .pc => core.setPc value
  | .psr =>
    { core with psr := (core.psr &&& Psr.preserved) ||| (value &&& ~~~Psr.preserved) }

/-! ### The status register -/

/-- Whether all bits of `mask` are set in the status register. -/
def flag (core : ThumbCore) (mask : Word) : Bool :=
  core.psr &&& mask == mask

/-- Sets or clears the bits of `mask` in the status register. -/
def setFlag (core : ThumbCore) (mask : Word) (on : Bool) : ThumbCore :=
  { core with psr := if on then core.psr ||| mask else core.psr &&& ~~~mask }

/-- The condition flags. -/
def flags (core : ThumbCore) : Flags :=
  ⟨core.flag Psr.n, core.flag Psr.z, core.flag Psr.c, core.flag Psr.v⟩

/-- Replaces the condition flags. -/
def setFlags (core : ThumbCore) (f : Flags) : ThumbCore :=
  (((core.setFlag Psr.n f.n).setFlag Psr.z f.z).setFlag Psr.c f.c).setFlag Psr.v f.v

/-- The number of the exception being handled, zero outside exceptions. -/
def exceptionNumber (core : ThumbCore) : Word :=
  core.psr &&& Psr.exceptionNumber

/-- Sets the exception number, one byte. -/
def setExceptionNumber (core : ThumbCore) (number : UInt8) : ThumbCore :=
  { core with psr := (core.psr &&& ~~~Psr.exceptionNumber) ||| number.toUInt32 }

end ThumbCore

end ThumbSoc
