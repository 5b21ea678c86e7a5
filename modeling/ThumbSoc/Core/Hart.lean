import ThumbSoc.Word

/-!
# The registers of a RISC-V hart

A hart is held, reset and shown to a debugger, but nothing executes on it. Register `x0` is
zero at all times.
-/

namespace ThumbSoc

/-- The state of one RISC-V hart: thirty-two registers, the program counter and the
machine-mode control registers. -/
structure Hart where
  x : Vector Word 32
  pc : Word
  mstatus : Word
  mie : Word
  mtvec : Word
  mscratch : Word
  mepc : Word
  mcause : Word
  mtval : Word
  mip : Word
  cycle : UInt64
  instret : UInt64
  /-- Whether the next fetch is a compressed instruction. -/
  compressedNext : Bool
  /-- Whether a trap is being handled. -/
  inException : Bool
  deriving DecidableEq, Repr

namespace Hart

/-- The reset state: machine mode, and the stack pointer `x2` at the end of memory. -/
def reset (sp : Word) : Hart where
  x := (Vector.replicate 32 0).set 2 sp
  pc := 0
  mstatus := 0x1800
  mie := 0
  mtvec := 0
  mscratch := 0
  mepc := 0
  mcause := 0
  mtval := 0
  mip := 0
  cycle := 0
  instret := 0
  compressedNext := false
  inException := false

/-- Sets the program counter, with bit 0 cleared. -/
def setPc (hart : Hart) (value : Word) : Hart :=
  { hart with pc := Word.even value }

/-- Sets the stack pointer, which is register `x2`. -/
def setSp (hart : Hart) (value : Word) : Hart :=
  { hart with x := hart.x.set 2 value }

/-- Reads by debug index: 0 to 31 are the registers, 32 the program counter and 33 the
status. -/
def read? (hart : Hart) (index : Nat) : Option Word :=
  if h : index < 32 then some hart.x[index]
  else match index with
    | 32 => some hart.pc
    | 33 => some hart.mstatus
    | _ => none

/-- Writes by debug index, if there is such an index; a write to `x0` is ignored. -/
def write? (hart : Hart) (index : Nat) (value : Word) : Option Hart :=
  if index = 0 then some hart
  else if h : index < 32 then some { hart with x := hart.x.set index value }
  else match index with
    | 32 => some (hart.setPc value)
    | 33 => some { hart with mstatus := value }
    | _ => none

end Hart

end ThumbSoc
