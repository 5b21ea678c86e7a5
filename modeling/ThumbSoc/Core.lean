import ThumbSoc.Core.Hart
import ThumbSoc.Core.Thumb

/-!
# Cores

A core of the system is a Thumb core or a RISC-V hart. The operations here are the ones that
make sense for both: reset, program counter, stack pointer and access by debug index.
-/

namespace ThumbSoc

/-- The instruction set of a core. -/
inductive Architecture where
  | arm
  | riscV
  deriving DecidableEq, Repr

/-- A core of either architecture. -/
inductive Core where
  | thumb (core : ThumbCore)
  | hart (hart : Hart)
  deriving DecidableEq, Repr

namespace Core

/-- A core in its reset state, with the stack at `sp`. -/
def reset (architecture : Architecture) (sp : Word) : Core :=
  match architecture with
  | .arm => thumb (ThumbCore.reset sp)
  | .riscV => hart (Hart.reset sp)

/-- The instruction set of the core. -/
def architecture : Core → Architecture
  | thumb _ => .arm
  | hart _ => .riscV

/-- The program counter. -/
def pc : Core → Word
  | thumb c => c.pc
  | hart h => h.pc

/-- Sets the program counter, with bit 0 cleared. -/
def setPc (value : Word) : Core → Core
  | thumb c => thumb (c.setPc value)
  | hart h => hart (h.setPc value)

/-- Sets the stack pointer. -/
def setSp (value : Word) : Core → Core
  | thumb c => thumb { c with sp := value }
  | hart h => hart (h.setSp value)

/-- Reads a register by debug index. -/
def read? (index : Nat) : Core → Option Word
  | thumb c => (Register.ofIndex? index).map c.read
  | hart h => h.read? index

/-- Writes a register by debug index, if there is such an index. -/
def write? (index : Nat) (value : Word) : Core → Option Core
  | thumb c => (Register.ofIndex? index).map fun r => thumb (c.write r value)
  | hart h => (h.write? index value).map hart

end Core

end ThumbSoc
