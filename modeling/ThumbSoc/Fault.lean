import ThumbSoc.Hex
import ThumbSoc.Word

/-!
# Faults

A core stops at an instruction for one of three reasons: the word at the program counter is
no instruction, the bus rejects a transfer, or there is no engine for the architecture of the
core. Each cause is a value, and its wording is a function of it.
-/

namespace ThumbSoc

/-- A word that encodes no instruction of the given length. -/
structure DecodeFault where
  raw : Word
  length : Nat
  deriving DecidableEq, Repr

/-- The wording of the fault. -/
def DecodeFault.message (fault : DecodeFault) : String :=
  s!"unrecognized {fault.length}-byte instruction encoding {Hex.address fault.raw}"

/-- The reasons for which the bus rejects a transfer. -/
inductive BusFault where
  /-- Nothing answers at the address. -/
  | unmapped (address : Word)
  /-- The address is no multiple of the width. -/
  | misaligned (address : Word) (width : Width)
  /-- The region or the register there takes no writes. -/
  | readOnly (address : Word)
  /-- Instructions cannot be fetched from the region. -/
  | notExecutable (address : Word)
  deriving DecidableEq, Repr

namespace BusFault

/-- The rejected address. -/
def address : BusFault → Word
  | unmapped a | misaligned a _ | readOnly a | notExecutable a => a

/-- The wording of the fault. -/
def message : BusFault → String
  | unmapped a => s!"access to unmapped address {Hex.address a}"
  | misaligned a w => s!"misaligned {w.name} access at {Hex.address a}"
  | readOnly a => s!"write to read-only address {Hex.address a}"
  | notExecutable a => s!"instruction fetch from non-executable address {Hex.address a}"

end BusFault

/-- The reasons for which a step of a core fails. -/
inductive CoreFault where
  /-- The word at `pc` is no instruction. -/
  | decode (pc : Word) (cause : DecodeFault)
  /-- The bus rejected a transfer of the instruction at `pc`. -/
  | bus (pc : Word) (cause : BusFault)
  /-- Nothing executes the instruction set of the core. -/
  | noEngine (core : Nat)
  deriving DecidableEq, Repr

namespace CoreFault

/-- The address of the faulting instruction, if there was one. -/
def pc? : CoreFault → Option Word
  | decode pc _ | bus pc _ => some pc
  | noEngine _ => none

/-- The wording of the fault, with that of its cause. -/
def message : CoreFault → String
  | decode pc cause => s!"decode fault at pc {Hex.address pc}: {cause.message}"
  | bus pc cause => s!"bus fault at pc {Hex.address pc}: {cause.message}"
  | noEngine core => s!"core {core} has no execution engine for its architecture"

/-- The wording of the fault and of each cause below it, outermost first. -/
def messages (fault : CoreFault) : List String :=
  match fault with
  | decode _ cause => [fault.message, cause.message]
  | bus _ cause => [fault.message, cause.message]
  | noEngine _ => [fault.message]

end CoreFault

end ThumbSoc
