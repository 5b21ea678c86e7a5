import ThumbSoc.Core.Thumb

/-!
# Special registers

The special registers are named by an eight-bit selector. Selectors below eight are views of
the status register, a few more name a stack pointer or a mask, and all others read as zero
and ignore writes.
-/

namespace ThumbSoc

/-- What a selector of the special-register moves names. -/
inductive Special where
  /-- A view of the status register; `flags` and `number` say which fields it shows. -/
  | status (flags number : Bool)
  | msp
  | psp
  | primask
  | basepri
  /-- The base priority mask, where a write may only raise the priority. -/
  | basepriMax
  | faultmask
  | control
  | unknown
  deriving DecidableEq, Repr

namespace Special

/-- The register that a selector names. -/
def ofSelector (selector : Nat) : Special :=
  if selector < 8 then status (selector / 4 % 2 == 0) (selector % 2 == 1)
  else match selector with
    | 8 => msp
    | 9 => psp
    | 16 => primask
    | 17 => basepri
    | 18 => basepriMax
    | 19 => faultmask
    | 20 => control
    | _ => unknown

/-- The assembler name of a selector. -/
def selectorName : Nat → String
  | 0 => "apsr"
  | 1 => "iapsr"
  | 2 => "eapsr"
  | 3 => "xpsr"
  | 5 => "ipsr"
  | 6 => "epsr"
  | 7 => "iepsr"
  | 8 => "msp"
  | 9 => "psp"
  | 16 => "primask"
  | 17 => "basepri"
  | 18 => "basepri_max"
  | 19 => "faultmask"
  | 20 => "control"
  | _ => "unknown"

end Special

namespace ThumbCore

/-- The value that a special register shows. -/
def readSpecial (core : ThumbCore) (selector : Nat) : Word :=
  match Special.ofSelector selector with
  | .status flags number =>
    (if number then core.psr &&& Psr.exceptionNumber else 0)
      ||| (if flags then core.psr &&& Psr.application else 0)
  | .msp => core.sp
  | .psp => core.psp
  | .primask => core.primask
  | .basepri | .basepriMax => core.basepri
  | .faultmask => core.faultmask
  | .control => core.control
  | .unknown => 0

/-- The base priority mask after a raise-only write of the byte `value`: zero means unmasked,
and a smaller number is a higher priority. -/
def raisedBasepri (current value : Word) : Word :=
  if value ≠ 0 ∧ (current = 0 ∨ value < current) then value else current

/-- Writes a special register, cut to its width. The views that show no flags cannot be
written. -/
def writeSpecial (core : ThumbCore) (selector : Nat) (value : Word) : ThumbCore :=
  match Special.ofSelector selector with
  | .status true _ =>
    { core with psr := (core.psr &&& ~~~Psr.application) ||| (value &&& Psr.application) }
  | .status false _ => core
  | .msp => { core with sp := value &&& ~~~3 }
  | .psp => { core with psp := value &&& ~~~3 }
  | .primask => { core with primask := value &&& 1 }
  | .basepri => { core with basepri := value &&& 0xFF }
  | .basepriMax => { core with basepri := raisedBasepri core.basepri (value &&& 0xFF) }
  | .faultmask => { core with faultmask := value &&& 1 }
  | .control => { core with control := value &&& 3 }
  | .unknown => core

end ThumbCore

end ThumbSoc
