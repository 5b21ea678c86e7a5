import ThumbSoc.AddressMap
import ThumbSoc.Core

/-!
# Configurations

What a machine is built from. The default is a chip with two Thumb cores, of which the second
waits to be launched.
-/

namespace ThumbSoc

/-- What happens when a core faults. -/
inductive FaultPolicy where
  /-- The whole machine halts, and the step reports the fault as an error. -/
  | haltAll
  /-- The core is parked, and the others go on. -/
  | parkCore
  deriving DecidableEq, Repr

/-- The parameters of a machine. -/
structure Config where
  coreCount : Nat := 2
  /-- The size of working memory in bytes. -/
  sramSize : Nat := sramWindow
  architecture : Architecture := .arm
  faultPolicy : FaultPolicy := .haltAll
  /-- Where the vector table of every Thumb core lies after a reset. -/
  vectorTable : Word := sramBase
  /-- Whether events are recorded. -/
  tracing : Bool := false
  /-- Whether the cores after the first wait to be launched. -/
  dormantSecondaries : Bool := true
  deriving DecidableEq, Repr

/-- The reasons for which a machine cannot be built. -/
inductive ConfigError where
  | coreCount (requested : Nat)
  | sramSize (requested : Nat)
  deriving DecidableEq, Repr

namespace Config

/-- The most cores that a machine can have. -/
def maxCores : Nat := 4

/-- The end of working memory, where the stack starts after a reset. -/
def sramTop (config : Config) : Word :=
  sramBase + UInt32.ofNat config.sramSize

/-- The first defect of a configuration. -/
def check (config : Config) : Except ConfigError Unit :=
  if config.coreCount = 0 ∨ maxCores < config.coreCount then .error (.coreCount config.coreCount)
  else if config.sramSize = 0 ∨ sramWindow < config.sramSize ∨ config.sramSize % 4 ≠ 0 then
    .error (.sramSize config.sramSize)
  else .ok ()

end Config

/-- The wording of the error. -/
def ConfigError.message : ConfigError → String
  | coreCount requested =>
    s!"core count {requested} outside supported range 1..={Config.maxCores}"
  | sramSize requested =>
    s!"sram size {Hex.number requested} must be a nonzero multiple of 4 up to "
      ++ Hex.number sramWindow

end ThumbSoc
