import ThumbSoc.Machine.Event
import ThumbSoc.Listing

/-!
# Log lines

The lines that the console logs: a level, the name of the program, and a text. Executed
instructions are logged as in a listing, and all other events field by field.
-/

namespace ThumbSoc.Console

/-- The importance of a log line. -/
inductive Level where
  | warn
  | info
  | debug
  deriving DecidableEq, Repr

/-- The name of the level, padded to five letters. -/
def Level.name : Level → String
  | warn => "WARN "
  | info => "INFO "
  | debug => "DEBUG"

/-- A log line. A text of several lines goes on below it, indented by four spaces. -/
def logLine (level : Level) (text : String) : String :=
  s!"[{level.name} rp2040_emu] " ++ "\n    ".intercalate (text.splitOn "\n")

/-! ### Values field by field -/

/-- A value of several named fields. -/
def fields (name : String) (entries : List (String × String)) : String :=
  let body := ", ".intercalate (entries.map fun entry => entry.1 ++ ": " ++ entry.2)
  name ++ " \x7b " ++ body ++ " \x7d"

/-- The fields of a width. -/
def widthFields : Width → String
  | .byte => "Byte"
  | .halfword => "Halfword"
  | .word => "Word"

/-- The fields of a fault of decoding. -/
def decodeFaultFields (fault : DecodeFault) : String :=
  fields "DecodeError" [("raw", toString fault.raw), ("length", toString fault.length)]

/-- The fields of a fault of the bus. -/
def busFaultFields : BusFault → String
  | .unmapped a => fields "Unmapped" [("addr", toString a)]
  | .misaligned a w => fields "Misaligned" [("addr", toString a), ("width", widthFields w)]
  | .readOnly a => fields "ReadOnly" [("addr", toString a)]
  | .notExecutable a => fields "NotExecutable" [("addr", toString a)]

/-- The fields of a fault of a core. -/
def coreFaultFields : CoreFault → String
  | .decode pc cause =>
    fields "Decode" [("pc", toString pc), ("source", decodeFaultFields cause)]
  | .bus pc cause => fields "Bus" [("pc", toString pc), ("source", busFaultFields cause)]
  | .noEngine core => fields "UnsupportedArchitecture" [("core", toString core)]

/-- The fields of a run state. -/
def runStateFields : RunState → String
  | .running => "Running"
  | .dormant => "Dormant"
  | .sleeping => "WaitingForInterrupt"
  | .parked fault => s!"Faulted({coreFaultFields fault})"

/-- The text of an event. -/
def eventText : Event → String
  | .instruction core pc i executed =>
    s!"core{core} {Hex.digits 8 pc.toNat}: {i.text pc}" ++ (if executed then "" else "  (skipped)")
  | .breakpoint core pc => fields "BreakpointHit" [("core", toString core), ("pc", toString pc)]
  | .fault core fault =>
    fields "Fault" [("core", toString core), ("fault", coreFaultFields fault)]
  | .runState core state =>
    fields "RunStateChanged" [("core", toString core), ("state", runStateFields state)]

end ThumbSoc.Console
