import ThumbSoc.Console.Log
import ThumbSoc.Console.Options
import ThumbSoc.Machine.Host
import ThumbSoc.Machine.Run

/-!
# The console

The console loads a program, runs it on a machine, echoes what the program sends to the first
serial port, and reports how the run ended. A run is cut into slices no longer than the
transmit queue is deep, and the queue is drained after each of them: an instruction takes a
cycle and sends at most one byte, so the queue cannot overflow.

The console is written against a small interface to the outside world, so that it runs in any
monad that provides one.
-/

namespace ThumbSoc.Console

/-- What the console needs from the outside world. -/
structure World (m : Type → Type) where
  /-- The content of a file, or the reason for which it cannot be read. -/
  contentOf : String → m (Except String (List UInt8))
  /-- Writes to standard output. -/
  output : List UInt8 → m Unit
  /-- Writes a line to standard error. -/
  diagnose : String → m Unit

/-! ### The sliced run -/

/-- The number of cycles between two drains of the serial port. -/
def sliceCycles : Nat := Serial.depth

/-- Takes all bytes that the program has sent to the first serial port. -/
def drain (machine : Machine) : List UInt8 × Machine :=
  match machine.serialRead 0 Serial.depth with
  | .ok drained => drained
  | .error _ => ([], machine)

/-- Runs one slice and drains the serial port, whether the run failed or not. -/
def runSlice (machine : Machine) (cycles : Nat) :
    Except MachineError StopReason × List UInt8 × Machine :=
  match machine.runCycles cycles with
  | .ok outcome machine => (.ok outcome.reason, drain machine)
  | .error e machine => (.error e, drain machine)

section Run

variable {m : Type → Type} [Monad m] (world : World m)

/-- Hands out what a slice produced: log lines of the recorded events, and serial output. -/
def publish (data : List UInt8) (machine : Machine) : m Machine := do
  let (events, machine) := machine.takeEvents
  for event in events do
    world.diagnose (logLine .debug (eventText event))
  unless data.isEmpty do
    world.output data
  return machine

/-- Runs for at most `budget` cycles, slice by slice. A slice that ends because its budget is
used up is followed by the next one. -/
def runFor (machine : Machine) (budget : Nat) : m (Except MachineError StopReason × Machine) := do
  let (result, data, machine) := runSlice machine (min budget sliceCycles)
  let machine ← publish world data machine
  if _h : sliceCycles < budget then
    match result with
    | .ok .cycleBudget => runFor machine (budget - sliceCycles)
    | _ => return (result, machine)
  else return (result, machine)
termination_by budget
decreasing_by
  have : 0 < sliceCycles := by decide
  omega

/-! ### The report -/

/-- A register with its value, in columns. -/
def registerCell (machine : Machine) (register : Register) : String :=
  let value := match machine.getRegister 0 register.index with
    | .ok value => value
    | .error _ => 0
  let name := register.name
  "".pushn ' ' (4 - name.length) ++ name ++ "=" ++ Hex.digits 8 value.toNat

/-- Cuts a list into pieces of four. -/
def inFours {α : Type} : List α → List (List α)
  | a :: b :: c :: d :: rest => [a, b, c, d] :: inFours rest
  | [] => []
  | rest => [rest]

/-- The report on a run: cycles, the reason of its end, and the registers of the first core,
four to a line. A run that ended with a fault has no other reason. -/
def report (machine : Machine) (reason : Option StopReason) : List String :=
  let reasonName := match reason with
    | some reason => reason.name
    | none => "fault"
  let rows := (inFours Register.all).map fun row =>
    "core0 " ++ " ".intercalate (row.map (registerCell machine))
  ["", s!"cycles: {machine.cycles}", s!"stop reason: {reasonName}"] ++ rows

/-- Lines as they go to standard output. -/
def linesToBytes (lines : List String) : List UInt8 :=
  (lines.foldr (fun line rest => line ++ "\n" ++ rest) "").toUTF8.toList

/-- The line that reports an error with its causes. -/
def errorLine (messages : List String) : String :=
  "error: " ++ ": ".intercalate messages

/-! ### A whole session -/

/-- Builds the machine that the options ask for and loads the program. Failures come with
their causes. -/
def boot (options : Options) (content : Except String (List UInt8)) :
    Except (List String) Machine :=
  let config : Config := { coreCount := options.cores, tracing := options.verbose }
  match Machine.create config with
  | .error e => .error ["failed to create system", e.message]
  | .ok machine =>
    let machine := if options.verbose then machine.record else machine
    match machine.loadFile options.file content sramBase with
    | .error e => .error [s!"failed to load {options.file}", e.message]
    | .ok machine => .ok machine

/-- Runs a loaded machine and reports. Returns the exit code. -/
def execute (options : Options) (machine : Machine) : m UInt32 := do
  world.diagnose (logLine .info
    s!"loaded {options.file} ({machine.slots.size} cores, uart0 at {Hex.address serialBase[0]})")
  let (result, machine) ← runFor world machine options.cycles
  match result with
  | .ok reason =>
    world.output (linesToBytes (report machine (some reason)))
    return 0
  | .error e =>
    if let .fault _ _ := e then
      world.output (linesToBytes (report machine none))
    world.diagnose (errorLine ("emulation stopped" :: e.messages))
    return 1

/-- A session with the given options. Returns the exit code. -/
def session (options : Options) : m UInt32 := do
  if let some port := options.debugPort then
    world.diagnose (logLine .warn s!"gdb server is not implemented; ignoring port {port}")
  match boot options (← world.contentOf options.file) with
  | .ok machine => execute world options machine
  | .error messages =>
    world.diagnose (errorLine messages)
    return 1

/-- The text of the request for help. -/
def helpText : List String :=
  ["Run a program image on the instruction-level emulator.",
   "",
   "Usage: rp2040-emu [OPTIONS] --file <FILE>",
   "",
   "Options:",
   "  -f, --file <FILE>   Flat binary loaded at the start of SRAM",
   "  -c, --cycles <N>    Cycle budget for the run [default: 1000000]",
   "  -v, --verbose       Log every executed instruction at debug level",
   "  -g, --gdb <PORT>    Accepted and ignored",
   "      --cores <N>     Number of emulated cores [default: 2]",
   "  -h, --help          Print help",
   "  -V, --version       Print version"]

/-- The whole program on its arguments. Returns the exit code. -/
def run (arguments : List String) : m UInt32 := do
  match Request.ofArguments arguments with
  | .ok (.run options) => session world options
  | .ok .help =>
    world.output (linesToBytes helpText)
    return 0
  | .ok .version =>
    world.output (linesToBytes ["rp2040-emu 0.1.0"])
    return 0
  | .error e =>
    world.diagnose (errorLine [e.message])
    return 1

end Run

end ThumbSoc.Console
