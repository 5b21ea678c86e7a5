import ThumbSoc.Image
import ThumbSoc.Machine.Step

/-!
# Host access

What a host does to a machine from outside: loading programs, reading and writing registers
and memory, listing, and using the pins and the serial ports. Memory is accessed over the bus
and so with the effects on devices that a program would have.
-/

namespace ThumbSoc.Machine

/-! ### Loading -/

/-- Places bytes in memory, all of them or none. -/
def loadBytes (machine : Machine) (address : Word) (data : List UInt8) : Except LoadError Machine :=
  match machine.bus.load? address data with
  | some bus => .ok { machine with bus }
  | none => .error (.outOfRange address data.length)

/-- Whether a segment lies in memory. -/
def accepts (machine : Machine) (segment : Segment) : Bool :=
  (sramOffset? segment.address segment.data.length machine.bus.sram.size).isSome

/-- Sets the program counter of the first core. -/
def enterAt (machine : Machine) (entry : Word) : Machine :=
  machine.modifySlot 0 fun slot => { slot with core := slot.core.setPc entry }

/-- Places the segments of an image in order, and lets the first core start at its entry. If
some segment does not lie in memory, nothing is placed and the first such segment is
reported. -/
def loadImage (machine : Machine) (image : Image) : Except LoadError Machine :=
  match image.segments.find? fun segment => !machine.accepts segment with
  | some segment => .error (.outOfRange segment.address segment.data.length)
  | none => do
    let machine ← image.segments.foldlM (fun s segment => s.loadBytes segment.address segment.data)
      machine
    return machine.enterAt image.entry

/-- Loads a flat file at `base`. The host hands over the bytes of the file, or the reason for
which it could not read it. -/
def loadFile (machine : Machine) (path : String) (content : Except String (List UInt8))
    (base : Word) : Except LoadError Machine :=
  match content with
  | .error reason => .error (.unreadable path reason)
  | .ok data => machine.loadImage (.flat base data)

/-! ### Registers and memory -/

/-- Reads a register of core `index` by debug index. -/
def getRegister (machine : Machine) (index register : Nat) : Except MachineError Word := do
  let slot ← machine.slot index
  match slot.core.read? register with
  | some value => return value
  | none => throw (.noRegister register)

/-- Writes a register of core `index` by debug index. -/
def setRegister (machine : Machine) (index register : Nat) (value : Word) :
    Except MachineError Machine := do
  let slot ← machine.slot index
  match slot.core.write? register value with
  | some core => return machine.modifySlot index ({ · with core })
  | none => throw (.noRegister register)

/-- Performs a transfer on the bus of the machine. -/
def transfer {α : Type} (machine : Machine) (action : Transfer α) :
    EStateM.Result MachineError Machine α :=
  match machine.onBus action with
  | .ok a machine => .ok a machine
  | .error fault machine => .error (.bus fault) machine

/-- Reads a word. -/
def readMemory (machine : Machine) (address : Word) : EStateM.Result MachineError Machine Word :=
  machine.transfer (Bus.read address .word)

/-- Writes a word. -/
def writeMemory (machine : Machine) (address value : Word) :
    EStateM.Result MachineError Machine Unit :=
  machine.transfer (Bus.write address .word value)

/-- Reads `count` bytes; the first rejected one ends the reading. -/
def readBytes (machine : Machine) (address : Word) (count : Nat) :
    EStateM.Result MachineError Machine (Array UInt8) :=
  machine.transfer (Bus.readBytes address #[] count)

/-- Lists at most `count` instructions from an address on. -/
def listing (machine : Machine) (address : Word) (count : Nat) : Array Row :=
  machine.bus.listing address count

/-! ### Breakpoints -/

/-- Adds a breakpoint. -/
def addBreakpoint (machine : Machine) (address : Word) : Except BreakpointError Machine := do
  return { machine with breakpoints := ← machine.breakpoints.add address }

/-- Removes a breakpoint, and says whether it was there. -/
def removeBreakpoint (machine : Machine) (address : Word) : Bool × Machine :=
  let (present, breakpoints) := machine.breakpoints.remove address
  (present, { machine with breakpoints })

/-- Removes all breakpoints. -/
def clearBreakpoints (machine : Machine) : Machine :=
  { machine with breakpoints := .empty }

/-! ### Pins and serial ports -/

/-- Drives a level onto a pin. -/
def setPin (machine : Machine) (pin : Nat) (high : Bool) : Except MachineError Machine :=
  if pin < Gpio.pinCount then .ok { machine with bus := machine.bus.drive pin high }
  else .error (.noPin pin)

/-- The level of a pin. -/
def getPin (machine : Machine) (pin : Nat) : Except MachineError Bool :=
  if pin < Gpio.pinCount then .ok (machine.bus.gpio.level pin) else .error (.noPin pin)

/-- Queues bytes on a serial port, and counts the accepted ones. -/
def serialWrite (machine : Machine) (port : Nat) (data : List UInt8) :
    Except MachineError (Nat × Machine) :=
  match machine.bus.hostWrite? port data with
  | some (accepted, bus) => .ok (accepted, { machine with bus })
  | none => .error (.noSerial port)

/-- Drains up to `count` bytes from a serial port. -/
def serialRead (machine : Machine) (port count : Nat) : Except MachineError (List UInt8 × Machine) :=
  match machine.bus.hostRead? port count with
  | some (data, bus) => .ok (data, { machine with bus })
  | none => .error (.noSerial port)

/-! ### Time -/

/-- The clock of the chip in cycles a second. -/
def clockRate : Nat := 133000000

/-- The time that the cycles so far stand for, in whole nanoseconds. -/
def nanoseconds (machine : Machine) : Nat :=
  machine.cycles * 1000000000 / clockRate

end ThumbSoc.Machine
