import ThumbSoc.Bus.Device
import ThumbSoc.Word

/-!
# Serial ports

A serial port holds two queues of at most 32 bytes. The host fills the receive queue and the
program reads it from the data register; the program fills the transmit queue by writing the
data register and the host drains it. A byte that the program writes into a full queue is
lost.
-/

namespace ThumbSoc

/-- The state of a serial port. Both queues hold their oldest byte first. -/
structure Serial where
  received : List UInt8
  transmitted : List UInt8
  /-- Integer part of the rate divisor. -/
  divisor : Word
  /-- Fractional part of the rate divisor. -/
  fraction : Word
  lineControl : Word
  control : Word
  deriving DecidableEq, Repr

namespace Serial

/-- The capacity of each queue. -/
def depth : Nat := 32

/-- The power-on state: empty queues, both directions enabled. -/
def initial : Serial := ⟨[], [], 0, 0, 0, 0x300⟩

/-- Queues bytes from the host as far as there is room, and counts the accepted ones. -/
def hostWrite (port : Serial) (data : List UInt8) : Nat × Serial :=
  let accepted := data.take (depth - port.received.length)
  (accepted.length, { port with received := port.received ++ accepted })

/-- Hands the host up to `count` transmitted bytes. -/
def hostRead (port : Serial) (count : Nat) : List UInt8 × Serial :=
  (port.transmitted.take count, { port with transmitted := port.transmitted.drop count })

/-- The state of the queues as the flag register shows it. -/
def status (port : Serial) : Word :=
  (if port.transmitted.isEmpty then 0x80 else 0x08)
    ||| (if port.transmitted.length = depth then 0x20 else 0)
    ||| (if port.received.isEmpty then 0x10 else 0)
    ||| (if port.received.length = depth then 0x40 else 0)

/-- The registers of a port. -/
inductive Register where
  | data
  /-- Receive errors, of which there are none. -/
  | errors
  | status
  | divisor
  | fraction
  | lineControl
  | control
  deriving DecidableEq, Repr

/-- The register at an offset. -/
def register? (offset : Word) : Option Register :=
  match offset with
  | 0x00 => some .data
  | 0x04 => some .errors
  | 0x18 => some .status
  | 0x24 => some .divisor
  | 0x28 => some .fraction
  | 0x2C => some .lineControl
  | 0x30 => some .control
  | _ => none

/-- Takes the oldest received byte; an empty queue reads as zero. -/
def receive (port : Serial) : Word × Serial :=
  match port.received with
  | [] => (0, port)
  | b :: rest => (b.toUInt32, { port with received := rest })

/-- Queues a byte for the host unless the queue is full. -/
def transmit (port : Serial) (b : UInt8) : Serial :=
  if port.transmitted.length < depth then
    { port with transmitted := port.transmitted ++ [b] }
  else port

/-- Reads the register at an offset. Reading the data register takes a byte from the receive
queue. -/
def read (port : Serial) (offset : Word) : Except DeviceError (Word × Serial) :=
  match register? offset with
  | none => .error .noRegister
  | some .data => .ok port.receive
  | some .errors => .ok (0, port)
  | some .status => .ok (port.status, port)
  | some .divisor => .ok (port.divisor, port)
  | some .fraction => .ok (port.fraction, port)
  | some .lineControl => .ok (port.lineControl, port)
  | some .control => .ok (port.control, port)

/-- Writes the register at an offset, cut to its width. -/
def write (port : Serial) (offset value : Word) : Except DeviceError Serial :=
  match register? offset with
  | none => .error .noRegister
  | some .data => .ok (port.transmit value.toUInt8)
  | some .errors => .ok port
  | some .status => .error .readOnly
  | some .divisor => .ok { port with divisor := value &&& 0xFFFF }
  | some .fraction => .ok { port with fraction := value &&& 0x3F }
  | some .lineControl => .ok { port with lineControl := value &&& 0xFF }
  | some .control => .ok { port with control := value &&& 0xFFFF }

/-- Whether a register answers at an offset. -/
def hasRegister (offset : Word) : Bool :=
  (register? offset).isSome

/-- The name of the device. -/
def name : String := "uart"

end Serial

end ThumbSoc
