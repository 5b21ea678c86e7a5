import ThumbSoc.Machine.Host
import ThumbSoc.Machine.Run
import ThumbSoc.Proofs.Transfer

/-!
# Operations

Everything that a host can do to a machine, as data. Performing an operation takes a machine
to the machine that it leaves, also when the operation fails: one that fails on the bus or
during a run has its effects up to there, and any other has none.
-/

namespace ThumbSoc

/-- The operations of a machine. -/
inductive Operation where
  | step
  | stepCore (index : Nat)
  | runCycles (budget : Nat)
  | runUntilHalt
  | loadBytes (address : Word) (data : List UInt8)
  | loadImage (image : Image)
  | loadFile (path : String) (content : Except String (List UInt8)) (base : Word)
  | halt
  | resume
  | reset
  | launch (index : Nat) (pc sp : Word)
  | wake (index : Nat)
  | addBreakpoint (address : Word)
  | removeBreakpoint (address : Word)
  | clearBreakpoints
  | getRegister (index register : Nat)
  | setRegister (index register : Nat) (value : Word)
  | readMemory (address : Word)
  | writeMemory (address value : Word)
  | readBytes (address : Word) (count : Nat)
  | listing (address : Word) (count : Nat)
  | setPin (pin : Nat) (high : Bool)
  | getPin (pin : Nat)
  | serialWrite (port : Nat) (data : List UInt8)
  | serialRead (port count : Nat)
  | setTracing (on : Bool)
  | record
  | takeEvents

namespace Machine

/-- The machine after an operation that has no effect when it fails. -/
def orElse {ε : Type} (machine : Machine) : Except ε Machine → Machine
  | .ok after => after
  | .error _ => machine

/-- The machine after an operation. Those that only report leave it as it is. -/
def perform (machine : Machine) : Operation → Machine
  | .step => resultState machine.step
  | .stepCore index => resultState (machine.stepCore index)
  | .runCycles budget => resultState (machine.runCycles budget)
  | .runUntilHalt => resultState machine.runUntilHalt
  | .loadBytes address data => machine.orElse (machine.loadBytes address data)
  | .loadImage image => machine.orElse (machine.loadImage image)
  | .loadFile path content base => machine.orElse (machine.loadFile path content base)
  | .halt => machine.halt
  | .resume => machine.resume
  | .reset => machine.reset
  | .launch index pc sp => machine.orElse (machine.launch index pc sp)
  | .wake index => machine.orElse (machine.wake index)
  | .addBreakpoint address => machine.orElse (machine.addBreakpoint address)
  | .removeBreakpoint address => (machine.removeBreakpoint address).2
  | .clearBreakpoints => machine.clearBreakpoints
  | .getRegister .. => machine
  | .setRegister index register value => machine.orElse (machine.setRegister index register value)
  | .readMemory address => resultState (machine.readMemory address)
  | .writeMemory address value => resultState (machine.writeMemory address value)
  | .readBytes address count => resultState (machine.readBytes address count)
  | .listing .. => machine
  | .setPin pin high => machine.orElse (machine.setPin pin high)
  | .getPin .. => machine
  | .serialWrite port data => machine.orElse ((machine.serialWrite port data).map (·.2))
  | .serialRead port count => machine.orElse ((machine.serialRead port count).map (·.2))
  | .setTracing on => machine.setTracing on
  | .record => machine.record
  | .takeEvents => machine.takeEvents.2

/-- The machine after operations, one after the other. -/
def performAll (machine : Machine) (operations : List Operation) : Machine :=
  operations.foldl perform machine

/-- What an operation that fails without an effect keeps is what its success keeps. -/
theorem orElse_keeps {ε : Type} {P : Machine → Prop} {machine : Machine}
    {result : Except ε Machine} (h : P machine) (hok : ∀ after, result = .ok after → P after) :
  P (machine.orElse result)
  := by
  cases result with
  | ok after => apply hok after rfl
  | error e => apply h

end Machine

end ThumbSoc
