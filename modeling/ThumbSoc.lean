import ThumbSoc.AddressMap
import ThumbSoc.Breakpoints
import ThumbSoc.Breakpoints.Table
import ThumbSoc.Bus
import ThumbSoc.Bus.Device
import ThumbSoc.Bus.Gpio
import ThumbSoc.Bus.Program
import ThumbSoc.Bus.Serial
import ThumbSoc.Bus.Sram
import ThumbSoc.Condition
import ThumbSoc.Console
import ThumbSoc.Console.Log
import ThumbSoc.Console.Options
import ThumbSoc.Core
import ThumbSoc.Core.Hart
import ThumbSoc.Core.Special
import ThumbSoc.Core.Thumb
import ThumbSoc.Effects
import ThumbSoc.Encoding
import ThumbSoc.Encoding.Format
import ThumbSoc.Encoding.Immediate
import ThumbSoc.Encoding.Narrow
import ThumbSoc.Encoding.Wide
import ThumbSoc.Fault
import ThumbSoc.Hex
import ThumbSoc.Image
import ThumbSoc.Instruction
import ThumbSoc.Listing
import ThumbSoc.Machine
import ThumbSoc.Machine.Config
import ThumbSoc.Machine.Event
import ThumbSoc.Machine.Host
import ThumbSoc.Machine.Progress
import ThumbSoc.Machine.Run
import ThumbSoc.Machine.Step
import ThumbSoc.Main
import ThumbSoc.Proofs.Atomicity
import ThumbSoc.Proofs.Invariants.Machine
import ThumbSoc.Proofs.RunLength
import ThumbSoc.Proofs.SerialOutput
import ThumbSoc.Register
import ThumbSoc.Semantics
import ThumbSoc.Semantics.Exception
import ThumbSoc.Semantics.Operands
import ThumbSoc.Step
import ThumbSoc.Word
import ThumbSoc.Word.Shift
import ThumbSoc.Word.Sum
import ThumbSoc.Proofs.Bus.Memory
import ThumbSoc.Proofs.Bus.Probe
import ThumbSoc.Proofs.Commit
import ThumbSoc.Proofs.DataProcessing.Decoding
import ThumbSoc.Proofs.DataProcessing.Execution
import ThumbSoc.Proofs.DataProcessing.Reference
import ThumbSoc.Proofs.DataProcessing.Values
import ThumbSoc.Proofs.Encoding.Formats
import ThumbSoc.Proofs.Encoding.Opcodes
import ThumbSoc.Proofs.Exceptions.Context
import ThumbSoc.Proofs.Exceptions.Nesting
import ThumbSoc.Proofs.Bus.Acceptance
import ThumbSoc.Proofs.Bus.ByteMemory
import ThumbSoc.Proofs.Breakpoints.Arming
import ThumbSoc.Proofs.Breakpoints.Reporting
import ThumbSoc.Proofs.Machine.Secondary
import ThumbSoc.Proofs.Machine.Budget
import ThumbSoc.Proofs.Machine.FreshStart
import ThumbSoc.Proofs.Machine.Trace
import ThumbSoc.Proofs.SlicedRun
import ThumbSoc.Proofs.Encoding.Operands
import ThumbSoc.Proofs.Listing.Text
import ThumbSoc.Proofs.Listing.Mnemonic
import ThumbSoc.Proofs.Listing.Statement
import ThumbSoc.Proofs.Listing.Meaning
import ThumbSoc.Proofs.Listing.Range
import ThumbSoc.Proofs.Bus.Footprint
import ThumbSoc.Proofs.Footprint
import ThumbSoc.Proofs.Machine.Isolation
import ThumbSoc.Proofs.Machine.Commutation
import ThumbSoc.Proofs.Machine.RoundRobin
import ThumbSoc.Proofs.BlockStores
import ThumbSoc.Proofs.SingleTransfer.Reference
import ThumbSoc.Proofs.SingleTransfer.Decoding
import ThumbSoc.Proofs.SingleTransfer.Execution
import ThumbSoc.Proofs.Bus.KeptWords
import ThumbSoc.Proofs.BlockTransfer.Decoding
import ThumbSoc.Proofs.BlockTransfer.Execution
import ThumbSoc.Proofs.DataProcessing.Shifting
import ThumbSoc.Proofs.DataProcessing.Comparison
import ThumbSoc.Proofs.Encoding.Tables
import ThumbSoc.Proofs.Encoding.WellFormed
import ThumbSoc.Proofs.Frame.Commit
import ThumbSoc.Proofs.Frame.Execution
import ThumbSoc.Proofs.Frame.Step
import ThumbSoc.Proofs.Encoding.Links
import ThumbSoc.Proofs.Bus.Queues
import ThumbSoc.Proofs.Bus.Pins
import ThumbSoc.Proofs.Machine.Loading
import ThumbSoc.Proofs.Breakpoints.FiniteSet
import ThumbSoc.Proofs.SpecialRegisters
