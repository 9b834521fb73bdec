import ByteMachine.Bootstrap
import ByteMachine.Bus.Basic
import ByteMachine.Bus.Hardware
import ByteMachine.Bus.Ram
import ByteMachine.Bus.Wiring
import ByteMachine.Config.Basic
import ByteMachine.Config.Document
import ByteMachine.Config.File
import ByteMachine.Config.Value
import ByteMachine.Console
import ByteMachine.Decimal.Double
import ByteMachine.Decimal.Reading
import ByteMachine.Decimal.Shortest
import ByteMachine.Decode
import ByteMachine.Fault
import ByteMachine.Files
import ByteMachine.Flags
import ByteMachine.Hex
import ByteMachine.Image.Basic
import ByteMachine.Image.Header
import ByteMachine.Instruction
import ByteMachine.Machine.Execute
import ByteMachine.Machine.Observer
import ByteMachine.Machine.Run
import ByteMachine.Machine.State
import ByteMachine.Machine.Step
import ByteMachine.Main
import ByteMachine.Notice
import ByteMachine.Numeral
import ByteMachine.Operand
import ByteMachine.Options
import ByteMachine.Program
import ByteMachine.Proofs.Bootstrap.Boot
import ByteMachine.Proofs.Bootstrap.Code
import ByteMachine.Proofs.Bootstrap.Kernel
import ByteMachine.Proofs.Bootstrap.Loop
import ByteMachine.Proofs.Bootstrap.Restart
import ByteMachine.Proofs.Bootstrap.WarmBoot
import ByteMachine.Proofs.Bus.Cells
import ByteMachine.Proofs.Bus.Code
import ByteMachine.Proofs.Bus.History
import ByteMachine.Proofs.Bus.Layout
import ByteMachine.Proofs.Bus.Listing
import ByteMachine.Proofs.Bus.Logging
import ByteMachine.Proofs.Bus.Mapping
import ByteMachine.Proofs.Bus.Memory
import ByteMachine.Proofs.Bus.Tiling
import ByteMachine.Proofs.Byte
import ByteMachine.Proofs.Config.Failures
import ByteMachine.Proofs.Config.Spelling
import ByteMachine.Proofs.Console.Numbers
import ByteMachine.Proofs.Console.Ports
import ByteMachine.Proofs.Console.Reading
import ByteMachine.Proofs.Console.RoundTrip
import ByteMachine.Proofs.Console.Stream
import ByteMachine.Proofs.Effect
import ByteMachine.Proofs.Files
import ByteMachine.Proofs.Flat.Activity
import ByteMachine.Proofs.Flat.Atomic
import ByteMachine.Proofs.Flat.Basic
import ByteMachine.Proofs.Flat.Cells
import ByteMachine.Proofs.Flat.Cycle
import ByteMachine.Proofs.Flat.Effect
import ByteMachine.Proofs.Flat.Execution
import ByteMachine.Proofs.Flat.Faults
import ByteMachine.Proofs.Flat.Fetching
import ByteMachine.Proofs.Flat.Invariant
import ByteMachine.Proofs.Flat.Output
import ByteMachine.Proofs.Flat.Refinement
import ByteMachine.Proofs.Flat.Relation
import ByteMachine.Proofs.Flat.Step
import ByteMachine.Proofs.Flat.Stores
import ByteMachine.Proofs.Flat.Straight
import ByteMachine.Proofs.Flat.Transition
import ByteMachine.Proofs.Flat.View
import ByteMachine.Proofs.Hex
import ByteMachine.Proofs.Image.Encoding
import ByteMachine.Proofs.Image.Format
import ByteMachine.Proofs.Image.Saving
import ByteMachine.Proofs.Instruction.Codec
import ByteMachine.Proofs.Instruction.Text
import ByteMachine.Proofs.Machine.AddressSpace
import ByteMachine.Proofs.Machine.Alike
import ByteMachine.Proofs.Machine.Chronicle
import ByteMachine.Proofs.Machine.Composition
import ByteMachine.Proofs.Machine.Course
import ByteMachine.Proofs.Machine.Dumps
import ByteMachine.Proofs.Machine.Ending
import ByteMachine.Proofs.Machine.Equipped
import ByteMachine.Proofs.Machine.Faults
import ByteMachine.Proofs.Machine.Flags
import ByteMachine.Proofs.Machine.Inspection
import ByteMachine.Proofs.Machine.Layout
import ByteMachine.Proofs.Machine.Listing
import ByteMachine.Proofs.Machine.Notification
import ByteMachine.Proofs.Machine.Observers
import ByteMachine.Proofs.Machine.Passes
import ByteMachine.Proofs.Machine.Progress
import ByteMachine.Proofs.Machine.Registry
import ByteMachine.Proofs.Machine.Reports
import ByteMachine.Proofs.Machine.Status
import ByteMachine.Proofs.Machine.Steps
import ByteMachine.Proofs.Machine.Stores
import ByteMachine.Proofs.Machine.Tracing
import ByteMachine.Proofs.Numeral
import ByteMachine.Proofs.Program.Arguments
import ByteMachine.Proofs.Program.Exit
import ByteMachine.Proofs.Program.Images
import ByteMachine.Proofs.Program.Runs
import ByteMachine.Proofs.Program.Switches
import ByteMachine.Proofs.Program.Tracing
import ByteMachine.Proofs.System.Assembly
import ByteMachine.Proofs.System.Initial
import ByteMachine.Proofs.System.Installing
import ByteMachine.Proofs.System.Resume
import ByteMachine.Proofs.System.Safety
import ByteMachine.Proofs.Text.Half
import ByteMachine.Proofs.Trace.Grid
import ByteMachine.System
import ByteMachine.Target
import ByteMachine.Text.Blank
import ByteMachine.Text.CaseRun
import ByteMachine.Text.Digit
import ByteMachine.Text.Half
import ByteMachine.Text.Lower
import ByteMachine.Text.Printable
import ByteMachine.Text.Quoted
import ByteMachine.Text.Upper
import ByteMachine.Text.Wrap
import ByteMachine.Trace
import ByteMachine.Trace.Page
import ByteMachine.Yaml.Cursor
import ByteMachine.Yaml.Document
import ByteMachine.Yaml.Failure
import ByteMachine.Yaml.Meaning
import ByteMachine.Yaml.Merge
import ByteMachine.Yaml.Node
import ByteMachine.Yaml.Scalar
import ByteMachine.Yaml.Tag
import ByteMachine.Yaml.Token
