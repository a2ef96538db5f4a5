import HackToolchain.Build.Emitter
import HackToolchain.Build.Input
import HackToolchain.Build.Run
import HackToolchain.Build.Units
import HackToolchain.Command
import HackToolchain.Command.Reader
import HackToolchain.CommandLine.Completion
import HackToolchain.CommandLine.Execute
import HackToolchain.CommandLine.Flag
import HackToolchain.CommandLine.Options
import HackToolchain.CommandLine.Request
import HackToolchain.Emission.Code
import HackToolchain.Emission.Session
import HackToolchain.Emission.Sink
import HackToolchain.File.Path
import HackToolchain.File.Tree
import HackToolchain.Lint
import HackToolchain.Lint.Report
import HackToolchain.Log
import HackToolchain.Machine.Alu
import HackToolchain.Machine.Core
import HackToolchain.Machine.Display
import HackToolchain.Machine.Instruction
import HackToolchain.Machine.Memory
import HackToolchain.Machine.Program
import HackToolchain.Main
import HackToolchain.Proofs.Build.Acceptance
import HackToolchain.Proofs.Build.Boundaries
import HackToolchain.Proofs.Build.ByLine
import HackToolchain.Proofs.Build.Orchestration
import HackToolchain.Proofs.Build.Outcome
import HackToolchain.Proofs.Build.Sources
import HackToolchain.Proofs.Command.Reader
import HackToolchain.Proofs.CommandLine.Arguments
import HackToolchain.Proofs.CommandLine.Linting
import HackToolchain.Proofs.Emission.Assembles
import HackToolchain.Proofs.Emission.Assembly
import HackToolchain.Proofs.Emission.Blocks
import HackToolchain.Proofs.Emission.Booting
import HackToolchain.Proofs.Emission.Branches
import HackToolchain.Proofs.Emission.Calling
import HackToolchain.Proofs.Emission.Clash
import HackToolchain.Proofs.Emission.Delivery
import HackToolchain.Proofs.Emission.EntryPoint
import HackToolchain.Proofs.Emission.Execution
import HackToolchain.Proofs.Emission.History
import HackToolchain.Proofs.Emission.Label
import HackToolchain.Proofs.Emission.Layout
import HackToolchain.Proofs.Emission.Templates
import HackToolchain.Proofs.Emission.Naming
import HackToolchain.Proofs.Emission.Output
import HackToolchain.Proofs.File.Linkless
import HackToolchain.Proofs.File.Path
import HackToolchain.Proofs.Lint.Check
import HackToolchain.Proofs.Lint.Generated
import HackToolchain.Proofs.Lint.Loading
import HackToolchain.Proofs.Machine.Halt
import HackToolchain.Proofs.Machine.Load
import HackToolchain.Proofs.Machine.Memory
import HackToolchain.Proofs.Machine.Reading
import HackToolchain.Proofs.Machine.Run
import HackToolchain.Proofs.Machine.Safety
import HackToolchain.Proofs.Simulation.Forward
import HackToolchain.Proofs.Simulation.Frames
import HackToolchain.Proofs.Simulation.Positions
import HackToolchain.Proofs.Simulation.Reference
import HackToolchain.Proofs.Text.Numeral
import HackToolchain.Proofs.Text.Token
import HackToolchain.Proofs.Text.Words
import HackToolchain.Settings
import HackToolchain.Settings.Decode
import HackToolchain.Source.Lines
import HackToolchain.Table
import HackToolchain.Text
import HackToolchain.Text.Blank
import HackToolchain.Text.Columns
import HackToolchain.Text.Printable
import HackToolchain.Text.Quoted
import HackToolchain.Text.Utf8
import HackToolchain.Yaml.Binary
import HackToolchain.Yaml.Cursor
import HackToolchain.Yaml.Document
import HackToolchain.Yaml.Node
import HackToolchain.Yaml.Real
import HackToolchain.Yaml.Stream
import HackToolchain.Yaml.Time
import HackToolchain.Yaml.Token
import HackToolchain.Yaml.Token.Property
import HackToolchain.Yaml.Token.Scalar
import HackToolchain.Yaml.Token.Scan
import HackToolchain.Yaml.Value
import HackToolchain.Proofs.Emission.Rejection
import HackToolchain.Proofs.Machine.Limit
import HackToolchain.Proofs.Emission.Failure
import HackToolchain.Proofs.Lookup
import HackToolchain.Proofs.Machine.Fault
import HackToolchain.Proofs.Emission.Access
import HackToolchain.Proofs.Emission.Comparison
import HackToolchain.Proofs.Command.Rendering
import HackToolchain.Proofs.Command.Recovery
import HackToolchain.Proofs.Emission.Echo
import HackToolchain.Proofs.Machine.Symbols
import HackToolchain.Proofs.Machine.Operand
import HackToolchain.Proofs.Machine.Grammar
import HackToolchain.Proofs.Lint.Duplicates
import HackToolchain.Proofs.Build.Directory
