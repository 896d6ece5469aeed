import BytecodeHost.Arena
import BytecodeHost.Bytes
import BytecodeHost.Cli.Columns
import BytecodeHost.Cli.Command
import BytecodeHost.Cli.Options
import BytecodeHost.Config
import BytecodeHost.Digest.Blake3
import BytecodeHost.Digest.XxHash64
import BytecodeHost.Duration
import BytecodeHost.Encoding.Base58
import BytecodeHost.Encoding.Base64
import BytecodeHost.Encoding.Bits
import BytecodeHost.Encoding.Cbor
import BytecodeHost.Encoding.Percent
import BytecodeHost.Encoding.Zstd
import BytecodeHost.Encoding.Zstd.Huffman
import BytecodeHost.Encoding.Zstd.Literals
import BytecodeHost.Encoding.Zstd.Sequences
import BytecodeHost.Encoding.Zstd.StateTable
import BytecodeHost.Execution
import BytecodeHost.Failure
import BytecodeHost.FileSystem
import BytecodeHost.Image.Assembler
import BytecodeHost.Image.Encoding
import BytecodeHost.Image.Header
import BytecodeHost.Image.Load
import BytecodeHost.Json.Parser
import BytecodeHost.Json.Printer
import BytecodeHost.Json.Value
import BytecodeHost.Machine.Arithmetic
import BytecodeHost.Machine.Basic
import BytecodeHost.Machine.Call
import BytecodeHost.Machine.Fault
import BytecodeHost.Machine.Host
import BytecodeHost.Machine.Operands
import BytecodeHost.Machine.Registry
import BytecodeHost.Machine.Step
import BytecodeHost.Main
import BytecodeHost.Meter
import BytecodeHost.ModuleId
import BytecodeHost.ModuleStore
import BytecodeHost.Number.Binary64
import BytecodeHost.Number.Decimal
import BytecodeHost.Number.Literal
import BytecodeHost.Opcode
import BytecodeHost.Path
import BytecodeHost.Program
import BytecodeHost.Proofs.Arena
import BytecodeHost.Proofs.Arena.Access
import BytecodeHost.Proofs.Bytes
import BytecodeHost.Proofs.Checked
import BytecodeHost.Proofs.Cli.Arguments
import BytecodeHost.Proofs.Cli.Running
import BytecodeHost.Proofs.Encoding.Base58
import BytecodeHost.Proofs.Encoding.Base64
import BytecodeHost.Proofs.Encoding.Cbor
import BytecodeHost.Proofs.Encoding.Zstd
import BytecodeHost.Proofs.Execution
import BytecodeHost.Proofs.Image.Assembly
import BytecodeHost.Proofs.Image.Fixups
import BytecodeHost.Proofs.Image.Format
import BytecodeHost.Proofs.Image.Header
import BytecodeHost.Proofs.Image.Loading
import BytecodeHost.Proofs.Image.Placement
import BytecodeHost.Proofs.Image.Segments
import BytecodeHost.Proofs.Json.Blanks
import BytecodeHost.Proofs.Json.Reading
import BytecodeHost.Proofs.Machine.Answering
import BytecodeHost.Proofs.Machine.Arithmetic
import BytecodeHost.Proofs.Machine.Block
import BytecodeHost.Proofs.Machine.BlockCopy
import BytecodeHost.Proofs.Machine.Budget
import BytecodeHost.Proofs.Machine.Cancellation
import BytecodeHost.Proofs.Machine.Course
import BytecodeHost.Proofs.Machine.Expression
import BytecodeHost.Proofs.Machine.Fibonacci
import BytecodeHost.Proofs.Machine.Frame
import BytecodeHost.Proofs.Machine.Heap
import BytecodeHost.Proofs.Machine.HostState
import BytecodeHost.Proofs.Machine.MemoryTraps
import BytecodeHost.Proofs.Machine.Observation
import BytecodeHost.Proofs.Machine.Operands
import BytecodeHost.Proofs.Machine.Pairing
import BytecodeHost.Proofs.Machine.Printing
import BytecodeHost.Proofs.Machine.Reference
import BytecodeHost.Proofs.Machine.Release
import BytecodeHost.Proofs.Machine.Reporting
import BytecodeHost.Proofs.Machine.Restoration
import BytecodeHost.Proofs.Machine.Running
import BytecodeHost.Proofs.Machine.Safety
import BytecodeHost.Proofs.Machine.Simulation
import BytecodeHost.Proofs.Machine.Subroutine
import BytecodeHost.Proofs.Machine.Threshold
import BytecodeHost.Proofs.Machine.Trap
import BytecodeHost.Proofs.Meter
import BytecodeHost.Proofs.ModuleId
import BytecodeHost.Proofs.ModuleStore.History
import BytecodeHost.Proofs.ModuleStore.Naming
import BytecodeHost.Proofs.ModuleStore.Transaction
import BytecodeHost.Proofs.Output
import BytecodeHost.Proofs.Program.Decoding
import BytecodeHost.Proofs.Program.Expansion
import BytecodeHost.Proofs.Program.Layout
import BytecodeHost.Proofs.Program.Preparation
import BytecodeHost.Proofs.Rpc.Batch
import BytecodeHost.Proofs.Rpc.Blanks
import BytecodeHost.Proofs.Rpc.Chaining
import BytecodeHost.Proofs.Rpc.Effects
import BytecodeHost.Proofs.Rpc.Images
import BytecodeHost.Proofs.Snapshot.File
import BytecodeHost.Proofs.Snapshot.History
import BytecodeHost.Proofs.Snapshot.Keys
import BytecodeHost.Proofs.Storage
import BytecodeHost.Proofs.Text
import BytecodeHost.Rpc.Http
import BytecodeHost.Rpc.Message
import BytecodeHost.Rpc.Method
import BytecodeHost.Rpc.Server
import BytecodeHost.Snapshot.File
import BytecodeHost.Snapshot.Info
import BytecodeHost.Snapshot.Store
import BytecodeHost.Storage
import BytecodeHost.Storage.File
import BytecodeHost.Table
import BytecodeHost.Text
import BytecodeHost.Text.Printable
import BytecodeHost.Text.Quoted
import BytecodeHost.Timestamp
import BytecodeHost.Toml.Document
import BytecodeHost.Toml.Reader
import BytecodeHost.Toml.Syntax
