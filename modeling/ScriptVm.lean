import ScriptVm.Arithmetic
import ScriptVm.BuiltIn
import ScriptVm.Bytes
import ScriptVm.Collector
import ScriptVm.Config
import ScriptVm.Conversion
import ScriptVm.Error
import ScriptVm.Execution.Access
import ScriptVm.Execution.Basic
import ScriptVm.Execution.Frame
import ScriptVm.Execution.Raise
import ScriptVm.Execution.Routine
import ScriptVm.Fault
import ScriptVm.Function.Basic
import ScriptVm.Function.Guard
import ScriptVm.Heap.Basic
import ScriptVm.Heap.Handle
import ScriptVm.Heap.Mark
import ScriptVm.Heap.Object
import ScriptVm.Heap.Value
import ScriptVm.Image.Basic
import ScriptVm.Image.Container
import ScriptVm.Image.Format
import ScriptVm.Image.Json
import ScriptVm.Inspection
import ScriptVm.Instruction.Assembler
import ScriptVm.Instruction.Basic
import ScriptVm.Instruction.Cursor
import ScriptVm.Instruction.Listing
import ScriptVm.Instruction.Opcode
import ScriptVm.Instruction.Reading
import ScriptVm.Interner
import ScriptVm.Journal
import ScriptVm.Json
import ScriptVm.Kind
import ScriptVm.Literal
import ScriptVm.Machine.Basic
import ScriptVm.Machine.Functions
import ScriptVm.Machine.Load
import ScriptVm.Machine.Registry
import ScriptVm.Machine.Values
import ScriptVm.Module
import ScriptVm.Number.Binary
import ScriptVm.Number.Decimal
import ScriptVm.Number.Integer
import ScriptVm.Operator
import ScriptVm.Picture
import ScriptVm.Proofs.Arithmetic
import ScriptVm.Proofs.Collector.Account
import ScriptVm.Proofs.Collector.Balance
import ScriptVm.Proofs.Collector.Chronicle
import ScriptVm.Proofs.Collector.Compaction
import ScriptVm.Proofs.Collector.Completion
import ScriptVm.Proofs.Collector.Exactness
import ScriptVm.Proofs.Collector.Fading
import ScriptVm.Proofs.Collector.Lockstep
import ScriptVm.Proofs.Collector.Mutation
import ScriptVm.Proofs.Collector.Outcome
import ScriptVm.Proofs.Collector.Piles
import ScriptVm.Proofs.Collector.Pinning
import ScriptVm.Proofs.Collector.Progress
import ScriptVm.Proofs.Collector.Reclamation
import ScriptVm.Proofs.Collector.Representation
import ScriptVm.Proofs.Collector.Retention
import ScriptVm.Proofs.Collector.Safety
import ScriptVm.Proofs.Collector.Shading
import ScriptVm.Proofs.Collector.Steps
import ScriptVm.Proofs.Collector.Tending
import ScriptVm.Proofs.Collector.Typing
import ScriptVm.Proofs.Conversion
import ScriptVm.Proofs.Execution.Attempts
import ScriptVm.Proofs.Execution.Code
import ScriptVm.Proofs.Execution.Edits
import ScriptVm.Proofs.Execution.Exceptions
import ScriptVm.Proofs.Execution.Faults
import ScriptVm.Proofs.Execution.Frames
import ScriptVm.Proofs.Execution.Keeping
import ScriptVm.Proofs.Execution.Moves
import ScriptVm.Proofs.Execution.Operators
import ScriptVm.Proofs.Execution.Positions
import ScriptVm.Proofs.Execution.Turns
import ScriptVm.Proofs.Execution.Unwinding
import ScriptVm.Proofs.Function.Handlers
import ScriptVm.Proofs.Heap.Closure
import ScriptVm.Proofs.Heap.Lawful
import ScriptVm.Proofs.Heap.Marking
import ScriptVm.Proofs.Image.Acceptance
import ScriptVm.Proofs.Image.Container
import ScriptVm.Proofs.Image.Format
import ScriptVm.Proofs.Instruction.Assembling
import ScriptVm.Proofs.Instruction.Disassembling
import ScriptVm.Proofs.Instruction.Extent
import ScriptVm.Proofs.Instruction.Layout
import ScriptVm.Proofs.Instruction.Listing
import ScriptVm.Proofs.Instruction.Patching
import ScriptVm.Proofs.Instruction.Resolving
import ScriptVm.Proofs.Instruction.Texts
import ScriptVm.Proofs.Interner
import ScriptVm.Proofs.Machine.Container
import ScriptVm.Proofs.Machine.Exceptions
import ScriptVm.Proofs.Machine.Garbage
import ScriptVm.Proofs.Machine.Litter
import ScriptVm.Proofs.Machine.Moves
import ScriptVm.Proofs.Machine.Registry
import ScriptVm.Proofs.Number.Integer
import ScriptVm.Proofs.Revision.Execution
import ScriptVm.Proofs.Revision.Machine
import ScriptVm.Proofs.Revision.Step
import ScriptVm.Proofs.Revision.Vm
import ScriptVm.Proofs.Simulation.Collection
import ScriptVm.Proofs.Simulation.Execution
import ScriptVm.Proofs.Simulation.Machine
import ScriptVm.Proofs.Simulation.Preparation
import ScriptVm.Proofs.Simulation.Step
import ScriptVm.Proofs.Simulation.Vm
import ScriptVm.Proofs.Step.Edits
import ScriptVm.Proofs.Step.Faults
import ScriptVm.Proofs.Step.Layout
import ScriptVm.Proofs.Step.Locations
import ScriptVm.Proofs.Step.Moves
import ScriptVm.Proofs.Step.Reading
import ScriptVm.Proofs.Text.Columns
import ScriptVm.Proofs.Text.Numeral
import ScriptVm.Proofs.Vm.Account
import ScriptVm.Proofs.Vm.Branching
import ScriptVm.Proofs.Vm.Calls
import ScriptVm.Proofs.Vm.Collection
import ScriptVm.Proofs.Vm.Disassembly
import ScriptVm.Proofs.Vm.Exceptions
import ScriptVm.Proofs.Vm.Executions
import ScriptVm.Proofs.Vm.Failure
import ScriptVm.Proofs.Vm.Faults
import ScriptVm.Proofs.Vm.Invocation
import ScriptVm.Proofs.Vm.Isolation
import ScriptVm.Proofs.Vm.Moves
import ScriptVm.Proofs.Vm.Operators
import ScriptVm.Proofs.Vm.Pinning
import ScriptVm.Proofs.Vm.Pulling
import ScriptVm.Proofs.Vm.Reclamation
import ScriptVm.Proofs.Vm.Registry
import ScriptVm.Proofs.Vm.Retention
import ScriptVm.Proofs.Vm.Safety
import ScriptVm.Proofs.Vm.Stepping
import ScriptVm.Proofs.Vm.Transparency
import ScriptVm.Proofs.Vm.Typing
import ScriptVm.Proofs.Vm.Unwinding
import ScriptVm.Step.Basic
import ScriptVm.Step.Dispatch
import ScriptVm.Step.Execute
import ScriptVm.Step.Handle
import ScriptVm.Step.Place
import ScriptVm.Table
import ScriptVm.Text.Blank
import ScriptVm.Text.Numeral
import ScriptVm.Text.Printable
import ScriptVm.Text.Quoted
import ScriptVm.Vm
import ScriptVm.Vm.Run
import ScriptVm.Work
