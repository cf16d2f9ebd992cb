import RiscV.Command.Simulation
import RiscV.Hart.Trace
import RiscV.Main
import RiscV.Proofs.Checked.Step
import RiscV.Proofs.CsrAccess
import RiscV.Proofs.Execution
import RiscV.Proofs.Effect
import RiscV.Proofs.Call
import RiscV.Proofs.TrapEntry
import RiscV.Proofs.Encoding
import RiscV.Proofs.Frame
import RiscV.Proofs.CompressedExecution
import RiscV.Proofs.Containment
import RiscV.Proofs.Noninterference
import RiscV.Proofs.LockStep
import RiscV.Proofs.Decoding
import RiscV.Proofs.CsrOperation
import RiscV.Proofs.Request
import RiscV.Proofs.CsrLegality
import RiscV.Proofs.Alignment
import RiscV.Proofs.InterruptSelection
import RiscV.Proofs.InterruptMasking
import RiscV.Proofs.TrapReturn
import RiscV.Proofs.Disassembly
import RiscV.Proofs.Footprint
import RiscV.Proofs.BoundedRun
import RiscV.Proofs.Delegation
import RiscV.Proofs.Counters
import RiscV.Proofs.MemoryBytes
import RiscV.Proofs.Placement
import RiscV.Proofs.LoadStore
import RiscV.Proofs.Division
import RiscV.Proofs.Product
import RiscV.Proofs.IntegerArithmetic
import RiscV.Proofs.WordArithmetic
import RiscV.Proofs.CsrInstruction
import RiscV.Proofs.CsrViews
import RiscV.Proofs.CounterWrite
import RiscV.Proofs.Blank
import RiscV.Proofs.HexNumber
import RiscV.Proofs.HexGrammar
import RiscV.Proofs.HexLoading
import RiscV.Proofs.HexVerdict
import RiscV.Proofs.HexPlacement
import RiscV.Proofs.Loading
import RiscV.Proofs.SelfTest
import RiscV.Proofs.Reset
import RiscV.Proofs.MemoryLaws
import RiscV.Proofs.Fetching
import RiscV.Proofs.Transfer
import RiscV.Proofs.Checked.Loading
import RiscV.Proofs.SegmentLoading
