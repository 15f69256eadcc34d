import PlanCompiler.Config.Builder
import PlanCompiler.Isolate.Handle
import PlanCompiler.Isolate.Host
import PlanCompiler.Isolate.StandIn
import PlanCompiler.Main
import PlanCompiler.Plan.Wire.Writer
import PlanCompiler.Proofs.Calendar.Inverse
import PlanCompiler.Proofs.Calendar.Spelling
import PlanCompiler.Proofs.Code.StringLiteral
import PlanCompiler.Proofs.Config.Objects
import PlanCompiler.Proofs.Isolate.Custody
import PlanCompiler.Proofs.Isolate.Handle
import PlanCompiler.Proofs.Isolate.History
import PlanCompiler.Proofs.Isolate.Poisoning
import PlanCompiler.Proofs.Lowering.Atomic
import PlanCompiler.Proofs.Lowering.Production.Batches
import PlanCompiler.Proofs.Lowering.Types
import PlanCompiler.Proofs.Plan.Nesting
import PlanCompiler.Proofs.Plan.Text.Comments
import PlanCompiler.Proofs.Plan.Text.Reprinting
import PlanCompiler.Proofs.Plan.Text.RoundTrip
import PlanCompiler.Proofs.Plan.Wire.Safety
import PlanCompiler.Proofs.Plan.Wire.Truncation
import PlanCompiler.Proofs.Program.Blocks
import PlanCompiler.Proofs.Program.CallSites
import PlanCompiler.Proofs.Program.Cleanup
import PlanCompiler.Proofs.Program.Definitions
import PlanCompiler.Proofs.Program.Injection
import PlanCompiler.Proofs.Request
