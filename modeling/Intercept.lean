import Intercept.Word
import Intercept.Text.Blank
import Intercept.Text.Numeral
import Intercept.Binary.Round
import Intercept.Decimal.Read
import Intercept.Decimal.Shortest
import Intercept.Json.Value
import Intercept.Json.Read
import Intercept.Json.Write
import Intercept.Log
import Intercept.Register
import Intercept.Address
import Intercept.Memory
import Intercept.Expr.Basic
import Intercept.Expr.Eval
import Intercept.Param.Eval
import Intercept.PatchOption
import Intercept.Registry
import Intercept.Text.Quoted
import Intercept.Request
import Intercept.Code.Branch
import Intercept.Code.Buffer
import Intercept.Code.Trampoline
import Intercept.Cave
import Intercept.Breakpoint
import Intercept.Dispatch
import Intercept.Batch
import Intercept.Service.Callback
import Intercept.Service.World
import Intercept.Service.Ops
import Intercept.Service.Apply
import Intercept.Service.Respond
import Intercept.Proofs.Expr.Written
import Intercept.Proofs.Expr.Tokens
import Intercept.Proofs.Expr.Fold
import Intercept.Proofs.Dispatch
import Intercept.Proofs.Batch.Step
import Intercept.Proofs.Batch.Outcome
import Intercept.Proofs.Batch.Patches
import Intercept.Proofs.Buffer
import Intercept.Proofs.Branch
import Intercept.Proofs.Codebuf
import Intercept.Proofs.Relay
import Intercept.Proofs.Batch.Restore
import Intercept.Proofs.Expr.Fuel
import Intercept.Proofs.Expr.Pointer
import Intercept.Proofs.Expr.Trace
import Intercept.Proofs.Expr.Safety
import Intercept.Proofs.Expr.Symbols
import Intercept.Proofs.Batch.Footprint
import Intercept.Proofs.Batch.Layout
import Intercept.Proofs.Coverage
import Intercept.Proofs.Address
import Intercept.Proofs.Options
