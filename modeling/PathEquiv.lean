import PathEquiv.Main
import PathEquiv.Solver.Model
import PathEquiv.Proofs.Expr.Structure
import PathEquiv.Proofs.Sexp.Reading
import PathEquiv.Proofs.Sexp.Layout
import PathEquiv.Proofs.Declaration.Uses
import PathEquiv.Proofs.Declaration.Line
import PathEquiv.Proofs.Query.Document
import PathEquiv.Proofs.Run.Action
import PathEquiv.Proofs.Run.Records
import PathEquiv.Proofs.Partition.Decision
import PathEquiv.Proofs.Partition.Summary
import PathEquiv.Proofs.Run.Worlds
import PathEquiv.Proofs.Run.Integers
import PathEquiv.Proofs.Run.Soundness
import PathEquiv.Proofs.Expr.Canonical
import PathEquiv.Proofs.Run.Names
import PathEquiv.Proofs.Run.Asking
import PathEquiv.Proofs.Run.Ledger
import PathEquiv.Proofs.Run.Files
import PathEquiv.Proofs.Path
import PathEquiv.Proofs.Benchmark
import PathEquiv.Proofs.Disk
import PathEquiv.Proofs.Run.Rejection
import PathEquiv.Proofs.Run.Choices
import PathEquiv.Proofs.Run.Replay
import PathEquiv.Proofs.Declaration.Introduced
import PathEquiv.Proofs.Query.Scope
import PathEquiv.Proofs.Query.Distinct
import PathEquiv.Proofs.Expr.Sorting
import PathEquiv.Proofs.Declaration.Order
import PathEquiv.Proofs.Declaration.Convention
import PathEquiv.Proofs.Query.Textual
import PathEquiv.Proofs.Json.Reading
import PathEquiv.Proofs.Json.Records
import PathEquiv.Proofs.Run.Documents
import PathEquiv.Proofs.Run.Sharing
import PathEquiv.Proofs.Text.Bytes
import PathEquiv.Proofs.Text.Search
import PathEquiv.Proofs.Declaration.Inference
import PathEquiv.Proofs.Expr.Marker
import PathEquiv.Proofs.Solver.Answer
import PathEquiv.Proofs.Run.Settled
import PathEquiv.Proofs.Run.Verdict
import PathEquiv.Proofs.Solver.Model
import PathEquiv.Proofs.Expr.StringLiteral
import PathEquiv.Proofs.Query.Words
import PathEquiv.Proofs.Query.Reachability
import PathEquiv.Proofs.Sexp.RoundTrip
import PathEquiv.Proofs.Sexp.Completed
import PathEquiv.Proofs.Solver.Output
import PathEquiv.Proofs.Solver.Arguments
import PathEquiv.Proofs.Run.Bounds
import PathEquiv.Proofs.Run.Texts
import PathEquiv.Proofs.Run.Bounds
import PathEquiv.Proofs.Run.Texts
