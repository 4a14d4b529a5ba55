import PathEquiv.Solver.Answer
import PathEquiv.Solver.Config
import PathEquiv.Text.Utf8
import PathEquiv.Workspace

set_option autoImplicit false

namespace PathEquiv

namespace SolverConfig

def deadlineMessage (config : SolverConfig) : String :=
  "solver `" ++ config.program ++ "` exceeded its " ++ Text.natText config.deadlineMs ++
    " ms deadline and was killed\n"

def answerOf (config : SolverConfig) (finished : Finished) : Answer :=
  let output := Text.decodeBytes finished.output
  let errors := Text.decodeBytes finished.errors
  let elapsedMs := finished.elapsedMs
  match finished.ending with
  | none =>
      .unknown (config.deadlineMessage ++ errors) { elapsedMs, exitCode := none, killed := true }
  | some (.exited status) => .ofOutput output errors { elapsedMs, exitCode := some status }
  | some (.signalled _) => .ofOutput output errors { elapsedMs, exitCode := none }

def solve (config : SolverConfig) (path : String) (w : Workspace) :
    Except SolverError Answer × Workspace :=
  match w.run config.program (config.arguments path) config.deadlineMs with
  | .ok finished => (.ok (config.answerOf finished), { w with disk := finished.disk })
  | .error reason => (.error (.launch config.program reason), w)

end SolverConfig

end PathEquiv
