import PathEquiv.Json.Reader
import PathEquiv.Query
import PathEquiv.Solver.Config

set_option autoImplicit false

namespace PathEquiv

structure Config where
  runId : String := "run"
  outputDir : String := "eqcheck-out"
  solver : SolverConfig := {}
  knownDeclarations : String := ""
  downgradeCallAnswers : Bool := true
  solveReachability : Bool := true
  deriving DecidableEq, Repr, Inhabited

namespace Config

def fields (config : Config) : List (String × Json) := [
  ("run_id", .str config.runId),
  ("output_dir", .str config.outputDir),
  ("solver", config.solver.toJson),
  ("known_declarations", .str config.knownDeclarations),
  ("downgrade_uif_answers", .bool config.downgradeCallAnswers),
  ("solve_reachability", .bool config.solveReachability)]

def toJson (config : Config) : Json :=
  .obj config.fields

def ofJson? (document : Json) : Option Config := do
  let names := ["run_id", "output_dir", "solver", "known_declarations", "downgrade_uif_answers",
    "solve_reachability"]
  let [runId, outputDir, solver, known, downgrade, reachability] ←
    document.record? names .refused | none
  let standard : Config := {}
  return {
    runId := ← Json.withDefault? standard.runId Json.str? runId
    outputDir := ← Json.withDefault? standard.outputDir Json.str? outputDir
    solver := ← Json.withDefault? standard.solver SolverConfig.ofJson? solver
    knownDeclarations := ← Json.withDefault? standard.knownDeclarations Json.str? known
    downgradeCallAnswers :=
      ← Json.withDefault? standard.downgradeCallAnswers Json.bool? downgrade
    solveReachability := ← Json.withDefault? standard.solveReachability Json.bool? reachability }

def ofText? (text : String) : Option Config :=
  (Json.document? text).bind ofJson?

def synthesizer (config : Config) : Synthesizer :=
  { known := .parse config.knownDeclarations }

end Config

end PathEquiv
