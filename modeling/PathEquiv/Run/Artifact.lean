import PathEquiv.Path
import PathEquiv.Query
import PathEquiv.Text.Blank
import PathEquiv.Text.Decimal

set_option autoImplicit false

namespace PathEquiv

def safeChar? (c : Char) : Option Char :=
  if c.isAlphanum || c == '-' || c == '_' then some c
  else if c == '.' || c == '/' || c == '\\' || Text.isBlank c then some '_'
  else none

def trimUnderscores (cs : List Char) : List Char :=
  ((cs.dropWhile (· == '_')).reverse.dropWhile (· == '_')).reverse

/-- A run identifier that is safe in file names. Separators and white space become underscores,
other characters are dropped, and underscores at either end are removed. -/
def sanitizeRunId (raw : String) : String :=
  match trimUnderscores (raw.toList.filterMap safeChar?) with
  | [] => "run"
  | cs => String.ofList cs

inductive PartitionFile where
  | toSolve (kind : QueryKind)
  | answer (kind : QueryKind)
  | errors (kind : QueryKind)
  | model
  | condition
  | hasCalls
  | record
  deriving DecidableEq, Repr

def PartitionFile.suffix : PartitionFile → String
  | .toSolve kind => "ToSolve" ++ kind.suffix ++ ".txt"
  | .answer kind => "Answer" ++ kind.suffix ++ ".txt"
  | .errors kind => "Errors" ++ kind.suffix ++ ".txt"
  | .model => "Model.txt"
  | .condition => "JSON-PC.json"
  | .hasCalls => "HasUIF.txt"
  | .record => "Partition.json"

inductive Artifact where
  | partition (id : Nat) (file : PartitionFile)
  | choice (state number : Nat)
  | result
  deriving DecidableEq, Repr

def Artifact.fileName (runId : String) : Artifact → String
  | .partition id file => runId ++ "-P" ++ Text.natText id ++ "-" ++ file.suffix
  | .choice state number =>
      runId ++ "-S" ++ Text.natText state ++ "-C" ++ Text.natText number ++ "-JSON-PC.json"
  | .result => runId ++ "-Result.json"

structure ArtifactStore where
  directory : String
  runId : String
  deriving DecidableEq, Repr, Inhabited

namespace ArtifactStore

def ofRunId (directory runId : String) : ArtifactStore :=
  { directory, runId := sanitizeRunId runId }

def path (store : ArtifactStore) (artifact : Artifact) : String :=
  Path.join store.directory (artifact.fileName store.runId)

end ArtifactStore

def artifactMessage (path cause : String) : String :=
  "cannot write artifact " ++ path ++ ": " ++ cause

end PathEquiv
