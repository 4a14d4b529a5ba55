import PathEquiv.Partition.Classification
import PathEquiv.Path

set_option autoImplicit false

namespace PathEquiv

inductive Expected where
  | eq
  | neq
  deriving DecidableEq, Repr

namespace Expected

def ofName? : String → Option Expected
  | "Eq" => some eq
  | "NEq" => some neq
  | _ => none

def classification : Expected → Classification
  | eq => .eq
  | neq => .neq

def name (expected : Expected) : String :=
  expected.classification.name

end Expected

inductive BenchmarkError where
  | outsideRoot (directory root : String)
  | noExpectedResult (directory : String)
  deriving DecidableEq, Repr

def BenchmarkError.message : BenchmarkError → String
  | .outsideRoot directory root => directory ++ " is not inside benchmark root " ++ root
  | .noExpectedResult directory => "cannot determine expected result for " ++ directory

def benchmarkPath (root directory : String) : Except BenchmarkError (List String) :=
  match Path.below? (Path.parts root) (Path.parts directory) with
  | some path => .ok (Path.names path)
  | none => .error (.outsideRoot directory root)

def expectedResult (root directory : String) : Except BenchmarkError Expected := do
  let names ← benchmarkPath root directory
  match ((names.drop 1).take 2).findSome? Expected.ofName? with
  | some expected => .ok expected
  | none => .error (.noExpectedResult directory)

def benchmarkName (root directory : String) : Except BenchmarkError String := do
  let names ← benchmarkPath root directory
  return String.intercalate "/" (names.take 3)

end PathEquiv
