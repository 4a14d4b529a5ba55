import PathEquiv.Benchmark
import PathEquiv.Partition.Record

set_option autoImplicit false

namespace PathEquiv

abbrev Counts := List (Classification × Nat)

namespace Counts

def count (counts : Counts) (c : Classification) : Nat :=
  (counts.lookup c).getD 0

def add (c : Classification) : Counts → Counts
  | [] => [(c, 1)]
  | (d, n) :: rest =>
      if c = d then (d, n + 1) :: rest
      else if c.rank < d.rank then (c, 1) :: (d, n) :: rest
      else (d, n) :: add c rest

def ofList (classes : List Classification) : Counts :=
  classes.foldl (fun counts c => add c counts) []

private def ofField? (field : String × Json) : Option (Classification × Nat) := do
  return (← Classification.ofName? field.1, ← Json.nat? field.2)

def ofJson? : Json → Option Counts
  | .obj fields => do
      let entries ← fields.mapM ofField?
      return Classification.all.filterMap fun c => (entries.lookup c).map fun n => (c, n)
  | _ => none

/-- The classes that decide a verdict, the strongest first. A difference outweighs every failure,
and equality counts only if nothing speaks against it. -/
def precedence : List Classification :=
  [.neq, .missing, .baseToolMissing, .error, .timeout, .depthLimited, .unknown, .maybeNeq,
    .maybeEq, .eq]

def verdict (counts : Counts) : Classification :=
  if counts.all fun entry => entry.2 == 0 then .missing
  else (precedence.find? fun c => 0 < counts.count c).getD .unreachable

end Counts

structure Summary where
  runId : String
  partitions : Nat
  counts : Counts
  verdict : Classification
  deriving DecidableEq, Repr, Inhabited

namespace Summary

def ofCounts (runId : String) (partitions : Nat) (counts : Counts) : Summary :=
  { runId, partitions, counts, verdict := counts.verdict }

def ofRecords (runId : String) (records : List Record) : Summary :=
  ofCounts runId records.length (.ofList (records.map Record.classification))

def meets (s : Summary) (expected : Expected) : Bool :=
  s.verdict == expected.classification

def toJson (s : Summary) : Json :=
  .obj [
    ("run_id", .str s.runId),
    ("partitions", .int s.partitions),
    ("counts", .obj (s.counts.map fun (c, n) => (c.name, .int n))),
    ("verdict", .str s.verdict.name)]

end Summary

end PathEquiv
