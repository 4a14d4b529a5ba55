import PathEquiv.Run.Replay

set_option autoImplicit false

namespace PathEquiv

structure Report where
  summary : Summary
  records : List Record
  outcomes : List Outcome
  expected : Option Expected := none

namespace Report

def isExpected? (r : Report) : Option Bool :=
  r.expected.map r.summary.meets

private def recordJson (record : Record) : Json :=
  .obj [
    ("id", .int record.id),
    ("kind", .str record.kind.name),
    ("classification", .str record.classification.name),
    ("equivalent", .bool record.equivalent)]

def toJson (r : Report) : Json :=
  .obj (
    [ ("summary", r.summary.toJson),
      ("partitions", .arr (r.records.map recordJson)),
      ("outcomes", .arr (r.outcomes.map Outcome.toJson))] ++
    (r.expected.map fun e => ("expected", Json.str e.name)).toList ++
    (r.isExpected?.map fun b => ("matches_expected", Json.bool b)).toList)

private def padRight (width : Nat) (text : String) : String :=
  text ++ String.ofList (List.replicate (width - text.length) ' ')

private def recordLine (record : Record) : String :=
  let mark := if record.kind = .comparison && record.equivalent then "  (equivalent)" else ""
  "P" ++ padRight 4 (Text.natText record.id) ++ " " ++
    padRight 18 record.classification.name ++ mark

private def isSkipped : Outcome → Bool
  | .skipped _ => true
  | _ => false

def lines (r : Report) : List String :=
  let skipped := r.outcomes.countP isSkipped
  let s := r.summary
  r.records.map recordLine ++
    (if skipped = 0 then [] else ["Skipped events: " ++ Text.natText skipped]) ++
    ["Run " ++ s.runId ++ ": " ++ Text.natText s.partitions ++ " partitions, verdict " ++
      s.verdict.name] ++
    (s.counts.map fun (c, n) => "  " ++ c.name ++ ": " ++ Text.natText n) ++
    (r.expected.map fun e =>
      "Expected: " ++ e.name ++ if s.meets e then " (match)" else " (MISMATCH)").toList

def text (r : Report) : String :=
  String.join (r.lines.map (· ++ "\n"))

end Report

end PathEquiv
