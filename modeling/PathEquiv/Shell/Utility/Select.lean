import PathEquiv.Shell.Regex
import PathEquiv.Shell.Utility

set_option autoImplicit false

namespace PathEquiv.Shell.Utility

private structure Wanted where
  expressions : List Regex
  ignoreCase : Bool
  wholeLine : Bool
  wholeWord : Bool
  inverted : Bool

private def isWordPart (c : Char) : Bool := c.isAlphanum || c == '_'

private def Wanted.fits (w : Wanted) (found : Regex.Found) : Bool :=
  (!w.wholeLine || (found.before.isEmpty && found.after.isEmpty)) &&
    (!w.wholeWord ||
      (!found.before.getLast?.any isWordPart && !found.after.head?.any isWordPart))

-- The first match of an expression that fits, also behind a match that does not.
private def Wanted.find (w : Wanted) (r : Regex) : (fuel : Nat) → (before line : List Char) →
    Option Regex.Found
  | 0, _, _ => none
  | fuel + 1, before, line =>
      match r.search w.ignoreCase before line with
      | none => none
      | some found =>
          if w.fits found then some found
          else
            match line.drop (found.before.length - before.length) with
            | c :: rest => w.find r fuel (c :: found.before.reverse) rest
            | [] => none

private def Wanted.findAny (w : Wanted) (before line : List Char) : Option Regex.Found :=
  let found := w.expressions.filterMap fun r => w.find r (line.length + 1) before line
  found.foldl (fun best next =>
    match best with
    | none => some next
    | some b => if next.before.length < b.before.length then some next else best) none

private def Wanted.selects (w : Wanted) (line : List Char) : Bool :=
  (w.findAny [] line).isSome != w.inverted

-- All matches in a line that are not empty.
private def Wanted.parts (w : Wanted) : (fuel : Nat) → (before line : List Char) →
    List (List Char)
  | 0, _, _ => []
  | fuel + 1, before, line =>
      match w.findAny before line with
      | none => []
      | some found =>
          if found.matched.isEmpty then
            match line with
            | [] => []
            | c :: rest => w.parts fuel (c :: before) rest
          else
            found.matched ::
              w.parts fuel (found.matched.reverse ++ found.before.reverse) found.after

private def grepIn (dialect : Option Dialect) : Utility := fun call =>
  call.withOptions "grep" "qcvinoFEGxwlLshHa" "em" none 2 fun o =>
    let (patterns, files) := match o.values 'e', o.operands with
      | [], pattern :: files => ([pattern], files)
      | patterns, files => (patterns, files)
    if patterns.isEmpty then
      Done.failing 2 ("Usage: grep [OPTION]... PATTERNS [FILE]...\n" ++
        "Try 'grep --help' for more information.")
    else
      let dialect :=
        if o.has 'F' then none else if o.has 'E' then some Dialect.extended else dialect
      let sources := (patterns.map fun p => p.toList.splitOn '\n').flatten
      match sources.mapM fun source =>
        match dialect with
        | none => some (Regex.literal source)
        | some dialect => Regex.ofText? dialect source with
      | none => Done.failing 2 "grep: Invalid regular expression"
      | some expressions =>
          let wanted : Wanted := {
            expressions, ignoreCase := o.has 'i', wholeLine := o.has 'x', wholeWord := o.has 'w'
            inverted := o.has 'v' }
          let most := (o.value? 'm').bind fun n => Text.natural? n.toList
          let paths := if files.isEmpty then ["-"] else files
          let named := (paths.length > 1 || o.has 'H') && !o.has 'h'
          let search (path : String) (bytes : Bytes) : Bool × Bytes :=
            let lines := (lineChunks bytes).zipIdx.filterMap fun (chunk, i) =>
              let line := Text.ofBytes (withoutFeed chunk)
              if wanted.selects line then some (i + 1, withoutFeed chunk, line) else none
            let lines := match most with
              | some n => lines.take n
              | none => lines
            let title := if path = "-" then "(standard input)" else path
            let label := if named then title ++ ":" else ""
            let text :=
              if o.has 'q' then []
              else if o.has 'l' then
                if lines.isEmpty then [] else Text.encodeBytes (title ++ "\n")
              else if o.has 'L' then
                if lines.isEmpty then Text.encodeBytes (title ++ "\n") else []
              else if o.has 'c' then
                Text.encodeBytes (label ++ Text.natText lines.length ++ "\n")
              else
                (lines.map fun (number, raw, line) =>
                  let label := label ++ if o.has 'n' then Text.natText number ++ ":" else ""
                  let row (bytes : Bytes) := Text.encodeBytes label ++ bytes ++ [10]
                  if o.has 'o' then
                    ((wanted.parts (line.length + 1) [] line).map fun part =>
                      row (Text.encodeBytes (String.ofList part))).flatten
                  else row raw).flatten
            (!lines.isEmpty, text)
          let results := paths.map fun path =>
            match call.read path with
            | .ok bytes =>
                let (found, text) := search path bytes
                (found, false, (1, text))
            | .error e =>
                let message := "grep: " ++ path ++ ": " ++ e.reason
                (false, true, if o.has 's' then (2, []) else Done.complaint message)
          let found := results.any (·.1)
          let failed := results.any (·.2.1)
          { output := results.map (·.2.2)
            status := if failed && !(found && o.has 'q') then 2 else if found then 0 else 1 }

def grep : Utility := grepIn (some .basic)

def egrep : Utility := grepIn (some .extended)

def fgrep : Utility := grepIn none

private inductive Address where
  | number (n : Nat)
  | last
  | matching (r : Regex)

private inductive Action where
  | substitute (r : Regex) (replacement : List Char) (all printed : Bool) (ignoreCase : Bool)
  | print
  | delete
  | quit
  | lineNumber
  | exchange (source target : List Char)

private structure Edit where
  start : Option Address
  stop : Option Address
  inverted : Bool
  action : Action

-- The text up to a delimiter; a backslash before the delimiter is dropped.
private def untilDelimiter (delimiter : Char) : List Char → Option (List Char × List Char)
  | [] => none
  | '\\' :: c :: rest =>
      (untilDelimiter delimiter rest).map fun (inside, rest) =>
        (if c = delimiter then c :: inside
          else if c = 'n' then '\n' :: inside
          else '\\' :: c :: inside, rest)
  | c :: rest =>
      if c = delimiter then some ([], rest)
      else (untilDelimiter delimiter rest).map fun (inside, rest) => (c :: inside, rest)

private def address? (dialect : Dialect) : List Char → Option (Option Address × List Char)
  | '$' :: rest => some (some .last, rest)
  | '/' :: rest => do
      let (source, rest) ← untilDelimiter '/' rest
      return (some (.matching (← Regex.ofText? dialect source)), rest)
  | cs =>
      let digits := cs.takeWhile Char.isDigit
      if digits.isEmpty then some (none, cs)
      else some (some (.number (Text.decimalValue digits)), cs.drop digits.length)

private def action? (dialect : Dialect) : List Char → Option (Action × List Char)
  | 's' :: delimiter :: rest => do
      let (source, rest) ← untilDelimiter delimiter rest
      let (target, rest) ← untilDelimiter delimiter rest
      let flags := rest.takeWhile fun c => "gpIi".toList.contains c
      let r ← Regex.ofText? dialect source
      let ignoreCase := flags.contains 'i' || flags.contains 'I'
      return (.substitute r target (flags.contains 'g') (flags.contains 'p') ignoreCase,
        rest.drop flags.length)
  | 'y' :: delimiter :: rest => do
      let (source, rest) ← untilDelimiter delimiter rest
      let (target, rest) ← untilDelimiter delimiter rest
      if source.length = target.length then some (.exchange source target, rest) else none
  | 'p' :: rest => some (.print, rest)
  | 'd' :: rest => some (.delete, rest)
  | 'q' :: rest => some (.quit, rest)
  | '=' :: rest => some (.lineNumber, rest)
  | _ => none

private def isBetween (c : Char) : Bool := c == ' ' || c == ';' || c == '\n' || c == '\t'

private def edits (dialect : Dialect) : (fuel : Nat) → List Char → Option (List Edit)
  | 0, _ => none
  | fuel + 1, cs =>
      match cs.dropWhile isBetween with
      | [] => some []
      | cs => do
          let (start, cs) ← address? dialect cs
          let (stop, cs) ← match start, cs with
            | some _, ',' :: rest => address? dialect rest
            | _, _ => some (none, cs)
          let cs := cs.dropWhile (· == ' ')
          let (inverted, cs) := match cs with
            | '!' :: rest => (true, rest.dropWhile (· == ' '))
            | _ => (false, cs)
          let (action, cs) ← action? dialect cs
          return { start, stop, inverted, action } :: (← edits dialect fuel cs)

private def replacementText (found : Regex.Found) : List Char → List Char
  | [] => []
  | '&' :: rest => found.matched ++ replacementText found rest
  | '\\' :: c :: rest =>
      if c.isDigit then
        (if c = '0' then found.matched else (found.groups.lookup (c.toNat - '0'.toNat)).getD []) ++
          replacementText found rest
      else c :: replacementText found rest
  | c :: rest => c :: replacementText found rest

private def substituteIn (r : Regex) (target : List Char) (all ignoreCase : Bool) :
    (fuel : Nat) → (before line : List Char) → Bool × List Char
  | 0, _, line => (false, line)
  | fuel + 1, before, line =>
      match r.search ignoreCase before line with
      | none => (false, line)
      | some found =>
          let start := found.before.drop before.length
          let text := start ++ replacementText found target
          if !all then (true, text ++ found.after)
          else
            let passed := found.matched.reverse ++ found.before.reverse
            match found.matched, found.after with
            | [], [] => (true, text)
            | [], c :: rest =>
                let (_, others) := substituteIn r target all ignoreCase fuel (c :: passed) rest
                (true, text ++ c :: others)
            | _, after =>
                let (_, others) := substituteIn r target all ignoreCase fuel passed after
                (true, text ++ others)

private def Address.holds (a : Address) (number : Nat) (isLast : Bool) (line : List Char) : Bool :=
  match a with
  | .number n => n == number
  | .last => isLast
  | .matching r => (r.search false [] line).isSome

private structure Editing where
  line : List Char
  output : Bytes := []
  deleted : Bool := false
  stopped : Bool := false

-- Whether an edit applies to a line, and whether its range stays open.
private def Edit.applies (e : Edit) (isOpen : Bool) (number : Nat) (isLast : Bool)
    (line : List Char) : Bool × Bool :=
  match e.start, e.stop with
  | none, _ => (true, false)
  | some start, none => (start.holds number isLast line, false)
  | some start, some stop =>
      if isOpen then (true, !stop.holds number isLast line)
      else if start.holds number isLast line then
        match stop with
        | .number n => (true, decide (number < n))
        | _ => (true, true)
      else (false, false)

private def Editing.act (s : Editing) (number : Nat) : Action → Editing
  | .substitute r target all printed ignoreCase =>
      let (changed, line) := substituteIn r target all ignoreCase (s.line.length + 1) [] s.line
      { s with
        line
        output := if changed && printed then s.output ++ lineBytes line else s.output }
  | .print => { s with output := s.output ++ lineBytes s.line }
  | .delete => { s with deleted := true }
  | .quit => { s with stopped := true }
  | .lineNumber => { s with output := s.output ++ Text.encodeBytes (Text.natText number ++ "\n") }
  | .exchange source target =>
      { s with line := s.line.map fun c => ((source.zip target).lookup c).getD c }

private def editLines (silent : Bool) (script : List Edit) :
    (number : Nat) → (openEdits : List Bool) → List (List Char) → Bytes
  | _, _, [] => []
  | number, openEdits, line :: lines =>
      let step := fun (s, kept) (e, isOpen) =>
        if s.deleted || s.stopped then (s, kept ++ [isOpen])
        else
          let (holds, isOpen) := Edit.applies e isOpen number lines.isEmpty s.line
          (if holds != e.inverted then s.act number e.action else s, kept ++ [isOpen])
      let (s, kept) :=
        (script.zip openEdits).foldl step (({ line } : Editing), ([] : List Bool))
      let own := s.output ++ if silent || s.deleted then [] else lineBytes s.line
      if s.stopped then own else own ++ editLines silent script (number + 1) kept lines

def sed : Utility := fun call =>
  call.withOptions "sed" "nErsu" "e" none 1 fun o =>
    let (scripts, files) := match o.values 'e', o.operands with
      | [], script :: files => ([script], files)
      | scripts, files => (scripts, files)
    let dialect := if o.has 'E' || o.has 'r' then Dialect.extended else .basic
    let source := (String.intercalate "\n" scripts).toList
    match edits dialect (source.length + 1) source with
    | none => Done.failing 1 "sed: -e expression #1, char 0: unknown command"
    | some script =>
        let paths := if files.isEmpty then ["-"] else files
        let read := paths.map fun path => (path, call.read path)
        let lines := (read.map fun
          | (_, .ok bytes) => textLines bytes
          | (_, .error _) => []).flatten
        let complaints := read.filterMap fun
          | (path, .error e) =>
              some (Done.complaint ("sed: can't read " ++ path ++ ": " ++ e.reason))
          | _ => none
        let text := editLines (o.has 'n') script 1 (script.map fun _ => false) lines
        { output := complaints ++ [(1, text)], status := if complaints.isEmpty then 0 else 2 }

private def fieldRanges? (text : String) : Option (List (Nat × Option Nat)) :=
  (text.toList.splitOn ',').mapM fun part =>
    match part.splitOn '-' with
    | [n] => (Text.natural? n).map fun n => (n, some n)
    | [low, high] => do
        let low ← if low.isEmpty then some 1 else Text.natural? low
        let high ← if high.isEmpty then some none else (Text.natural? high).map some
        return (low, high)
    | _ => none

private def chosen {α : Type} (ranges : List (Nat × Option Nat)) (items : List α) : List α :=
  (items.zipIdx.filter fun (_, i) =>
    ranges.any fun (low, high) => low ≤ i + 1 && high.all (i + 1 ≤ ·)).map (·.1)

def cut : Utility := fun call =>
  call.withOptions "cut" "s" "dfcb" none 1 fun o =>
    let complain (path : String) (e : DiskError) := "cut: " ++ path ++ ": " ++ e.reason
    let delimiter := match (o.value? 'd').map String.toList with
      | some (c :: _) => c
      | _ => '\t'
    match o.value? 'f', (o.value? 'c').or (o.value? 'b') with
    | some fields, _ =>
        match fieldRanges? fields with
        | none => Done.failing 1 "cut: invalid field range"
        | some ranges =>
            call.eachFile o.operands complain fun _ bytes =>
              ((textLines bytes).map fun line =>
                if line.contains delimiter then
                  lineBytes ([delimiter].intercalate (chosen ranges (line.splitOn delimiter)))
                else if o.has 's' then []
                else lineBytes line).flatten
    | none, some positions =>
        match fieldRanges? positions with
        | none => Done.failing 1 "cut: invalid byte, character or field list"
        | some ranges =>
            call.eachFile o.operands complain fun _ bytes =>
              ((lineChunks bytes).map fun line => chosen ranges (withoutFeed line) ++ [10]).flatten
    | none, none =>
        Done.failing 1 ("cut: you must specify a list of bytes, characters, or fields\n" ++
          "Try 'cut --help' for more information.")

private def byteSet : (fuel : Nat) → List Char → List UInt8
  | 0, _ => []
  | _, [] => []
  | fuel + 1, c :: rest =>
      match CharRange.class? (c :: rest) with
      | some (ranges, rest) =>
          (ranges.map fun r => (List.range 256).filterMap fun n =>
            if r.contains (Char.ofNat n) then some (UInt8.ofNat n) else none).flatten ++
            byteSet fuel rest
      | none =>
          let (own, rest) :=
            if c = '\\' then Format.escape .all rest
            else (Text.encodeBytes (String.ofList [c]), rest)
          match own, rest with
          | [low], '-' :: high :: after =>
              let high := UInt8.ofNat (high.toNat % 256)
              ((List.range 256).filterMap fun n =>
                if low.toNat ≤ n && n ≤ high.toNat then some (UInt8.ofNat n) else none) ++
                byteSet fuel after
          | _, _ => own ++ byteSet fuel rest

private def squeeze (set : List UInt8) : Bytes → Bytes
  | [] => []
  | [b] => [b]
  | a :: b :: rest =>
      if a = b && set.contains a then squeeze set (b :: rest) else a :: squeeze set (b :: rest)

def tr : Utility := fun call =>
  call.withOptions "tr" "dscC" "" none 1 fun o =>
    let set (text : String) := byteSet (text.length + 1) text.toList
    let complement := o.has 'c' || o.has 'C'
    let first := set (o.operands.headD "")
    let first :=
      if complement then
        ((List.range 256).map UInt8.ofNat).filter fun b => !first.contains b
      else first
    let second := (o.operands.drop 1).head?.map set
    let replaced (target : List UInt8) : Bytes :=
      call.input.map fun b =>
        match first.idxOf? b with
        | some i => (target[i]?).getD (target.getLast?.getD b)
        | none => b
    match o.has 'd', o.has 's', second with
    | true, false, _ => Done.writing (call.input.filter fun b => !first.contains b)
    | true, true, second =>
        Done.writing (squeeze (second.getD []) (call.input.filter fun b => !first.contains b))
    | false, true, none => Done.writing (squeeze first call.input)
    | false, true, some target => Done.writing (squeeze target (replaced target))
    | false, false, some target => Done.writing (replaced target)
    | false, false, none =>
        Done.failing 1 "tr: missing operand\nTry 'tr --help' for more information."

end PathEquiv.Shell.Utility
