import PathEquiv.Shell.Utility
import PathEquiv.Text.Blank

set_option autoImplicit false

namespace PathEquiv.Shell.Utility

private def plainComplaint (name : String) (path : String) (e : DiskError) : String :=
  name ++ ": " ++ path ++ ": " ++ e.reason

private def openComplaint (name : String) (path : String) (e : DiskError) : String :=
  match e with
  | .isDirectory => name ++ ": error reading '" ++ path ++ "': " ++ e.reason
  | _ => name ++ ": cannot open '" ++ path ++ "' for reading: " ++ e.reason

private def padLeft (width : Nat) (text : String) : String :=
  String.ofList (List.replicate (width - text.length) ' ') ++ text

private def numbered (lines : List Bytes) : Bytes :=
  (lines.zipIdx.map fun (line, i) =>
    Text.encodeBytes (padLeft 6 (Text.natText (i + 1)) ++ "\t") ++ line).flatten

def cat : Utility := fun call =>
  call.withOptions "cat" "nu" "" none 1 fun o =>
    call.eachFile o.operands (plainComplaint "cat") fun _ bytes =>
      if o.has 'n' then numbered (lineChunks bytes) else bytes

private structure Count where
  sign : Option Char
  size : Nat

private def count? (text : String) : Option Count :=
  match text.toList with
  | '-' :: digits => (Text.natural? digits).map fun size => { sign := some '-', size }
  | '+' :: digits => (Text.natural? digits).map fun size => { sign := some '+', size }
  | digits => (Text.natural? digits).map fun size => { sign := none, size }

private def front {α : Type} (c : Count) (items : List α) : List α :=
  if c.sign = some '-' then items.take (items.length - c.size) else items.take c.size

private def back {α : Type} (c : Count) (items : List α) : List α :=
  if c.sign = some '+' then items.drop (c.size - 1) else items.drop (items.length - c.size)

private def ends (name : String) (lines : Count → List Bytes → List Bytes)
    (bytes : Count → Bytes → Bytes) : Utility := fun call =>
  call.withOptions name "qv" "nc" (some 'n') 1 fun o =>
    let read (what size : String) : Except String Count :=
      match count? size with
      | some c => .ok c
      | none => .error (name ++ ": invalid number of " ++ what ++ ": '" ++ size ++ "'")
    let ofLines (c : Count) (text : Bytes) : Bytes := (lines c (lineChunks text)).flatten
    let chosen := match o.value? 'c', o.value? 'n' with
      | some size, _ => (read "bytes" size).map bytes
      | none, some size => (read "lines" size).map ofLines
      | none, none => .ok (ofLines { sign := none, size := 10 })
    match chosen with
    | .error message => Done.failing 1 message
    | .ok chosen =>
        let titled := o.operands.length > 1 && !o.has 'q' || o.has 'v'
        call.eachFile o.operands (openComplaint name) fun path text =>
          let blank := if some path = o.operands.head? then "" else "\n"
          let title := if titled then blank ++ "==> " ++ path ++ " <==\n" else ""
          Text.encodeBytes title ++ chosen text

def head : Utility := ends "head" front front

def tail : Utility := ends "tail" back back

private def isBlankByte (b : UInt8) : Bool := b == 32 || (9 ≤ b && b ≤ 13)

private def wordCount : (inWord : Bool) → Bytes → Nat
  | _, [] => 0
  | inWord, b :: rest =>
      if isBlankByte b then wordCount false rest
      else (if inWord then 0 else 1) + wordCount true rest

private def counters (o : Options) (bytes : Bytes) : List Nat :=
  let all := !(o.has 'l' || o.has 'w' || o.has 'c' || o.has 'm')
  (if all || o.has 'l' then [bytes.count 10] else []) ++
  (if all || o.has 'w' then [wordCount false bytes] else []) ++
  (if o.has 'm' then [(Text.ofBytes bytes).length] else []) ++
  (if all || o.has 'c' then [bytes.length] else [])

def wc : Utility := fun call =>
  call.withOptions "wc" "lwcm" "" none 1 fun o =>
    let paths := if o.operands.isEmpty then ["-"] else o.operands
    let read := paths.map fun path => (path, call.read path)
    let total := (read.map fun
      | (_, .ok bytes) => bytes
      | (_, .error _) => []).flatten
    let single := read.length = 1 && (counters o total).length = 1
    let known := !paths.contains "-" || call.inputIsFile
    let width :=
      if single then 1 else if known then (Text.natText total.length).length else 7
    let row (numbers : List Nat) (title : String) : Bytes :=
      let cells := numbers.map fun n => padLeft width (Text.natText n)
      Text.encodeBytes (String.intercalate " " cells ++ title ++ "\n")
    let done := call.eachFile o.operands (plainComplaint "wc") fun path bytes =>
      row (counters o bytes) (if o.operands.isEmpty then "" else " " ++ path)
    if read.length ≤ 1 then done
    else { done with output := done.output ++ [(1, row (counters o total) " total")] }

def tee : Utility := fun call =>
  call.withOptions "tee" "ai" "" none 1 fun o =>
    let start : Done := { output := [(1, call.input)], disk := some call.disk }
    o.operands.foldl (fun done path =>
      if path = "/dev/stderr" || path = "/dev/fd/2" then
        { done with output := done.output ++ [(2, call.input)] }
      else if path = "/dev/stdout" || path = "/dev/fd/1" then
        { done with output := done.output ++ [(1, call.input)] }
      else if path = "/dev/null" then done
      else
        let disk := done.disk.getD call.disk
        let before := if o.has 'a' then (disk.readBytes path).toOption.getD [] else []
        match disk.writeBytes path (before ++ call.input) with
        | .ok disk => { done with disk := some disk }
        | .error e =>
            { done with
              output := done.output ++ [Done.complaint (plainComplaint "tee" path e)]
              status := 1 }) start

def tac : Utility := fun call =>
  call.withOptions "tac" "" "" none 1 fun o =>
    call.eachFile o.operands (openComplaint "tac") fun _ bytes => (lineChunks bytes).reverse.flatten

def rev : Utility := fun call =>
  call.withOptions "rev" "" "" none 1 fun o =>
    call.eachFile o.operands (plainComplaint "rev") fun _ bytes =>
      ((textLines bytes).map fun line => lineBytes line.reverse).flatten

-- The lines of all files together; a file that cannot be read counts as empty.
private def allLines (call : Call) (operands : List String) : List Bytes :=
  let paths := if operands.isEmpty then ["-"] else operands
  (paths.map fun path => (lineChunks ((call.read path).toOption.getD [])).map withoutFeed).flatten

private def leadingNumber (line : Bytes) : Int :=
  let cs := Text.trimStart (Text.ofBytes line)
  match cs with
  | '-' :: cs => -(Text.decimalValue (cs.takeWhile Char.isDigit) : Int)
  | _ => Text.decimalValue (cs.takeWhile Char.isDigit)

private def bytesLe : Bytes → Bytes → Bool
  | [], _ => true
  | _ :: _, [] => false
  | a :: as, b :: bs => if a = b then bytesLe as bs else decide (a < b)

private def dropRepeats : List Bytes → List Bytes
  | [] => []
  | [line] => [line]
  | a :: b :: lines => if a = b then dropRepeats (b :: lines) else a :: dropRepeats (b :: lines)

def sort : Utility := fun call =>
  call.withOptions "sort" "nru" "" none 2 fun o =>
    let le (a b : Bytes) : Bool :=
      if o.has 'n' && leadingNumber a ≠ leadingNumber b then leadingNumber a ≤ leadingNumber b
      else bytesLe a b
    let sorted := (allLines call o.operands).mergeSort le
    let sorted := if o.has 'r' then sorted.reverse else sorted
    let sorted := if o.has 'u' then dropRepeats sorted else sorted
    let unread := o.operands.findSome? fun path =>
      match call.read path with
      | .ok _ => none
      | .error e => some ("sort: cannot read: " ++ path ++ ": " ++ e.reason)
    match unread with
    | some message => Done.failing 2 message
    | none => Done.writing (sorted.map (· ++ [10])).flatten

private def runs : List Bytes → List (Bytes × Nat)
  | [] => []
  | line :: lines =>
      match runs lines with
      | (next, n) :: others =>
          if next = line then (next, n + 1) :: others else (line, 1) :: (next, n) :: others
      | [] => [(line, 1)]

def uniq : Utility := fun call =>
  call.withOptions "uniq" "cdu" "" none 1 fun o =>
    let kept := (runs (allLines call o.operands)).filter fun (_, n) =>
      (!o.has 'd' || n > 1) && (!o.has 'u' || n = 1)
    Done.writing (kept.map fun (line, n) =>
      let number := if o.has 'c' then padLeft 7 (Text.natText n) ++ " " else ""
      Text.encodeBytes number ++ line ++ [10]).flatten

private def sequence (first step last : Int) : List Int :=
  let length :=
    if step > 0 then (last - first) / step + 1
    else if step < 0 then (first - last) / -step + 1
    else 0
  (List.range (min length.toNat 100000)).map fun (i : Nat) => first + step * (i : Int)

def seq : Utility := fun call =>
  let (separator, arguments) := match call.arguments with
    | "-s" :: text :: rest => (text, rest)
    | first :: rest =>
        match first.toList with
        | '-' :: 's' :: c :: cs => (String.ofList (c :: cs), rest)
        | _ => ("\n", first :: rest)
    | [] => ("\n", [])
  let write (numbers : List Int) : Done :=
    if numbers.isEmpty then {}
    else
      Done.writing (Text.encodeBytes
        (String.intercalate separator (numbers.map Text.intText) ++ "\n"))
  match arguments.mapM fun a => Text.int64? a.toList with
  | some [last] => write (sequence 1 1 last)
  | some [first, last] => write (sequence first 1 last)
  | some [first, step, last] => write (sequence first step last)
  | some [] => fail "missing operand"
  | some (_ :: _ :: _ :: _ :: _) => fail ("extra operand '" ++ (arguments[3]?).getD "" ++ "'")
  | none =>
      let bad := (arguments.find? fun a => (Text.int64? a.toList).isNone).getD ""
      fail ("invalid floating point argument: '" ++ bad ++ "'")
where
  fail (text : String) : Done :=
    Done.failing 1 ("seq: " ++ text ++ "\nTry 'seq --help' for more information.")

end PathEquiv.Shell.Utility
