import PathEquiv.Disk
import PathEquiv.Shell.Format

set_option autoImplicit false

namespace PathEquiv.Shell

structure Call where
  arguments : List String
  input : Bytes
  inputIsFile : Bool := false
  disk : Disk

structure Done where
  output : List (Nat × Bytes) := []
  status : Nat := 0
  disk : Option Disk := none

abbrev Utility := Call → Done

namespace Done

def writing (bytes : Bytes) : Done :=
  { output := [(1, bytes)] }

def withStatus (status : Nat) (done : Done) : Done :=
  { done with status }

def complaint (text : String) : Nat × Bytes :=
  (2, Text.encodeBytes (text ++ "\n"))

def failing (status : Nat) (message : String) : Done :=
  { output := [complaint message], status }

end Done

def endlessSize : Nat := 500000

def device? (path : String) : Option Bytes :=
  match path with
  | "/dev/null" => some []
  | "/dev/zero" => some (List.replicate endlessSize 0)
  | _ => none

def Call.read (call : Call) (path : String) : Except DiskError Bytes :=
  if path = "-" || path = "/dev/stdin" then .ok call.input
  else if let some contents := device? path then .ok contents
  else call.disk.readBytes path

def lineChunks (bytes : Bytes) : List Bytes :=
  go [] [] bytes
where
  go (lines : List Bytes) (line : Bytes) : Bytes → List Bytes
  | [] => (if line.isEmpty then lines else line.reverse :: lines).reverse
  | b :: rest =>
      if b = 10 then go ((b :: line).reverse :: lines) [] rest else go lines (b :: line) rest

def withoutFeed (line : Bytes) : Bytes :=
  if line.getLast? = some 10 then line.dropLast else line

def textLines (bytes : Bytes) : List (List Char) :=
  (lineChunks bytes).map fun line => Text.ofBytes (withoutFeed line)

def lineBytes (line : List Char) : Bytes :=
  Text.encodeBytes (String.ofList line) ++ [10]

structure Options where
  given : List (Char × String) := []
  operands : List String := []

namespace Options

def has (o : Options) (letter : Char) : Bool :=
  o.given.any (·.1 == letter)

def value? (o : Options) (letter : Char) : Option String :=
  (o.given.reverse.lookup letter)

def values (o : Options) (letter : Char) : List String :=
  (o.given.filter (·.1 == letter)).map (·.2)

private def addFlag (letter : Char) (o : Options) : Options :=
  { o with given := (letter, "") :: o.given }

private def addValue (letter : Char) (value : String) (o : Options) : Options :=
  { o with given := (letter, value) :: o.given }

private def letters (flags valued : List Char) : List Char → List String →
    Except String (List (Char × String) × List String)
  | [], next => .ok ([], next)
  | c :: cs, next =>
      if valued.contains c then
        match cs, next with
        | [], value :: next => .ok ([(c, value)], next)
        | [], [] => .error ("option requires an argument -- '" ++ String.ofList [c] ++ "'")
        | _, _ => .ok ([(c, String.ofList cs)], next)
      else if flags.contains c then do
        let (others, next) ← letters flags valued cs next
        return ((c, "") :: others, next)
      else if c = '-' then .error ("unrecognized option '--" ++ String.ofList cs ++ "'")
      else .error ("invalid option -- '" ++ String.ofList [c] ++ "'")

def parse (flags valued : List Char) (number : Option Char) :
    (fuel : Nat) → List String → Except String Options
  | 0, _ => .ok {}
  | _, [] => .ok {}
  | _, "--" :: rest => .ok { operands := rest }
  | fuel + 1, argument :: rest =>
      match argument.toList with
      | '-' :: c :: cs =>
          match number, (c :: cs).all Char.isDigit with
          | some letter, true =>
              (parse flags valued number fuel rest).map (addValue letter (String.ofList (c :: cs)))
          | _, _ => do
              let (found, rest) ← letters flags valued (c :: cs) rest
              let others ← parse flags valued number fuel rest
              return { others with given := found ++ others.given }
      | _ => do
          let others ← parse flags valued number fuel rest
          return { others with operands := argument :: others.operands }

end Options

def Call.withOptions (call : Call) (name flags valued : String) (number : Option Char)
    (status : Nat) (run : Options → Done) : Done :=
  match Options.parse flags.toList valued.toList number (call.arguments.length + 1)
      call.arguments with
  | .ok options => run options
  | .error fault =>
      Done.failing status (name ++ ": " ++ fault ++ "\nTry '" ++ name ++
        " --help' for more information.")

def Call.eachFile (call : Call) (operands : List String) (complain : String → DiskError → String)
    (run : (path : String) → Bytes → Bytes) : Done :=
  let paths := if operands.isEmpty then ["-"] else operands
  paths.foldl (fun done path =>
    match call.read path with
    | .ok bytes => { done with output := done.output ++ [(1, run path bytes)] }
    | .error e =>
        { done with
          output := done.output ++ [Done.complaint (complain path e)]
          status := 1 }) {}

end PathEquiv.Shell
