import PathEquiv.Shell.Builtin
import PathEquiv.Shell.Reading

set_option autoImplicit false

namespace PathEquiv.Shell

abbrev Evaluator := (tested : Bool) → Command → ShellM Unit

namespace Eval

def runText (eval : Evaluator) (text : List Char) : ShellM Unit := do
  let script := Script.ofText text
  for command in script.commands do eval false command
  match script.fault with
  | none => pure ()
  | some fault => do
      let _ ← ShellM.modifyEnv fun e => { e with line := fault.line }
      ShellM.complain ("Syntax error: " ++ fault.message)
      throw (.exit 2)

def output (eval : Evaluator) (text : List Char) : ShellM Bytes :=
  ShellM.capture (runText eval text)

private def runExitTrap (eval : Evaluator) : ShellM Unit := do
  match (← ShellM.env).traps.lookup 0 with
  | none => pure ()
  | some action => do
      ShellM.modifyEnv fun e => { e with traps := e.traps.filter (·.1 != 0) }
      let status := (← ShellM.env).status
      runText eval action.toList
      ShellM.setStatus status

def asProcess (eval : Evaluator) (body : ShellM Unit) : ShellM Ending := do
  let saved ← ShellM.env
  let finish (stop : Stop) : ShellM Ending :=
    match stop with
    | .exit status | .back status => return .exited status
    | .leave _ | .again _ => do return .exited (← ShellM.env).status
    | .signal number => return .signalled number
    | .deadline => throw .deadline
  let first ← tryCatch (do body; return .exited (← ShellM.env).status) finish
  let ending ← match first with
    | .exited status => do
        ShellM.setStatus status
        tryCatch (do runExitTrap eval; return .exited status) finish
    | other => pure other
  ShellM.modifyEnv fun _ => saved
  return ending

def mostJobs : Nat := 1000

def runJobs (eval : Evaluator) : (fuel : Nat) → ShellM Unit
  | 0 => return
  | fuel + 1 => do
      let m ← get
      match m.jobs with
      | [] => return
      | job :: jobs => do
          let limit := m.limit + 1000000000
          set { m with jobs, env := job.env, clock := job.started, limit }
          let ending ← tryCatch (asProcess eval (eval false job.command)) fun _ =>
            pure (.signalled 9)
          modify fun after =>
            let ended : EndedJob := { process := job.process, ending, time := after.clock }
            { after with
              env := m.env, clock := m.clock, limit := m.limit
              endedJobs := ended :: after.endedJobs }
          runJobs eval fuel

inductive Program where
  | utility (run : Utility)
  | standard (name : String)
  | script (path : String) (contents : Bytes)

private def standardPrograms : List String :=
  ["sh", "dash", "bash", "env", "sleep", "timeout", "nohup", "nice", "setsid", "xargs", "yes"]

private def systemDirectories : List String := ["/bin", "/usr/bin", "/usr/local/bin"]

private def systemPlaces : List String :=
  systemDirectories ++ ["/dev", "/dev/null", "/etc", "/etc/hosts", "/etc/passwd", "/usr"]

private def systemProgram? (name : String) : Option Program :=
  if standardPrograms.contains name then some (.standard name)
  else (Utility.ofName? name).map .utility

private def splitLast (path : String) : String × String :=
  let name := (path.toList.reverse.takeWhile (· != '/')).reverse
  (String.ofList (path.toList.take (path.length - name.length - 1)), String.ofList name)

private def programAt (disk : Disk) (path : String) : Except DiskError Program :=
  let (directory, name) := splitLast path
  match systemDirectories.contains directory, systemProgram? name with
  | true, some program => .ok program
  | _, _ => do
      if systemPlaces.contains path then throw .permissionDenied
      let names ← disk.resolve path
      match disk.find? names with
      | none => throw .notFound
      | some .directory => throw .permissionDenied
      | some (.file contents) =>
          if disk.mayRun names then return .script path contents else throw .permissionDenied

private def findIn (disk : Disk) (name : String) (denied : Bool) :
    List String → Except DiskError Program
  | [] => .error (if denied then .permissionDenied else .notFound)
  | directory :: directories =>
      match programAt disk (Path.join directory name) with
      | .ok program => .ok program
      | .error .permissionDenied => findIn disk name true directories
      | .error _ => findIn disk name denied directories

def findProgram (disk : Disk) (searchPath : List String) (name : String) :
    Except DiskError Program :=
  if name.isEmpty then .error .notFound
  else if name.toList.contains '/' then programAt disk name
  else findIn disk name false searchPath

private def splitPath (value : String) : List String :=
  (value.toList.splitOn ':').map fun d => if d.isEmpty then "." else String.ofList d

def searchPath : ShellM (List String) := do
  return ((← ShellM.valueOf? "PATH").map splitPath).getD []

def interpreter? (contents : Bytes) : Option (String × List String) :=
  match Text.ofBytes ((lineChunks contents).headD []) with
  | '#' :: '!' :: line =>
      let line := Text.trim line
      let path := line.takeWhile (· != ' ')
      let argument := Text.trim (line.drop path.length)
      if path.isEmpty then none
      else
        some (String.ofList path,
          if argument.isEmpty then [] else [String.ofList argument])
  | _ => none

private def freshShell (eval : Evaluator) (name : String) (arguments : List String)
    (flags text : List Char) : ShellM Unit := do
  let process ← ShellM.newProcess
  ShellM.modifyEnv fun e =>
    { name, arguments, process, job := e.job
      directory := e.directory, descriptors := e.descriptors
      bindings := e.bindings.filter (·.2.exported), flags }
  runText eval text

private def shell (eval : Evaluator) (name : String) : (flags : List Char) → List String →
    ShellM Unit
  | flags, argument :: rest =>
      match argument.toList with
      | '-' :: c :: cs =>
          let letters := c :: cs
          if letters.contains 'c' then
            let flags := flags ++ letters.filter (· != 'c')
            match rest with
            | text :: zero :: arguments => freshShell eval zero arguments flags text.toList
            | [text] => freshShell eval name [] flags text.toList
            | [] => do
                ShellM.modifyEnv fun e => { e with name, line := 0 }
                ShellM.complain "-c requires an argument"
                throw (.exit 2)
          else shell eval name (flags ++ letters) rest
      | _ => do
          match (← ShellM.disk).readBytes argument with
          | .ok contents => freshShell eval argument rest flags (Text.ofBytes contents)
          | .error _ => do
              ShellM.modifyEnv fun e => { e with name, line := 0 }
              ShellM.complain ("cannot open " ++ argument ++ ": No such file")
              throw (.exit 2)
  | flags, [] => do
      let (input, _) ← ShellM.takeInput
      freshShell eval name [] flags (Text.ofBytes input)

def duration? (text : String) : Option Nat :=
  let whole := text.toList.takeWhile Char.isDigit
  let rest := text.toList.drop whole.length
  let (fraction, rest) := match rest with
    | '.' :: rest => (rest.takeWhile Char.isDigit, rest.dropWhile Char.isDigit)
    | _ => ([], rest)
  let unit := match rest with
    | [] | ['s'] => some 1
    | ['m'] => some 60
    | ['h'] => some 3600
    | ['d'] => some 86400
    | _ => none
  if whole.isEmpty && fraction.isEmpty then none
  else
    let thousandths := (fraction ++ ['0', '0', '0']).take 3
    unit.map fun unit => (Text.decimalValue whole * 1000 + Text.decimalValue thousandths) * unit

-- Meanwhile the commands in the background go on.
private def sleep (eval : Evaluator) (arguments : List String) : ShellM Unit := do
  match arguments.mapM duration? with
  | some (d :: ds) => do
      runJobs eval mostJobs
      ShellM.pass (ds.foldl (· + ·) d)
      ShellM.setStatus 0
  | some [] => do
      let _ ← ShellM.emit 2 (Text.encodeBytes
        "sleep: missing operand\nTry 'sleep --help' for more information.\n")
      ShellM.setStatus 1
  | none => do
      let bad := (arguments.find? fun a => (duration? a).isNone).getD ""
      let _ ← ShellM.emit 2 (Text.encodeBytes ("sleep: invalid time interval '" ++ bad ++
        "'\nTry 'sleep --help' for more information.\n"))
      ShellM.setStatus 1

-- Writes to another program as much as it will read; anything else never ends.
private def yes (arguments : List String) : ShellM Unit := do
  let line := if arguments.isEmpty then "y" else String.intercalate " " arguments
  let toProgram := match ← ShellM.channel? 1 with
    | some (.stream number) => decide (2 ≤ number)
    | _ => false
  if toProgram then
    let bytes := Text.encodeBytes (line ++ "\n")
    let _ ← ShellM.emit 1 (List.replicate (endlessSize / bytes.length + 1) bytes).flatten
    ShellM.setStatus 0
  else
    modify fun m => { m with clock := m.limit }
    throw .deadline

private def isAssignment (text : String) : Bool :=
  text.toList.contains '='

private def wrapped (name : String) (arguments : List String) :
    List (String × String) × List String :=
  match name, arguments with
  | "env", _ =>
      let assignments := arguments.takeWhile isAssignment
      (assignments.map fun a =>
        let variableName := a.toList.takeWhile (· != '=')
        (String.ofList variableName, String.ofList (a.toList.drop (variableName.length + 1))),
        arguments.dropWhile isAssignment)
  | "nice", "-n" :: _ :: command => ([], command)
  | _, _ => ([], arguments)

private def withLimit (eval : Evaluator) (duration : String) (body : ShellM Unit) :
    ShellM Unit := do
  match duration? duration with
  | none => do
      let _ ← ShellM.emit 2 (Text.encodeBytes ("timeout: invalid time interval '" ++ duration ++
        "'\nTry 'timeout --help' for more information.\n"))
      ShellM.setStatus 125
  | some 0 => body
  | some length => do
      let outer := (← get).limit
      let own := (← get).clock + length
      modify fun m => { m with limit := min outer own }
      let saved ← ShellM.env
      let result : Option Ending ← tryCatch (some <$> asProcess eval body) fun _ => pure none
      modify fun m => { m with limit := outer, env := saved }
      match result with
      | some (.exited status) => ShellM.setStatus status
      | some (.signalled number) => throw (.signal number)
      | none => if own < outer then ShellM.setStatus 124 else throw .deadline

def runProgram (eval : Evaluator) : (depth : Nat) → (program : Program) → (name : String) →
    (arguments : List String) → ShellM Unit
  | 0, _, _, _ => throw .deadline
  | depth + 1, program, name, arguments => do
      let start (name : String) (arguments : List String) : ShellM Unit := do
        match findProgram (← ShellM.disk) (← searchPath) name with
        | .ok program => runProgram eval depth program name arguments
        | .error e => do
            let (text, status) := match e with
              | .permissionDenied => ("Permission denied", 126)
              | _ => (e.reason, 127)
            let _ ← ShellM.emit 2 (Text.encodeBytes (name ++ ": " ++ text ++ "\n"))
            throw (.exit status)
      match program with
      | .utility utility => ShellM.runUtility utility arguments true
      | .script path contents =>
          match interpreter? contents with
          | some (interpreter, options) => start interpreter (options ++ path :: arguments)
          | none => shell eval name [] (path :: arguments)
      | .standard kind =>
          match kind with
          | "sleep" => sleep eval arguments
          | "yes" => yes arguments
          | "xargs" => do
              let (input, _) ← ShellM.takeInput
              let words := ((Text.ofBytes input).splitOnP Text.isBlank).filter (!·.isEmpty)
              match arguments ++ words.map String.ofList with
              | [] => pure ()
              | command :: arguments => start command arguments
          | "timeout" =>
              match arguments with
              | duration :: command :: arguments =>
                  withLimit eval duration (start command arguments)
              | _ => do
                  let _ ← ShellM.emit 2 (Text.encodeBytes
                    "timeout: missing operand\nTry 'timeout --help' for more information.\n")
                  ShellM.setStatus 125
          | "sh" | "dash" | "bash" => shell eval name [] arguments
          | _ => do
              let (assignments, command) := wrapped kind arguments
              for (variableName, value) in assignments do
                ShellM.setVariable variableName value
                ShellM.exportVariable variableName
              match command with
              | [] => do
                  let shown := (← ShellM.env).bindings.filter (·.2.exported)
                  let lines := shown.map fun (name, v) => name ++ "=" ++ v.value ++ "\n"
                  let _ ← ShellM.emit 1 (Text.encodeBytes (String.join lines))
                  ShellM.setStatus 0
              | command :: arguments => start command arguments

end Eval

end PathEquiv.Shell
