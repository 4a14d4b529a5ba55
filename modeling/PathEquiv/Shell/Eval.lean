import PathEquiv.Shell.Program

set_option autoImplicit false

namespace PathEquiv.Shell

namespace Eval

private def devicePath? (path : String) : Option Nat :=
  match path with
  | "/dev/stdin" => some 0
  | "/dev/stdout" => some 1
  | "/dev/stderr" => some 2
  | _ =>
      let fds := "/dev/fd/".toList
      if fds.isPrefixOf path.toList then Text.natural? (path.toList.drop fds.length) else none

private def openComplaint (path : String) (kind : RedirectKind) (e : DiskError) : String :=
  match kind, e with
  | .input, .notFound => "cannot open " ++ path ++ ": No such file"
  | .input, e => "cannot open " ++ path ++ ": " ++ e.reason
  | _, .notFound => "cannot create " ++ path ++ ": Directory nonexistent"
  | _, e => "cannot create " ++ path ++ ": " ++ e.reason

private def openFile (kind : RedirectKind) (path : String) : ShellM (Except String Channel) := do
  let disk ← ShellM.disk
  let failure (e : DiskError) : ShellM (Except String Channel) :=
    return .error (openComplaint path kind e)
  match devicePath? path with
  | some descriptor => return .ok ((← ShellM.channel? descriptor).getD .null)
  | none =>
      if path = "/dev/null" then return .ok .null
      else if kind = .input then
        let contents : Except DiskError Bytes := match device? path with
          | some contents => .ok contents
          | none => disk.readBytes path
        match contents with
        | .ok contents => return .ok (.source (← ShellM.newStream contents))
        | .error .isDirectory => return .ok .null
        | .error e => failure e
      else
        let before := if kind = .append then (disk.readBytes path).toOption.getD [] else []
        match disk.writeBytes path before, disk.resolve path with
        | .ok disk, .ok names => do
            ShellM.setDisk disk
            return .ok (.file names)
        | .error e, _ | _, .error e => failure e

private def redirect (eval : Evaluator) (r : Redirect) : ShellM Bool := do
  let target ← Expansion.text (output eval) r.target
  match r.kind with
  | .here => do
      ShellM.setChannel r.descriptor (some (.source (← ShellM.newStream (Text.encodeBytes target))))
      return true
  | .share =>
      if target = "-" then
        ShellM.setChannel r.descriptor none
        return true
      else
        match Text.natural? target.toList with
        | none => do
            ShellM.complain "Bad fd number"
            return false
        | some number => do
            match ← ShellM.channel? number with
            | none => do
                ShellM.complain (Text.natText number ++ ": Bad file descriptor")
                return false
            | some channel => do
                ShellM.setChannel r.descriptor (some channel)
                return true
  | kind => do
      match ← openFile kind target with
      | .ok channel => do
          ShellM.setChannel r.descriptor (some channel)
          return true
      | .error message => do
          ShellM.complain message
          return false

private def redirectAll (eval : Evaluator) : List Redirect → ShellM Bool
  | [] => return true
  | r :: rs => do
      if ← redirect eval r then redirectAll eval rs else return false

private def assignAll (eval : Evaluator) (isExport : Bool) :
    List (String × Word) → ShellM Unit
  | [] => return
  | (name, word) :: others => do
      ShellM.setVariable name (← Expansion.text (output eval) word)
      if isExport then ShellM.exportVariable name
      assignAll eval isExport others

private def noteEnding : Ending → ShellM Unit
  | .exited status => ShellM.setStatus status
  | .signalled number => do
      let text := ShellM.signalText number
      if !text.isEmpty then
        let _ ← ShellM.emit 2 (Text.encodeBytes (text ++ "\n"))
      ShellM.setStatus (128 + number)

private def programDepth : Nat := 100

private def startProgram (eval : Evaluator) (name : String) (arguments : List String)
    (inPlace : Bool) : ShellM Unit := do
  let failure (text : String) (status : Nat) : ShellM Unit := do
    ShellM.complain (if inPlace then "exec: " ++ text else text)
    if inPlace then throw (.exit status) else ShellM.setStatus status
  match findProgram (← ShellM.disk) (← searchPath) name with
  | .error .permissionDenied => failure (name ++ ": Permission denied") 126
  | .error _ => failure (name ++ ": not found") 127
  | .ok program => do
      let ending ← asProcess eval (runProgram eval programDepth program name arguments)
      match inPlace, ending with
      | true, .exited status => throw (.exit status)
      | true, .signalled number => throw (.signal number)
      | false, ending => noteEnding ending

private def wait (eval : Evaluator) (numbers : List String) : ShellM Unit := do
  runJobs eval mostJobs
  let m ← get
  let isMeant (job : EndedJob) : Bool :=
    numbers.isEmpty || numbers.contains (Text.natText job.process)
  let meant := m.endedJobs.filter isMeant
  ShellM.pass ((meant.map EndedJob.time).foldl max m.clock - m.clock)
  match numbers.getLast? with
  | none => ShellM.setStatus 0
  | some number =>
      match meant.find? fun job => Text.natText job.process == number with
      | some job => noteEnding job.ending
      | none => ShellM.setStatus 127

private def callFunction (eval : Evaluator) (body : Command) (arguments : List String) :
    ShellM Unit := do
  let saved ← ShellM.env
  ShellM.modifyEnv fun e => { e with arguments, loops := 0, locals := some [] }
  let restore : ShellM Unit := do
    for (name, before) in ((← ShellM.env).locals).getD [] do ShellM.putVariable name before
    ShellM.modifyEnv fun e =>
      { e with arguments := saved.arguments, loops := saved.loops, locals := saved.locals }
  tryCatch (do eval false body; restore) fun stop => do
    restore
    match stop with
    | .back status => ShellM.setStatus status
    | stop => throw stop

private def source (eval : Evaluator) (arguments : List String) : ShellM Unit := do
  let path := arguments.headD ""
  match (← ShellM.disk).readBytes path with
  | .ok contents =>
      tryCatch (runText eval (Text.ofBytes contents)) fun stop =>
        match stop with
        | .back status => ShellM.setStatus status
        | stop => throw stop
  | .error _ => do
      ShellM.complain (".: cannot open " ++ path ++ ": No such file")
      throw (.exit 2)

private def describeCommand (name : String) : ShellM Unit := do
  let e ← ShellM.env
  if (e.functions.lookup name).isSome || (Utility.builtIn? name).isSome then
    let _ ← ShellM.emit 1 (Text.encodeBytes (name ++ "\n"))
    ShellM.setStatus 0
  else
    let disk ← ShellM.disk
    let there (directory : String) : Bool := (findProgram disk [directory] name).toOption.isSome
    match (← searchPath).find? there with
    | some directory => do
        let path := if name.toList.contains '/' then name else Path.join directory name
        let _ ← ShellM.emit 1 (Text.encodeBytes (path ++ "\n"))
        ShellM.setStatus 0
    | none => ShellM.setStatus 127

private def runNamed (eval : Evaluator) (functions : Bool) (name : String)
    (arguments : List String) : ShellM Unit := do
  match ShellM.ownCommand? (runText eval) name arguments with
  | some own => own
  | none =>
      match name, arguments, (← ShellM.env).functions.lookup name with
      | ".", _, _ => source eval arguments
      | "wait", _, _ => wait eval arguments
      | _, _, some body =>
          if functions then callFunction eval body arguments
          else startProgram eval name arguments false
      | _, _, none =>
          match Utility.builtIn? name with
          | some utility => do
              let tree ← ShellM.disk
              let done := utility { arguments, input := [], disk := tree }
              let written ← done.output.mapM fun (descriptor, bytes) => do
                if descriptor = 2 then
                  ShellM.complain (Text.decodeBytes (withoutFeed bytes))
                  return true
                else if bytes.isEmpty then return true
                else ShellM.emit descriptor bytes
              if written.all id then ShellM.setStatus done.status
              else
                ShellM.complain (name ++ ": " ++ name ++ ": I/O error")
                ShellM.setStatus 1
          | none => startProgram eval name arguments false

private def runFields (eval : Evaluator) (name : String) (arguments : List String) :
    ShellM Unit :=
  match name, arguments with
  | "command", "-v" :: name :: _ => describeCommand name
  | "command", name :: arguments => runNamed eval false name arguments
  | _, _ => runNamed eval true name arguments

private def trace (fields : List String) : ShellM Unit := do
  if (← ShellM.env).flags.contains 'x' then
    let _ ← ShellM.emit 2 (Text.encodeBytes ("+ " ++ String.intercalate " " fields ++ "\n"))

private def simple (eval : Evaluator) (line : Nat) (assignments : List (String × Word))
    (words : List Word) (redirects : List Redirect) : ShellM Unit := do
  ShellM.modifyEnv fun e => { e with line }
  let fields := (← words.mapM fun word => Expansion.fields (output eval) word).flatten
  trace fields
  match fields with
  | [] =>
      if words.isEmpty then ShellM.setStatus 0
      ShellM.withDescriptors do
        if ← redirectAll eval redirects then assignAll eval false assignments
        else ShellM.setStatus 2
  | "exec" :: arguments => do
      if !(← redirectAll eval redirects) then throw (.exit 2)
      match arguments with
      | [] => ShellM.setStatus 0
      | name :: arguments => do
          assignAll eval true assignments
          startProgram eval name arguments true
  | name :: arguments =>
      ShellM.withDescriptors do
        if ← redirectAll eval redirects then
          let saved := (← ShellM.env).bindings
          assignAll eval true assignments
          runFields eval name arguments
          if !assignments.isEmpty then
            ShellM.modifyEnv fun e => { e with bindings := saved }
        else ShellM.setStatus 2

private def stopAtFailure (tested : Bool) : ShellM Unit := do
  let e ← ShellM.env
  if !tested && e.status ≠ 0 && e.flags.contains 'e' then throw (.exit e.status)

private def succeeded : ShellM Bool := do
  return (← ShellM.env).status = 0

private def stages (eval : Evaluator) (start : Nat) : List Command → ShellM Unit
  | [] => return
  | [last] => do
      modify fun m => { m with clock := start }
      ShellM.inSubshell (eval false last)
  | stage :: others => do
      modify fun m => { m with clock := start }
      let number ← ShellM.newStream []
      ShellM.inSubshell do
        ShellM.setChannel 1 (some (.stream number))
        eval false stage
      let ended := (← get).clock
      let input ← ShellM.channel? 0
      ShellM.setChannel 0 (some (.stream number))
      stages eval start others
      ShellM.setChannel 0 input
      modify fun m => { m with clock := max m.clock ended }

private def oneRound (body : ShellM Unit) : ShellM Bool := do
  let depth := (← ShellM.env).loops
  let leave : ShellM Unit := ShellM.modifyEnv fun e => { e with loops := depth }
  ShellM.modifyEnv fun e => { e with loops := depth + 1 }
  tryCatch (do body; leave; return true) fun stop => do
    leave
    match stop with
    | .leave (n + 2) => throw (.leave (n + 1))
    | .leave _ => return false
    | .again (n + 2) => throw (.again (n + 1))
    | .again _ => return true
    | stop => throw stop

private def rounds (untilDone : Bool) (condition body : ShellM Unit) :
    (count status : Nat) → ShellM Unit
  | 0, _ => do
      modify fun m => { m with clock := m.limit }
      throw .deadline
  | count + 1, status => do
      let goesOn ← oneRound condition
      if goesOn && (← succeeded) != untilDone then
        if ← oneRound body then rounds untilDone condition body count (← ShellM.env).status
      else ShellM.setStatus status

private def mostRounds : Nat := 20000

private def eachValue (eval : Evaluator) (name : String) (body : Command) :
    List String → ShellM Unit
  | [] => return
  | value :: values => do
      ShellM.setVariable name value
      if ← oneRound (eval false body) then eachValue eval name body values

private def firstArm (eval : Evaluator) (subject : String) :
    List (List Word × Command) → ShellM Unit
  | [] => ShellM.setStatus 0
  | (patterns, command) :: arms => do
      let accepted ← patterns.anyM fun word => do
        return (← Expansion.pattern (output eval) word).accepts subject.toList
      if accepted then eval false command else firstArm eval subject arms

private def startJob (command : Command) : ShellM Unit := do
  let process ← ShellM.newProcess
  let m ← get
  let env : Env := { m.env with
    job := process
    descriptors := (0, Channel.null) :: m.env.descriptors.filter (·.1 != 0) }
  let job : Job := { process, started := m.clock, env, command }
  set { m with jobs := m.jobs ++ [job] }
  ShellM.modifyEnv fun e => { e with lastJob := process, status := 0 }

private def step (eval : Evaluator) : Evaluator := fun tested command =>
  match command with
  | .simple line assignments words redirects => do
      simple eval line assignments words redirects
      stopAtFailure tested
  | .pipeline commands => do
      stages eval (← get).clock commands
      stopAtFailure tested
  | .negation command => do
      eval true command
      ShellM.setStatus (if ← succeeded then 1 else 0)
  | .both left right => do
      eval true left
      if ← succeeded then eval tested right
  | .either left right => do
      eval true left
      if !(← succeeded) then eval tested right
  | .sequence commands => for command in commands do eval tested command
  | .background command => startJob command
  | .redirected command redirects =>
      ShellM.withDescriptors do
        if ← redirectAll eval redirects then eval tested command else ShellM.setStatus 2
  | .subshell body => do
      ShellM.inSubshell (eval tested body)
      stopAtFailure tested
  | .conditional condition yes no => do
      eval true condition
      if ← succeeded then eval tested yes
      else
        match no with
        | some no => eval tested no
        | none => ShellM.setStatus 0
  | .loop untilDone condition body =>
      rounds untilDone (eval true condition) (eval tested body) mostRounds 0
  | .each name words body => do
      let values ← match words with
        | some words => do
            pure (← words.mapM fun word => Expansion.fields (output eval) word).flatten
        | none => do pure (← ShellM.env).arguments
      ShellM.setStatus 0
      eachValue eval name body values
  | .choice subject arms => do
      firstArm eval (← Expansion.text (output eval) subject) arms
  | .function name body => do
      ShellM.modifyEnv fun e =>
        { e with functions := (name, body) :: e.functions, status := 0 }

def run : (fuel : Nat) → Evaluator
  | 0 => fun _ _ => do
      modify fun m => { m with clock := m.limit }
      throw .deadline
  | fuel + 1 => step (run fuel)

end Eval

end PathEquiv.Shell
