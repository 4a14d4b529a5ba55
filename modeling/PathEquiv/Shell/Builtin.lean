import PathEquiv.Shell.Expansion
import PathEquiv.Shell.Utility.Condition
import PathEquiv.Shell.Utility.Lines
import PathEquiv.Shell.Utility.Names
import PathEquiv.Shell.Utility.Select

set_option autoImplicit false

namespace PathEquiv.Shell

namespace Utility

private def joined (arguments : List String) : String :=
  String.intercalate " " arguments

def echo : Utility := fun call =>
  let isOption (a : String) : Bool :=
    match a.toList with
    | '-' :: c :: cs => (c :: cs).all fun c => c == 'n' || c == 'e' || c == 'E'
    | _ => false
  let options := (call.arguments.takeWhile isOption).map String.toList
  let text := joined (call.arguments.dropWhile isOption)
  let feed : Bytes := if options.any (·.contains 'n') then [] else [10]
  if options.any (·.contains 'e') then
    let (bytes, ended) := Format.unescape .afterZero (text.length + 1) text.toList
    Done.writing (bytes ++ if ended then [] else feed)
  else Done.writing (Text.encodeBytes text ++ feed)

def shellEcho : Utility := fun call =>
  let (arguments, feed) := match call.arguments with
    | "-n" :: rest => (rest, ([] : Bytes))
    | all => (all, [10])
  let text := joined arguments
  let (bytes, ended) := Format.unescape .afterZero (text.length + 1) text.toList
  Done.writing (bytes ++ if ended then [] else feed)

def printf : Utility := fun call =>
  match call.arguments with
  | [] => Done.failing 2 "printf: usage: printf format [arg ...]"
  | "--" :: format :: arguments | format :: arguments =>
      let p := Format.format format arguments
      let complaints := p.complaints.map fun text => Done.complaint ("printf: " ++ text)
      { output := complaints ++ [(1, p.output)], status := p.status }

def succeed : Utility := fun _ => {}

def fail : Utility := fun _ => { status := 1 }

def pwd : Utility := fun call =>
  Done.writing (Text.encodeBytes ("/" ++ String.intercalate "/" call.disk.workingDirectory ++ "\n"))

def ofName? : String → Option Utility
  | "true" => some succeed
  | "false" => some fail
  | "echo" => some echo
  | "printf" => some printf
  | "pwd" => some pwd
  | "test" => some test
  | "[" => some bracket
  | "expr" => some expr
  | "cat" => some cat
  | "head" => some head
  | "tail" => some tail
  | "wc" => some wc
  | "tee" => some tee
  | "tac" => some tac
  | "rev" => some rev
  | "sort" => some sort
  | "uniq" => some uniq
  | "seq" => some seq
  | "grep" => some grep
  | "egrep" => some egrep
  | "fgrep" => some fgrep
  | "sed" => some sed
  | "cut" => some cut
  | "tr" => some tr
  | "basename" => some basename
  | "dirname" => some dirname
  | "touch" => some touch
  | "mkdir" => some mkdir
  | "rm" => some rm
  | "rmdir" => some rmdir
  | "cp" => some cp
  | "mv" => some mv
  | "ls" => some ls
  | "chmod" => some chmod
  | _ => none

def builtIn? : String → Option Utility
  | "true" => some succeed
  | "false" => some fail
  | "echo" => some shellEcho
  | "printf" => some printf
  | "pwd" => some pwd
  | "test" => some test
  | "[" => some bracket
  | "umask" => some fun call =>
      if call.arguments.isEmpty then Done.writing (Text.encodeBytes "0022\n") else {}
  | "ulimit" | "hash" | "alias" | "times" => some succeed
  | _ => none

end Utility

namespace ShellM

def runUtility (utility : Utility) (arguments : List String) (takesInput : Bool) :
    ShellM Unit := do
  let (input, inputIsFile) ← if takesInput then takeInput else pure ([], false)
  let done := utility { arguments, input, inputIsFile, disk := ← disk }
  match done.disk with
  | some changed => setDisk changed
  | none => pure ()
  let written ← done.output.mapM fun (descriptor, bytes) =>
    if bytes.isEmpty then pure true else emit descriptor bytes
  setStatus (if written.all id then done.status else 1)

private def parseNumber (text : String) : Option Nat :=
  Text.natural? text.toList

private def statusArgument : List String → ShellM Nat
  | [] => do return (← env).status
  | text :: _ =>
      match parseNumber text with
      | some n => return n % 256
      | none => do
          complain ("exit: Illegal number: " ++ text)
          throw (.exit 2)

private def loops : List String → Nat
  | [] => 1
  | text :: _ => ((parseNumber text).getD 1).max 1

-- Outside loops there is nothing to leave.
private def inLoop (stop : Nat → Stop) : ShellM Unit := do
  let most := (← env).loops
  if most = 0 then setStatus 0 else throw (stop most)

private def splitAssignment (text : String) : String × Option String :=
  let name := text.toList.takeWhile (· != '=')
  match text.toList.drop name.length with
  | '=' :: value => (String.ofList name, some (String.ofList value))
  | _ => (text, none)

-- Assigns the names that have a value; `before` and `after` are done for each name.
private def declare (before after : String → ShellM Unit) (arguments : List String) :
    ShellM Unit := do
  for argument in arguments do
    let (name, value) := splitAssignment argument
    before name
    match value with
    | some value => setVariable name value
    | none => pure ()
    after name
  setStatus 0

private def makeLocal (name : String) : ShellM Unit := do
  let e ← env
  match e.locals with
  | some found =>
      if !found.any (·.1 == name) then
        modifyEnv fun e => { e with locals := some ((name, e.bindings.lookup name) :: found) }
  | none => do
      complain "local: not in a function"
      throw (.exit 2)

private def longFlags : List (String × Char) :=
  [("errexit", 'e'), ("nounset", 'u'), ("xtrace", 'x'), ("noglob", 'f')]

private def setOptions : (fuel : Nat) → List String → ShellM Unit
  | 0, _ => return
  | _, [] => return
  | fuel + 1, argument :: rest => do
      match argument.toList with
      | ['-', '-'] => modifyEnv fun e => { e with arguments := rest }
      | ['-', 'o'] => do
          match longFlags.lookup (rest.headD "") with
          | some flag => do
              modifyEnv fun e => { e with flags := e.flags ++ [flag].filter (!e.flags.contains ·) }
              setOptions fuel (rest.drop 1)
          | none => do
              complain ("set: Illegal option -o " ++ rest.headD "")
              throw (.exit 2)
      | '-' :: flags => do
          modifyEnv fun e => { e with flags := e.flags ++ flags.filter (!e.flags.contains ·) }
          setOptions fuel rest
      | '+' :: flags => do
          modifyEnv fun e => { e with flags := e.flags.filter (!flags.contains ·) }
          setOptions fuel rest
      | _ => modifyEnv fun e => { e with arguments := argument :: rest }

def signalNumber? (text : String) : Option Nat :=
  let names := [("EXIT", 0), ("HUP", 1), ("INT", 2), ("QUIT", 3), ("ILL", 4), ("TRAP", 5),
    ("ABRT", 6), ("BUS", 7), ("FPE", 8), ("KILL", 9), ("USR1", 10), ("SEGV", 11), ("USR2", 12),
    ("PIPE", 13), ("ALRM", 14), ("TERM", 15), ("CHLD", 17), ("CONT", 18), ("STOP", 19),
    ("TSTP", 20)]
  let short := match text.toList with
    | 'S' :: 'I' :: 'G' :: rest => String.ofList rest
    | _ => text
  (parseNumber text).or (names.lookup short)

def signalText : Nat → String
  | 1 => "Hangup"
  | 3 => "Quit"
  | 4 => "Illegal instruction"
  | 5 => "Trace/breakpoint trap"
  | 6 => "Aborted"
  | 7 => "Bus error"
  | 8 => "Floating point exception"
  | 9 => "Killed"
  | 10 => "User defined signal 1"
  | 11 => "Segmentation fault"
  | 12 => "User defined signal 2"
  | 14 => "Alarm clock"
  | 15 => "Terminated"
  | _ => ""

private def killArguments : List String → Option (Nat × List String)
  | "-s" :: name :: rest | "-n" :: name :: rest => (signalNumber? name).map fun n => (n, rest)
  | "--" :: rest => some (15, rest)
  | argument :: rest =>
      match argument.toList with
      | '-' :: c :: cs => (signalNumber? (String.ofList (c :: cs))).map fun n =>
          (n, match rest with | "--" :: rest => rest | _ => rest)
      | _ => some (15, argument :: rest)
  | [] => none

-- By default these signals do nothing.
private def isHarmless (signal : Nat) : Bool :=
  signal == 0 || signal == 17 || signal == 18 || signal == 23 || signal == 28

private def sendSignal (run : List Char → ShellM Unit) (signal : Nat) (target : String) :
    ShellM Unit := do
  let e ← env
  let own := [Text.natText e.process, "0", "-" ++ Text.natText e.process]
  if own.contains target then
    match e.traps.lookup signal with
    | some action => if signal ≠ 9 then run action.toList else throw (.signal signal)
    | none =>
        if isHarmless signal then setStatus 0
        -- A stopped program waits until the time is up.
        else if signal = 19 || signal = 20 then
          modify fun m => { m with clock := m.limit }
          throw .deadline
        else throw (.signal signal)
  else
    let m ← get
    let process := ((parseNumber target).filter fun n => m.isRunning n).getD 0
    if process = 0 then
      complain "kill: No such process\n"
      setStatus 1
    else
      if !isHarmless signal then set (m.stopJob process signal)
      setStatus 0

private def kill (run : List Char → ShellM Unit) (arguments : List String) : ShellM Unit := do
  match killArguments arguments with
  | some (signal, first :: others) =>
      for target in first :: others do sendSignal run signal target
  | _ =>
      complain (String.join ["kill: Usage: kill [-s sigspec | -signum | -sigspec] ",
        "[pid | job]... or\nkill -l [exitstatus]"])
      setStatus 2

private def trap (arguments : List String) : ShellM Unit := do
  match arguments with
  | action :: signals =>
      let numbers := signals.filterMap signalNumber?
      modifyEnv fun e =>
        let others := e.traps.filter fun t => !numbers.contains t.1
        if action = "-" then { e with traps := others }
        else { e with traps := numbers.map (fun n => (n, action)) ++ others }
  | [] => pure ()
  setStatus 0

private def changeDirectory (arguments : List String) : ShellM Unit := do
  let target := arguments.headD "/"
  let tree ← disk
  match tree.resolve target with
  | .ok names =>
      if tree.isDirectory names then
        modifyEnv fun e => { e with directory := names, status := 0 }
      else
        complain ("cd: can't cd to " ++ target)
        setStatus 2
  | .error _ =>
      complain ("cd: can't cd to " ++ target)
      setStatus 2

-- The last name takes the rest of the line.
private def assignWords (separators : List Char) : List String → List Char → ShellM Unit
  | [], _ => return
  | [name], line => setVariable name (String.ofList (Text.trim line))
  | name :: names, line => do
      let line := line.dropWhile separators.contains
      let word := line.takeWhile fun c => !separators.contains c
      setVariable name (String.ofList word)
      assignWords separators names (line.drop word.length)

private def readLine (arguments : List String) : ShellM Unit := do
  let names := arguments.filter fun a => a.toList.head? != some '-'
  let line ← takeLine
  let separators := ((← valueOf? "IFS").getD " \t\n").toList
  assignWords separators names (Text.ofBytes (withoutFeed line))
  setStatus (if line.getLast? = some 10 then 0 else 1)

def ownCommand? (run : List Char → ShellM Unit) (name : String) (arguments : List String) :
    Option (ShellM Unit) :=
  match name with
  | ":" => some (setStatus 0)
  | "exit" => some do throw (.exit (← statusArgument arguments))
  | "return" => some do throw (.back (← statusArgument arguments))
  | "break" => some (inLoop fun most => .leave (min most (loops arguments)))
  | "continue" => some (inLoop fun most => .again (min most (loops arguments)))
  | "export" => some (declare (fun _ => pure ()) exportVariable (arguments.filter (· != "-p")))
  | "readonly" => some (declare (fun _ => pure ()) fixVariable arguments)
  | "local" => some (declare makeLocal (fun _ => pure ()) arguments)
  | "unset" => some do
      for argument in arguments do
        if ((← env).bindings.lookup argument).any Variable.fixed then
          complain ("unset: " ++ argument ++ ": is read only")
          throw (.exit 2)
        unsetVariable argument
      setStatus 0
  | "set" => some do
      setOptions (arguments.length + 1) arguments
      setStatus 0
  | "shift" => some do
      let n := loops arguments
      if (← env).arguments.length < n then
        complain "shift: can't shift that many"
        throw (.exit 2)
      modifyEnv fun e => { e with arguments := e.arguments.drop n, status := 0 }
  | "eval" => some (run (Utility.joined arguments).toList)
  | "trap" => some (trap arguments)
  | "kill" => some (kill run arguments)
  | "cd" => some (changeDirectory arguments)
  | "read" => some (readLine arguments)
  | _ => none

end ShellM

end PathEquiv.Shell
