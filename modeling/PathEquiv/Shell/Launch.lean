import PathEquiv.Shell.Eval

set_option autoImplicit false

/-!
# A launcher for scripts

An operating system that knows a shell and the usual utilities, so that a script can stand in for a
solver. Solvers are run through whatever launcher a workspace has, and nothing is proved of this
one.
-/

namespace PathEquiv.Shell

namespace Launch

private def depth : Nat := 500

private def find (disk : Disk) (searchPath : List String) (name : String) :
    Except DiskError Eval.Program := do
  let program ← Eval.findProgram disk searchPath name
  match program with
  | .script _ contents =>
      match Eval.interpreter? contents with
      | none => throw .badFormat
      | some (interpreter, _) => do
          let _ ← Eval.findProgram disk [] interpreter
          return program
  | _ => return program

private def machine (disk : Disk) (searchPath : List String) (name : String) (limitMs : Nat) :
    Machine :=
  let exported (value : String) : Variable := { value, exported := true }
  { disk
    limit := limitMs
    streams := #[[], []]
    env := {
      name, process := 1
      directory := disk.workingDirectory
      descriptors := [(0, .null), (1, .stream 0), (2, .stream 1)]
      bindings := [("PATH", exported (String.intercalate ":" searchPath)),
        ("PWD", exported ("/" ++ String.intercalate "/" disk.workingDirectory))] } }

private def session (program : Eval.Program) (name : String) (arguments : List String) :
    ShellM (Option Ending) := do
  let eval := Eval.run depth
  let body : ShellM Ending := do
    ShellM.pass 0
    Eval.asProcess eval (Eval.runProgram eval depth program name arguments)
  let ending ← tryCatch (some <$> body) fun _ => pure none
  Eval.runJobs eval Eval.mostJobs
  return ending

end Launch

def launch : Launcher := fun disk searchPath name arguments limitMs => do
  if (name :: arguments).any fun text => text.toList.contains '\x00' then
    throw "nul byte found in provided data"
  let program ← (Launch.find disk searchPath name).mapError DiskError.message
  let (result, m) :=
    (Launch.session program name arguments).run (Launch.machine disk searchPath name limitMs)
  let ending := result.toOption.bind id
  -- At the limit everything is stopped, also in the background.
  let isWritten (c : Chunk) : Bool := ending.isSome || c.time < limitMs
  let contents (number : Nat) : Bytes :=
    Chunk.contents (((m.streams[number]?).getD []).filter isWritten)
  return {
    ending
    output := contents 0
    errors := contents 1
    elapsedMs := m.clock
    disk := { m.disk with workingDirectory := disk.workingDirectory } }

end PathEquiv.Shell
