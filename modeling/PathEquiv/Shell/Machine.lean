import PathEquiv.Shell.Script
import PathEquiv.Shell.Utility
import PathEquiv.Workspace

set_option autoImplicit false

namespace PathEquiv.Shell

structure Variable where
  value : String
  exported : Bool := false
  fixed : Bool := false
  deriving Repr, Inhabited

inductive Channel where
  | null
  | stream (number : Nat)
  | source (number : Nat)
  | file (names : List String)
  deriving DecidableEq, Repr, Inhabited

structure Env where
  name : String
  arguments : List String := []
  process : Nat
  bindings : List (String × Variable) := []
  functions : List (String × Command) := []
  descriptors : List (Nat × Channel) := []
  directory : List String
  status : Nat := 0
  line : Nat := 1
  flags : List Char := []
  traps : List (Nat × String) := []
  lastJob : Nat := 0
  job : Nat := 0
  loops : Nat := 0
  locals : Option (List (String × Option Variable)) := none

structure Job where
  process : Nat
  started : Nat
  env : Env
  command : Command

structure EndedJob where
  process : Nat
  ending : Ending
  time : Nat

structure Chunk where
  time : Nat
  job : Nat
  bytes : Bytes

def Chunk.contents (chunks : List Chunk) : Bytes :=
  (chunks.reverse.mergeSort fun a b => a.time ≤ b.time).flatMap Chunk.bytes

structure Machine where
  disk : Disk
  clock : Nat := 0
  limit : Nat
  streams : Array (List Chunk) := #[]
  jobs : List Job := []
  endedJobs : List EndedJob := []
  nextProcess : Nat := 2
  env : Env

namespace Machine

def isRunning (m : Machine) (process : Nat) : Bool :=
  m.jobs.any (·.process == process) ||
    m.endedJobs.any fun job => job.process == process && m.clock < job.time

def stopJob (m : Machine) (process signal : Nat) : Machine :=
  let ended : EndedJob := { process, ending := .signalled signal, time := m.clock }
  let isKept (c : Chunk) : Bool := c.job != process || c.time ≤ m.clock
  { m with
    jobs := m.jobs.filter (·.process != process)
    endedJobs := ended :: m.endedJobs.filter (·.process != process)
    streams := m.streams.map (·.filter isKept) }

end Machine

inductive Stop where
  | exit (status : Nat)
  | leave (loops : Nat)
  | again (loops : Nat)
  | back (status : Nat)
  | signal (number : Nat)
  | deadline
  deriving DecidableEq, Repr

abbrev ShellM := ExceptT Stop (StateM Machine)

namespace ShellM

def env : ShellM Env := do
  return (← get).env

def modifyEnv (f : Env → Env) : ShellM Unit :=
  modify fun m => { m with env := f m.env }

def setStatus (status : Nat) : ShellM Unit :=
  modifyEnv fun e => { e with status }

def disk : ShellM Disk := do
  let m ← get
  return { m.disk with workingDirectory := m.env.directory }

def setDisk (disk : Disk) : ShellM Unit :=
  modify fun m => { m with disk := { disk with workingDirectory := m.disk.workingDirectory } }

private def chunk (m : Machine) (bytes : Bytes) : Chunk :=
  { time := m.clock, job := m.env.job, bytes }

def newStream (contents : Bytes) : ShellM Nat := do
  let m ← get
  set { m with streams := m.streams.push [chunk m contents] }
  return m.streams.size

def streamContents (number : Nat) : ShellM Bytes := do
  return Chunk.contents (((← get).streams[number]?).getD [])

def setStream (number : Nat) (contents : Bytes) : ShellM Unit :=
  modify fun m => { m with streams := m.streams.setIfInBounds number [chunk m contents] }

def appendStream (number : Nat) (contents : Bytes) : ShellM Unit :=
  modify fun m => { m with streams := m.streams.modify number (chunk m contents :: ·) }

def channel? (descriptor : Nat) : ShellM (Option Channel) := do
  return (← env).descriptors.lookup descriptor

def setChannel (descriptor : Nat) (channel : Option Channel) : ShellM Unit :=
  modifyEnv fun e =>
    let others := e.descriptors.filter (·.1 != descriptor)
    match channel with
    | some channel => { e with descriptors := (descriptor, channel) :: others }
    | none => { e with descriptors := others }

def emit (descriptor : Nat) (bytes : Bytes) : ShellM Bool := do
  match ← channel? descriptor with
  | none => return false
  | some .null | some (.source _) => return true
  | some (.stream number) =>
      appendStream number bytes
      return true
  | some (.file names) =>
      let m ← get
      let before := match m.disk.find? names with
        | some (.file contents) => contents
        | _ => []
      set { m with disk := m.disk.put names (.file (before ++ bytes)) }
      return true

def takeInput : ShellM (Bytes × Bool) := do
  match ← channel? 0 with
  | some (.stream number) =>
      let contents ← streamContents number
      setStream number []
      return (contents, false)
  | some (.source number) =>
      let contents ← streamContents number
      setStream number []
      return (contents, true)
  | _ => return ([], false)

def takeLine : ShellM Bytes := do
  match ← channel? 0 with
  | some (.stream number) | some (.source number) =>
      let contents ← streamContents number
      let line := (lineChunks contents).headD []
      setStream number (contents.drop line.length)
      return line
  | _ => return []

def complain (text : String) : ShellM Unit := do
  let e ← env
  let _ ← emit 2 (Text.encodeBytes (e.name ++ ": " ++ Text.natText e.line ++ ": " ++ text ++ "\n"))

def pass (milliseconds : Nat) : ShellM Unit := do
  let m ← get
  let clock := m.clock + milliseconds
  if m.limit ≤ clock then
    set { m with clock := m.limit }
    throw .deadline
  else set { m with clock }

def newProcess : ShellM Nat := do
  let m ← get
  set { m with nextProcess := m.nextProcess + 1 }
  return m.nextProcess

def valueOf? (name : String) : ShellM (Option String) := do
  return ((← env).bindings.lookup name).map Variable.value

def putVariable (name : String) (v : Option Variable) : ShellM Unit :=
  modifyEnv fun e =>
    let others := e.bindings.filter (·.1 != name)
    { e with bindings := (v.map fun v => (name, v)).toList ++ others }

def setVariable (name value : String) : ShellM Unit := do
  let before := ((← env).bindings.lookup name).getD { value }
  if before.fixed then
    complain (name ++ ": is read only")
    throw (.exit 2)
  else putVariable name (some { before with value })

def exportVariable (name : String) : ShellM Unit := do
  let before := ((← env).bindings.lookup name).getD { value := "" }
  putVariable name (some { before with exported := true })

def fixVariable (name : String) : ShellM Unit := do
  let before := ((← env).bindings.lookup name).getD { value := "" }
  putVariable name (some { before with fixed := true })

def unsetVariable (name : String) : ShellM Unit :=
  putVariable name none

def inSubshell (body : ShellM Unit) : ShellM Unit := do
  let saved ← env
  let restore (status : Nat) : ShellM Unit := modifyEnv fun _ => { saved with status }
  let ended : Option Stop ← tryCatch (do body; pure none) fun stop => pure (some stop)
  match ended with
  | none => restore (← env).status
  | some (.exit status) | some (.back status) => restore status
  | some (.leave _) | some (.again _) => restore (← env).status
  | some stop => do
      restore saved.status
      throw stop

def withDescriptors {α : Type} (body : ShellM α) : ShellM α := do
  let saved := (← env).descriptors
  let restore : ShellM Unit := modifyEnv fun e => { e with descriptors := saved }
  let result : Except Stop α ← tryCatch (do return .ok (← body)) fun stop => pure (.error stop)
  restore
  match result with
  | .ok value => return value
  | .error stop => throw stop

def capture (body : ShellM Unit) : ShellM Bytes := do
  let number ← newStream []
  inSubshell do
    setChannel 1 (some (.stream number))
    body
  streamContents number

end ShellM

end PathEquiv.Shell
