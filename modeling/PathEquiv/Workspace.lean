import PathEquiv.Disk

set_option autoImplicit false

namespace PathEquiv

inductive Ending where
  | exited (status : Nat)
  | signalled (number : Nat)
  deriving DecidableEq, Repr, Inhabited

-- A program whose time was up is stopped and has no ending of its own.
structure Finished where
  ending : Option Ending
  output : List UInt8
  errors : List UInt8
  elapsedMs : Nat
  disk : Disk

/-- The operating system as it is seen from here. A program is looked for in the directories of the
search path and started with its arguments and no input; it is stopped with all that it has started
once its milliseconds are over. What programs do is left open, and so is why one cannot be
started. -/
abbrev Launcher :=
  (disk : Disk) → (searchPath : List String) → (program : String) → (arguments : List String) →
    (limitMs : Nat) → Except String Finished

structure Workspace where
  disk : Disk := {}
  searchPath : List String := ["/usr/bin", "/bin"]
  launch : Launcher
  deriving Inhabited

def Workspace.run (w : Workspace) (program : String) (arguments : List String) (limitMs : Nat) :
    Except String Finished :=
  w.launch w.disk w.searchPath program arguments limitMs

end PathEquiv
