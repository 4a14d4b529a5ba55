import PathEquiv.Shell.Utility

set_option autoImplicit false

namespace PathEquiv.Shell.Utility

private def dropSlashes (cs : List Char) : List Char :=
  (cs.reverse.dropWhile (· == '/')).reverse

private def lastPart (cs : List Char) : List Char :=
  (cs.reverse.takeWhile (· != '/')).reverse

private def baseName (path : String) : List Char :=
  let cs := dropSlashes path.toList
  if cs.isEmpty && !path.isEmpty then ['/'] else lastPart cs

private def writeLine (cs : List Char) : Done :=
  Done.writing (lineBytes cs)

def basename : Utility := fun call =>
  match call.arguments with
  | [path] => writeLine (baseName path)
  | [path, ending] =>
      let name := baseName path
      let kept := name.take (name.length - ending.length)
      writeLine (if !kept.isEmpty && kept ++ ending.toList = name then kept else name)
  | [] => Done.failing 1 "basename: missing operand\nTry 'basename --help' for more information."
  | _ => Done.failing 1 "basename: extra operand\nTry 'basename --help' for more information."

def dirname : Utility := fun call =>
  match call.arguments with
  | [path] =>
      let cs := dropSlashes path.toList
      let parent := cs.take (cs.length - (lastPart cs).length)
      writeLine (
        if parent.isEmpty then (if cs.isEmpty && !path.isEmpty then ['/'] else ['.'])
        else
          let parent := dropSlashes parent
          if parent.isEmpty then ['/'] else parent)
  | _ => Done.failing 1 "dirname: missing operand\nTry 'dirname --help' for more information."

-- Applies a change for each operand, and goes on after a failure.
private def eachOperand (name : String) (call : Call) (operands : List String)
    (change : Disk → String → Except String Disk) : Done :=
  if operands.isEmpty then
    Done.failing 1 (name ++ ": missing operand\nTry '" ++ name ++ " --help' for more information.")
  else
    operands.foldl (fun done path =>
      match change (done.disk.getD call.disk) path with
      | .ok disk => { done with disk := some disk }
      | .error message =>
          { done with output := done.output ++ [Done.complaint message], status := 1 })
      { disk := some call.disk }

def touch : Utility := fun call =>
  call.withOptions "touch" "c" "" none 1 fun o =>
    eachOperand "touch" call o.operands fun disk path =>
      match disk.readBytes path with
      | .ok _ | .error .isDirectory => .ok disk
      | .error _ =>
          (disk.writeBytes path []).mapError fun e =>
            "touch: cannot touch '" ++ path ++ "': " ++ e.reason

def mkdir : Utility := fun call =>
  call.withOptions "mkdir" "p" "m" none 1 fun o =>
    eachOperand "mkdir" call o.operands fun disk path =>
      let complain (e : DiskError) :=
        "mkdir: cannot create directory '" ++ path ++ "': " ++ e.reason
      if o.has 'p' then (disk.createDirectories path).mapError complain
      else
        match disk.resolve path with
        | .error e => .error (complain e)
        | .ok names =>
            if (disk.find? names).isSome then .error (complain .alreadyThere)
            else if disk.isDirectory names.dropLast then .ok (disk.put names .directory)
            else .error (complain .notFound)

def rmdir : Utility := fun call =>
  call.withOptions "rmdir" "" "" none 1 fun o =>
    eachOperand "rmdir" call o.operands fun disk path =>
      let complain (reason : String) := "rmdir: failed to remove '" ++ path ++ "': " ++ reason
      match disk.resolve path with
      | .error e => .error (complain e.reason)
      | .ok names =>
          match disk.find? names with
          | none => .error (complain DiskError.notFound.reason)
          | some (.file _) => .error (complain DiskError.notDirectory.reason)
          | some .directory =>
              if (disk.namesIn names).isEmpty then .ok (disk.remove names)
              else .error (complain "Directory not empty")

def rm : Utility := fun call =>
  call.withOptions "rm" "rRfv" "" none 1 fun o =>
    if o.operands.isEmpty && o.has 'f' then {}
    else eachOperand "rm" call o.operands fun disk path =>
      let complain (e : DiskError) := "rm: cannot remove '" ++ path ++ "': " ++ e.reason
      match disk.resolve path with
      | .error e => if o.has 'f' then .ok disk else .error (complain e)
      | .ok names =>
          match disk.find? names with
          | none => if o.has 'f' then .ok disk else .error (complain .notFound)
          | some .directory =>
              if o.has 'r' || o.has 'R' then .ok (disk.remove names)
              else .error (complain .isDirectory)
          | some (.file _) => .ok (disk.remove names)

-- A target that is a directory stands for the file of the same name in it.
private def inDirectory (disk : Disk) (source target : String) : String :=
  match disk.resolve target with
  | .ok names =>
      if disk.isDirectory names then Path.join target (String.ofList (baseName source)) else target
  | .error _ => target

private def copy (name : String) (keep : Bool) : Utility := fun call =>
  call.withOptions name "fprR" "" none 1 fun o =>
    match o.operands with
    | [source, target] =>
        let result : Except String Disk := do
          let bytes ← (call.disk.readBytes source).mapError fun e =>
            name ++ ": cannot stat '" ++ source ++ "': " ++ e.reason
          let target := inDirectory call.disk source target
          let disk ← (call.disk.writeBytes target bytes).mapError fun e =>
            name ++ ": cannot create regular file '" ++ target ++ "': " ++ e.reason
          if keep then return disk
          match disk.resolve source with
          | .ok names => return disk.remove names
          | .error _ => return disk
        match result with
        | .ok disk => { disk := some disk }
        | .error message => Done.failing 1 message
    | _ => Done.failing 1 (name ++ ": missing file operand\nTry '" ++ name ++
        " --help' for more information.")

def cp : Utility := copy "cp" true

def mv : Utility := copy "mv" false

def ls : Utility := fun call =>
  call.withOptions "ls" "1a" "" none 2 fun o =>
    let list (path : String) : Except DiskError (List String) := do
      let names ← call.disk.resolve path
      match call.disk.find? names with
      | none => throw .notFound
      | some (.file _) => return [path]
      | some .directory =>
          return (call.disk.namesIn names).filter fun n => n.toList.head? ≠ some '.'
    let paths := if o.operands.isEmpty then ["."] else o.operands
    paths.foldl (fun done path =>
      match list path with
      | .ok names =>
          let rows := names.map fun n => Text.encodeBytes (n ++ "\n")
          { done with output := done.output ++ [(1, rows.flatten)] }
      | .error e =>
          { done with
            output := done.output ++
              [Done.complaint ("ls: cannot access '" ++ path ++ "': " ++ e.reason)]
            status := 2 }) {}

def chmod : Utility := fun call =>
  match call.arguments with
  | mode :: operands =>
      let runs := mode = "+x" || mode = "a+x" || mode = "u+x" || mode = "755" || mode = "700"
      eachOperand "chmod" call operands fun disk path =>
        match disk.resolve path with
        | .ok names =>
            if (disk.find? names).isNone then
              .error ("chmod: cannot access '" ++ path ++ "': " ++ DiskError.notFound.reason)
            else .ok (if runs then disk.allow names else disk)
        | .error e => .error ("chmod: cannot access '" ++ path ++ "': " ++ e.reason)
  | [] => Done.failing 1 "chmod: missing operand\nTry 'chmod --help' for more information."

end PathEquiv.Shell.Utility
