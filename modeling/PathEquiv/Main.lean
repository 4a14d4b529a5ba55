import PathEquiv.Command.Run
import PathEquiv.Shell.Launch

set_option autoImplicit false

namespace PathEquiv

private def absolute (names : List String) : String :=
  "/" ++ String.intercalate "/" names

private def ancestors (names : List String) : List (List String) :=
  (List.range (names.length + 1)).map names.take

private def addFile (disk : Disk) (names : List String) : IO Disk := do
  let contents := (← IO.FS.readBinFile (absolute names)).toList
  let parents := (ancestors names.dropLast).filter (!·.isEmpty)
  let disk := parents.foldl (fun disk parent => disk.put parent .directory) disk
  let disk := disk.put names (.file contents)
  -- A script says in its first line what runs it.
  return if contents.take 2 = [35, 33] then disk.allow names else disk

private partial def addEntry (disk : Disk) (names : List String) (entry : IO.FS.DirEntry) :
    IO Disk := do
  let names := names ++ [entry.fileName]
  if ← entry.path.isDir then
    (← entry.path.readDir).foldlM (fun d e => addEntry d names e) (disk.put names .directory)
  else
    try addFile disk names catch _ => return disk

private def loadWorkspace (arguments : List String) : IO Workspace := do
  let directory ← IO.currentDir
  let names := Path.names (Path.parts directory.toString)
  let start := (ancestors names).foldl (fun d n => if n.isEmpty then d else d.put n .directory)
    ({ workingDirectory := names } : Disk)
  let tree ← (← directory.readDir).foldlM (fun d e => addEntry d names e) start
  let disk ← (arguments.filter Path.isAbsolute).foldlM (fun d path => do
    try addFile d (Path.names (Path.parts path)) catch _ => return d) tree
  let searchPath := ((← IO.getEnv "PATH").getD "/usr/bin:/bin").splitOn ":"
  return { disk, searchPath, launch := Shell.launch }

private def storeChanges (before after : Disk) : IO Unit := do
  for (names, entry) in after.entries do
    if before.find? names ≠ some entry then
      match entry with
      | .directory => IO.FS.createDirAll (absolute names)
      | .file contents => IO.FS.writeBinFile (absolute names) ⟨contents.toArray⟩

end PathEquiv

open PathEquiv in
def main (arguments : List String) : IO UInt32 := do
  let workspace ← loadWorkspace arguments
  let (printed, after) := execute arguments workspace
  storeChanges workspace.disk after.disk
  IO.print printed.output
  match printed.error with
  | some e => IO.eprintln ("Error: " ++ e.message)
  | none => if printed.exitCode = 2 then IO.eprintln "error: invalid arguments" else pure ()
  return printed.exitCode.toUInt32
