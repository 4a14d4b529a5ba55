import PathEquiv.Path
import PathEquiv.Text.Decimal

set_option autoImplicit false

namespace PathEquiv

inductive DiskError where
  | notFound
  | alreadyThere
  | notDirectory
  | isDirectory
  | nameTooLong
  | permissionDenied
  | badFormat
  | nulByte
  | notText
  deriving DecidableEq, Repr

namespace DiskError

def reason : DiskError → String
  | notFound => "No such file or directory"
  | alreadyThere => "File exists"
  | notDirectory => "Not a directory"
  | isDirectory => "Is a directory"
  | nameTooLong => "File name too long"
  | permissionDenied => "Permission denied"
  | badFormat => "Exec format error"
  | nulByte => "file name contained an unexpected NUL byte"
  | notText => "stream did not contain valid UTF-8"

def code? : DiskError → Option Nat
  | notFound => some 2
  | badFormat => some 8
  | permissionDenied => some 13
  | alreadyThere => some 17
  | notDirectory => some 20
  | isDirectory => some 21
  | nameTooLong => some 36
  | nulByte | notText => none

def message (e : DiskError) : String :=
  match e.code? with
  | some code => e.reason ++ " (os error " ++ Text.natText code ++ ")"
  | none => e.reason

end DiskError

inductive DiskEntry where
  | directory
  | file (contents : List UInt8)
  deriving DecidableEq, Repr, Inhabited

structure Disk where
  workingDirectory : List String := []
  entries : List (List String × DiskEntry) := []
  programs : List (List String) := []
  deriving Inhabited

namespace Disk

def find? (d : Disk) : List String → Option DiskEntry
  | [] => some .directory
  | names => d.entries.lookup names

def isDirectory (d : Disk) (names : List String) : Bool :=
  d.find? names == some .directory

def put (d : Disk) (names : List String) (entry : DiskEntry) : Disk :=
  if d.entries.any (·.1 == names) then
    { d with entries := d.entries.map fun e => if e.1 = names then (names, entry) else e }
  else { d with entries := d.entries ++ [(names, entry)] }

def remove (d : Disk) (names : List String) : Disk :=
  { d with entries := d.entries.filter fun e => !names.isPrefixOf e.1 }

def checkName (name : String) : Except DiskError Unit :=
  if name.utf8ByteSize > 255 then .error .nameTooLong else .ok ()

-- A step needs a directory to start from, also a step upwards.
def walkFrom (d : Disk) (here : List String) :
    List Path.Part → Except DiskError (List String)
  | [] => .ok here
  | part :: parts =>
      match d.find? here with
      | none => .error .notFound
      | some (.file _) => .error .notDirectory
      | some .directory =>
          match part with
          | .root => walkFrom d [] parts
          | .here => walkFrom d here parts
          | .up => walkFrom d here.dropLast parts
          | .name name => do
              checkName name
              walkFrom d (here ++ [name]) parts

def endsInSlash (path : String) : Bool :=
  path.toList.getLast? == some '/'

def resolve (d : Disk) (path : String) : Except DiskError (List String) := do
  if path.isEmpty then throw .notFound
  if path.toList.contains '\x00' then throw .nulByte
  let names ← walkFrom d d.workingDirectory (Path.parts path)
  match endsInSlash path, d.find? names with
  | true, some (.file _) => throw .notDirectory
  | _, _ => return names

def readBytes (d : Disk) (path : String) : Except DiskError (List UInt8) := do
  match d.find? (← d.resolve path) with
  | none => throw .notFound
  | some .directory => throw .isDirectory
  | some (.file contents) => return contents

def readText (d : Disk) (path : String) : Except DiskError String := do
  match String.fromUTF8? ⟨(← d.readBytes path).toArray⟩ with
  | some text => return text
  | none => throw .notText

def writeBytes (d : Disk) (path : String) (contents : List UInt8) : Except DiskError Disk := do
  let names ← d.resolve path
  if d.isDirectory names || endsInSlash path then throw .isDirectory
  return d.put names (.file contents)

def writeText (d : Disk) (path contents : String) : Except DiskError Disk :=
  d.writeBytes path contents.toUTF8.toList

private def createFrom (d : Disk) (here : List String) : List Path.Part → Except DiskError Disk
  | [] => .ok d
  | .root :: parts => createFrom d [] parts
  | .here :: parts => createFrom d here parts
  | .up :: parts => createFrom d here.dropLast parts
  | .name name :: parts => do
      checkName name
      match d.find? (here ++ [name]) with
      | some .directory => createFrom d (here ++ [name]) parts
      | some (.file _) => .error (if parts.isEmpty then .alreadyThere else .notDirectory)
      | none => createFrom (d.put (here ++ [name]) .directory) (here ++ [name]) parts

def createDirectories (d : Disk) (path : String) : Except DiskError Disk :=
  if path.toList.contains '\x00' then .error .nulByte
  else createFrom d d.workingDirectory (Path.parts path)

def allow (d : Disk) (names : List String) : Disk :=
  if d.programs.contains names then d else { d with programs := names :: d.programs }

def mayRun (d : Disk) (names : List String) : Bool :=
  d.programs.contains names

def namesIn (d : Disk) (directory : List String) : List String :=
  let inside := d.entries.filterMap fun (names, _) =>
    if names.dropLast = directory then names.getLast? else none
  inside.mergeSort fun a b => decide (a ≤ b)

def filesBelow (d : Disk) (directory : List String) : List (String × List UInt8) :=
  let below := d.entries.filterMap fun (names, entry) =>
    match entry with
    | .directory => none
    | .file contents =>
        if directory.isPrefixOf names then
          some (String.intercalate "/" (names.drop directory.length), contents)
        else none
  below.mergeSort fun a b => decide (a.1 ≤ b.1)

end Disk

end PathEquiv
