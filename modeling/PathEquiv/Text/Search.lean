set_option autoImplicit false

namespace PathEquiv.Text

def after? : (start text : List Char) → Option (List Char)
  | [], text => some text
  | _ :: _, [] => none
  | c :: start, d :: text => if c = d then after? start text else none

def startsWith (start text : List Char) : Bool :=
  (after? start text).isSome

def occurs (part : List Char) : List Char → Bool
  | [] => part.isEmpty
  | c :: rest => startsWith part (c :: rest) || occurs part rest

-- `skip` counts the characters of the current occurrence still to be passed over.
def replaceFrom (part value : List Char) : (skip : Nat) → List Char → List Char
  | _, [] => []
  | skip + 1, _ :: rest => replaceFrom part value skip rest
  | 0, c :: rest =>
      if startsWith part (c :: rest) then
        value ++ replaceFrom part value (part.length - 1) rest
      else c :: replaceFrom part value 0 rest

def replaceAll (part value text : List Char) : List Char :=
  replaceFrom part value 0 text

def replaced (part value text : String) : String :=
  String.ofList (replaceAll part.toList value.toList text.toList)

def hasPart (part text : String) : Bool :=
  occurs part.toList text.toList

def hasStart (start text : String) : Bool :=
  startsWith start.toList text.toList

def splitFirst (sep : Char) (text : List Char) : List Char × Option (List Char) :=
  match text.dropWhile (· ≠ sep) with
  | [] => (text, none)
  | _ :: rest => (text.takeWhile (· ≠ sep), some rest)

end PathEquiv.Text
