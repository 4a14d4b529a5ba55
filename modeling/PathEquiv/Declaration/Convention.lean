import PathEquiv.Declaration.Basic
import PathEquiv.Declaration.Known
import PathEquiv.Text.Word

set_option autoImplicit false

namespace PathEquiv

def SmtSort.stem? : SmtSort → Option (List Char)
  | .integer => some "INT".toList
  | .real => some "REAL_".toList
  | .boolean | .string => none

/-- The name that starts here: a stem, digits of any script, and then no more word characters. -/
def nameHere? (stem cs : List Char) : Option (List Char) :=
  match Text.after? stem cs with
  | none => none
  | some rest =>
      let digits := rest.takeWhile Text.isDigit
      let ends := match rest.dropWhile Text.isDigit with
        | [] => true
        | c :: _ => !Text.isWord c
      if !digits.isEmpty && ends then some (stem ++ digits) else none

-- `inWord` tells whether a word character stands just before.
def namesIn (stem : List Char) : (inWord : Bool) → List Char → List (List Char)
  | _, [] => []
  | inWord, c :: rest =>
      match if inWord then none else nameHere? stem (c :: rest) with
      | some name => name :: namesIn stem (Text.isWord c) rest
      | none => namesIn stem (Text.isWord c) rest

def conventionalNames (sort : SmtSort) (text : String) : List String :=
  match sort.stem? with
  | none => []
  | some stem => (namesIn stem false text.toList).map String.ofList

def isConventional (name : String) (sort : SmtSort) : Bool :=
  match sort.stem? with
  | none => false
  | some stem => nameHere? stem name.toList == some name.toList

def conventionSort? (name : String) : Option SmtSort :=
  SmtSort.all.find? (isConventional name)

/-- The conventional names of a sort that are not known, each once and the shorter ones first. -/
def declaredNames (known : KnownDeclarations) (text : String) (sort : SmtSort) :
    List Declaration :=
  let names := (conventionalNames sort text).filter (!known.contains ·)
  (names.eraseDups.mergeSort Text.shortlexLe).map (Declaration.constant · sort)

def inferFromText (known : KnownDeclarations) (text : String) : List Declaration :=
  declaredNames known text .integer ++ declaredNames known text .real

end PathEquiv
