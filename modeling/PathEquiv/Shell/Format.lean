import PathEquiv.Shell.Arithmetic
import PathEquiv.Text.Decimal
import PathEquiv.Text.Utf8

set_option autoImplicit false

namespace PathEquiv.Shell

abbrev Bytes := List UInt8

namespace Format

inductive Octal where
  | all
  | afterZero
  deriving DecidableEq

private def isOctal (c : Char) : Bool := '0' ≤ c && c ≤ '7'

private def octalByte (cs : List Char) : UInt8 :=
  UInt8.ofNat (cs.foldl (fun n c => 8 * n + (c.toNat - '0'.toNat)) 0)

private def control? : Char → Option UInt8
  | 'a' => some 7
  | 'b' => some 8
  | 'e' => some 27
  | 'f' => some 12
  | 'n' => some 10
  | 'r' => some 13
  | 't' => some 9
  | 'v' => some 11
  | '\\' => some 92
  | _ => none

def escape (octal : Octal) (cs : List Char) : Bytes × List Char :=
  match cs with
  | [] => ([92], [])
  | c :: rest =>
      match control? c with
      | some b => ([b], rest)
      | none =>
          if octal = .afterZero && c = '0' then
            let digits := (rest.takeWhile isOctal).take 3
            ([octalByte digits], rest.drop digits.length)
          else if octal = .all && isOctal c then
            let digits := (cs.takeWhile isOctal).take 3
            ([octalByte digits], cs.drop digits.length)
          else ([92], cs)

private def charBytes (c : Char) : Bytes :=
  Text.encodeBytes (String.ofList [c])

def unescape (octal : Octal) : (fuel : Nat) → List Char → Bytes × Bool
  | 0, _ => ([], false)
  | _, [] => ([], false)
  | _, '\\' :: 'c' :: _ => ([], true)
  | fuel + 1, '\\' :: cs =>
      let (bytes, rest) := escape octal cs
      let (others, ended) := unescape octal fuel rest
      (bytes ++ others, ended)
  | fuel + 1, c :: cs =>
      let (others, ended) := unescape octal fuel cs
      (charBytes c ++ others, ended)

structure Conversion where
  flags : List Char
  width : Nat
  precision : Option Nat
  letter : Char

private def conversion? (cs : List Char) : Option (Conversion × List Char) :=
  let flags := cs.takeWhile fun c => "-+ 0#".toList.contains c
  let cs := cs.drop flags.length
  let width := cs.takeWhile Char.isDigit
  let cs := cs.drop width.length
  let (precision, cs) := match cs with
    | '.' :: rest =>
        let digits := rest.takeWhile Char.isDigit
        (some (Text.decimalValue digits), rest.drop digits.length)
    | _ => (none, cs)
  match cs with
  | letter :: rest =>
      if "sbcdiuoxX".toList.contains letter then
        some ({ flags, width := Text.decimalValue width, precision, letter }, rest)
      else none
  | [] => none

private def pad (c : Conversion) (bytes : Bytes) : Bytes :=
  let blanks := List.replicate (c.width - bytes.length) (32 : UInt8)
  if c.flags.contains '-' then bytes ++ blanks else blanks ++ bytes

private def spelling (text : String) : Bytes := Text.encodeBytes text

private def leadingNumber? (cs : List Char) : Option (Int × List Char) :=
  let whole := cs.takeWhile Char.isAlphanum
  let lengths := (List.range whole.length).map fun i => whole.length - i
  lengths.findSome? fun n => (Arithmetic.number? (cs.take n)).map fun value => (value, cs.drop n)

private def numberValue (argument : List Char) : Int × Option String :=
  let complaint (rest : List Char) : Option String :=
    if rest.isEmpty then none else some "not completely converted"
  match argument with
  | [] => (0, none)
  | '\'' :: c :: _ | '"' :: c :: _ => (c.toNat, none)
  | '-' :: cs =>
      match leadingNumber? cs with
      | some (n, rest) => (-n, complaint rest)
      | none => (0, some "expected numeric value")
  | '+' :: cs | cs =>
      match leadingNumber? cs with
      | some (n, rest) => (n, complaint rest)
      | none => (0, some "expected numeric value")

private def numeral (c : Conversion) (value : Int) : Bytes :=
  let magnitude := match c.letter with
    | 'd' | 'i' => Nat.toDigits 10 value.natAbs
    | 'u' => Nat.toDigits 10 (value % Int.pow 2 64).toNat
    | 'o' => Nat.toDigits 8 (value % Int.pow 2 64).toNat
    | 'x' => Nat.toDigits 16 (value % Int.pow 2 64).toNat
    | _ => (Nat.toDigits 16 (value % Int.pow 2 64).toNat).map Char.toUpper
  let signed := c.letter = 'd' || c.letter = 'i'
  let sign :=
    if signed && value < 0 then ['-']
    else if signed && c.flags.contains '+' then ['+']
    else if signed && c.flags.contains ' ' then [' ']
    else []
  let least := match c.precision with
    | some n => n
    | none => if c.flags.contains '0' && !c.flags.contains '-' then c.width - sign.length else 1
  let digits := List.replicate (least - magnitude.length) '0' ++ magnitude
  spelling (String.ofList (sign ++ digits))

structure Pass where
  output : Bytes := []
  arguments : List String
  ended : Bool := false
  complaints : List String := []
  status : Nat := 0
  used : Bool := false

private def convert (c : Conversion) (p : Pass) : Pass :=
  let argument := p.arguments.headD ""
  let p := { p with arguments := p.arguments.tail, used := true }
  match c.letter with
  | 's' =>
      let bytes := Text.encodeBytes argument
      let bytes := match c.precision with
        | some n => bytes.take n
        | none => bytes
      { p with output := p.output ++ pad c bytes }
  | 'b' =>
      let (bytes, ended) := unescape .afterZero (argument.length + 1) argument.toList
      { p with output := p.output ++ pad c bytes, ended }
  | 'c' => { p with output := p.output ++ pad c ((Text.encodeBytes argument).take 1) }
  | _ =>
      let (value, complaint) := numberValue argument.toList
      let p := { p with output := p.output ++ pad c (numeral c value) }
      match complaint with
      | none => p
      | some text =>
          { p with complaints := p.complaints ++ [argument ++ ": " ++ text], status := 1 }

private def pass : (fuel : Nat) → List Char → Pass → Pass
  | 0, _, p => p
  | _, [], p => p
  | fuel + 1, c :: cs, p =>
      if p.ended then p
      else if c = '\\' then
        let (bytes, rest) := escape .all cs
        pass fuel rest { p with output := p.output ++ bytes }
      else if c = '%' then
        match cs, conversion? cs with
        | '%' :: rest, _ => pass fuel rest { p with output := p.output ++ [37] }
        | _, some (found, rest) => pass fuel rest (convert found p)
        | _, none =>
            let letter := (cs.dropWhile fun c => "-+ #.".toList.contains c || c.isDigit).take 1
            let complaint :=
              if letter.isEmpty then "missing format character"
              else "%" ++ String.ofList (cs.take (cs.idxOf (letter.headD '%') + 1)) ++
                ": invalid directive"
            { p with complaints := p.complaints ++ [complaint], status := 2, ended := true }
      else pass fuel cs { p with output := p.output ++ charBytes c }

private def passes (format : List Char) : (fuel : Nat) → Pass → Pass
  | 0, p => p
  | fuel + 1, p =>
      let p := pass (format.length + 1) format { p with used := false }
      if p.ended || !p.used || p.arguments.isEmpty then p else passes format fuel p

def format (text : String) (arguments : List String) : Pass :=
  passes text.toList (arguments.length + 1) { arguments }

end Format

end PathEquiv.Shell
