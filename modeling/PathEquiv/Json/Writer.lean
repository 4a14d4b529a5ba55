import PathEquiv.Json.Basic
import PathEquiv.Text.Decimal

set_option autoImplicit false

namespace PathEquiv.Json

def hexDigit (n : Nat) : Char :=
  if n < 10 then Char.ofNat ('0'.toNat + n) else Char.ofNat ('a'.toNat + (n - 10))

/-- A character as it stands inside a quoted string. Only the quote, the backslash and the
characters below the space are escaped. -/
def escapeChar (c : Char) : List Char :=
  match c with
  | '"' => ['\\', '"']
  | '\\' => ['\\', '\\']
  | '\n' => ['\\', 'n']
  | '\r' => ['\\', 'r']
  | '\t' => ['\\', 't']
  | c =>
      if c.toNat = 0x08 then ['\\', 'b']
      else if c.toNat = 0x0C then ['\\', 'f']
      else if c.toNat < 0x20 then
        ['\\', 'u', '0', '0', hexDigit (c.toNat / 16), hexDigit (c.toNat % 16)]
      else [c]

def quoted (s : String) : String :=
  "\"" ++ String.ofList (s.toList.flatMap escapeChar) ++ "\""

mutual

def compact : Json → String
  | .null => "null"
  | .bool true => "true"
  | .bool false => "false"
  | .int value => Text.intText value
  | .decimal spelling => spelling
  | .str value => quoted value
  | .arr items => "[" ++ String.intercalate "," (compactItems items) ++ "]"
  | .obj fields => "\x7b" ++ String.intercalate "," (compactFields fields) ++ "\x7d"

def compactItems : List Json → List String
  | [] => []
  | item :: items => compact item :: compactItems items

def compactFields : List (String × Json) → List String
  | [] => []
  | (name, value) :: fields => (quoted name ++ ":" ++ compact value) :: compactFields fields

end

def indent (level : Nat) : String :=
  String.ofList (List.replicate (2 * level) ' ')

def block (level : Nat) (opening closing : String) (rows : List String) : String :=
  if rows.isEmpty then opening ++ closing
  else
    opening ++ "\n" ++ String.intercalate ",\n" (rows.map (indent (level + 1) ++ ·)) ++ "\n" ++
      indent level ++ closing

mutual

def prettyAt (level : Nat) : Json → String
  | .arr items => block level "[" "]" (prettyItems (level + 1) items)
  | .obj fields => block level "\x7b" "\x7d" (prettyFields (level + 1) fields)
  | value => compact value

def prettyItems (level : Nat) : List Json → List String
  | [] => []
  | item :: items => prettyAt level item :: prettyItems level items

def prettyFields (level : Nat) : List (String × Json) → List String
  | [] => []
  | (name, value) :: fields =>
      (quoted name ++ ": " ++ prettyAt level value) :: prettyFields level fields

end

def pretty (value : Json) : String :=
  prettyAt 0 value

end PathEquiv.Json
