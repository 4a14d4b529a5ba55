set_option autoImplicit false

namespace PathEquiv.Shell.Arithmetic

inductive Token where
  | number (value : Int)
  | name (text : String)
  | operator (text : String)
  deriving DecidableEq, Repr

inductive Fault where
  | expecting (what : String)
  | divisionByZero
  deriving DecidableEq, Repr

def Fault.message : Fault → String
  | .expecting what => "expecting " ++ what
  | .divisionByZero => "division by zero"

private def operators : List String :=
  ["<<=", ">>=", "<<", ">>", "<=", ">=", "==", "!=", "&&", "||", "+=", "-=", "*=", "/=", "%=", "&=",
    "^=", "|=", "+", "-", "*", "/", "%", "<", ">", "!", "~", "&", "^", "|", "?", ":", "(", ")", "="]

private def isNameChar (c : Char) : Bool :=
  c.isAlphanum || c == '_'

private def digit? (base : Nat) (c : Char) : Option Nat :=
  let value :=
    if c.isDigit then c.toNat - '0'.toNat
    else if c.isAlpha then c.toLower.toNat - 'a'.toNat + 10
    else base
  if value < base then some value else none

private def digits? (base : Nat) (cs : List Char) : Option Nat :=
  if cs.isEmpty then none
  else cs.foldlM (fun n c => (digit? base c).map (base * n + ·)) 0

def number? : List Char → Option Int
  | '0' :: 'x' :: cs | '0' :: 'X' :: cs => (digits? 16 cs).map Int.ofNat
  | '0' :: cs => if cs.isEmpty then some 0 else (digits? 8 cs).map Int.ofNat
  | cs => (digits? 10 cs).map Int.ofNat

private def tokens : (fuel : Nat) → List Char → Option (List Token)
  | _, [] => some []
  | 0, _ => none
  | fuel + 1, c :: rest =>
      if c = ' ' || c = '\t' || c = '\n' then tokens fuel rest
      else if isNameChar c then do
        let text := (c :: rest).takeWhile isNameChar
        let others ← tokens fuel ((c :: rest).dropWhile isNameChar)
        if c.isDigit then return .number (← number? text) :: others
        else return .name (String.ofList text) :: others
      else do
        let op ← operators.find? fun op => op.toList.isPrefixOf (c :: rest)
        return .operator op :: (← tokens fuel ((c :: rest).drop op.length))

private def levels : List (List String) :=
  [["||"], ["&&"], ["|"], ["^"], ["&"], ["==", "!="], ["<", "<=", ">", ">="], ["<<", ">>"],
    ["+", "-"], ["*", "/", "%"]]

private def truth (b : Bool) : Int := if b then 1 else 0

private def wrap (n : Int) : Int := Int.bmod n (Nat.pow 2 64)

private def bitwise (f : Nat → Nat → Nat) (a b : Int) : Int :=
  wrap (f (a % Int.pow 2 64).toNat (b % Int.pow 2 64).toNat)

private def result (op : String) (a b : Int) : Except Fault Int :=
  match op with
  | "||" => .ok (truth (a != 0 || b != 0))
  | "&&" => .ok (truth (a != 0 && b != 0))
  | "|" => .ok (bitwise Nat.lor a b)
  | "^" => .ok (bitwise Nat.xor a b)
  | "&" => .ok (bitwise Nat.land a b)
  | "==" => .ok (truth (a == b))
  | "!=" => .ok (truth (a != b))
  | "<" => .ok (truth (decide (a < b)))
  | "<=" => .ok (truth (decide (a ≤ b)))
  | ">" => .ok (truth (decide (a > b)))
  | ">=" => .ok (truth (decide (a ≥ b)))
  | "<<" => .ok (wrap (a * Int.pow 2 (b % 64).toNat))
  | ">>" => .ok (a / Int.pow 2 (b % 64).toNat)
  | "+" => .ok (wrap (a + b))
  | "-" => .ok (wrap (a - b))
  | "*" => .ok (wrap (a * b))
  | "/" => if b = 0 then .error .divisionByZero else .ok (wrap (Int.tdiv a b))
  | "%" => if b = 0 then .error .divisionByZero else .ok (Int.tmod a b)
  | _ => .error (.expecting "EOF")

private def assignment? : String → Option (Option String)
  | "=" => some none
  | "+=" => some (some "+")
  | "-=" => some (some "-")
  | "*=" => some (some "*")
  | "/=" => some (some "/")
  | "%=" => some (some "%")
  | "&=" => some (some "&")
  | "|=" => some (some "|")
  | "^=" => some (some "^")
  | "<<=" => some (some "<<")
  | ">>=" => some (some ">>")
  | _ => none

private abbrev EvalM := StateT (List (String × Int)) (Except Fault)

private def noPrimary {α : Type} : EvalM α := throw (.expecting "primary")

private def lookUp (value : String → Option Int) (name : String) : EvalM Int := do
  match (← get).lookup name, value name with
  | some n, _ | none, some n => return n
  | none, none => noPrimary

mutual

private def assigned (fuel : Nat) (value : String → Option Int) (ts : List Token) :
    EvalM (Int × List Token) :=
  match fuel with
  | 0 => noPrimary
  | fuel + 1 =>
    match ts with
    | .name name :: .operator op :: rest =>
        match assignment? op with
        | none => ternary fuel value ts
        | some change => do
            let (right, rest) ← assigned fuel value rest
            let n ← match change with
              | none => pure right
              | some op => do liftM (result op (← lookUp value name) right)
            modify ((name, n) :: ·)
            return (n, rest)
    | _ => ternary fuel value ts

private def ternary (fuel : Nat) (value : String → Option Int) (ts : List Token) :
    EvalM (Int × List Token) :=
  match fuel with
  | 0 => noPrimary
  | fuel + 1 => do
    let (condition, ts) ← binary fuel value levels ts
    match ts with
    | .operator "?" :: ts =>
        let (yes, ts) ← assigned fuel value ts
        match ts with
        | .operator ":" :: ts =>
            let (no, ts) ← ternary fuel value ts
            return (if condition = 0 then no else yes, ts)
        | _ => throw (.expecting "':'")
    | _ => return (condition, ts)

private def binary (fuel : Nat) (value : String → Option Int) (levels : List (List String))
    (ts : List Token) : EvalM (Int × List Token) :=
  match fuel with
  | 0 => noPrimary
  | fuel + 1 =>
    match levels with
    | [] => unary fuel value ts
    | level :: others => do
        let (left, ts) ← binary fuel value others ts
        binaryAfter fuel value level others left ts

private def binaryAfter (fuel : Nat) (value : String → Option Int) (level : List String)
    (others : List (List String)) (left : Int) (ts : List Token) : EvalM (Int × List Token) :=
  match fuel with
  | 0 => noPrimary
  | fuel + 1 =>
    match ts with
    | .operator op :: rest =>
        if level.contains op then do
          let (right, rest) ← binary fuel value others rest
          let n ← liftM (result op left right)
          binaryAfter fuel value level others n rest
        else return (left, ts)
    | _ => return (left, ts)

private def unary (fuel : Nat) (value : String → Option Int) (ts : List Token) :
    EvalM (Int × List Token) :=
  match fuel with
  | 0 => noPrimary
  | fuel + 1 =>
    match ts with
    | .operator "-" :: ts => do
        let (n, ts) ← unary fuel value ts
        return (wrap (-n), ts)
    | .operator "+" :: ts => unary fuel value ts
    | .operator "!" :: ts => do
        let (n, ts) ← unary fuel value ts
        return (truth (n == 0), ts)
    | .operator "~" :: ts => do
        let (n, ts) ← unary fuel value ts
        return (-n - 1, ts)
    | .operator "(" :: ts => do
        let (n, ts) ← assigned fuel value ts
        match ts with
        | .operator ")" :: ts => return (n, ts)
        | _ => throw (.expecting "')'")
    | .number n :: ts => return (n, ts)
    | .name name :: ts => do return (← lookUp value name, ts)
    | _ => noPrimary

end

def eval (value : String → Option Int) (text : List Char) :
    Except Fault (Int × List (String × Int)) := do
  let some ts := tokens text.length text | throw (.expecting "EOF")
  if ts.isEmpty then return (0, [])
  let ((n, rest), changes) ← (assigned (16 * ts.length + 32) value ts).run []
  if rest.isEmpty then return (n, changes) else throw (.expecting "EOF")

end PathEquiv.Shell.Arithmetic
