set_option autoImplicit false

/-!
# Arithmetic of a shell

Whole numbers of 64 bits that wrap, with the operators of arithmetic, comparison, logic and bits, a
choice, and assignments to variables.

## Main definitions

* `Shell.Sum` — an expression; `Shell.Sum.read` reads one.
* `Shell.Sum.evaluate` — its value, and what it assigns.
-/

namespace Taskflow.Shell

/-- An arithmetic expression. -/
inductive Sum where
  | constant (n : Int)
  | named (name : String)
  | unary (op : Char) (e : Sum)
  | binary (op : String) (a b : Sum)
  | choice (test yes no : Sum)
  | assign (name : String) (op : Option String) (e : Sum)
  deriving Repr, Inhabited

namespace Sum

/-- A number brought into the range of 64 bits. -/
def wrap (n : Int) : Int := Int.bmod n 18446744073709551616

/-- The value of a list of digits. -/
def digits? (base : Nat) (cs : List Char) : Option Nat :=
  if cs.isEmpty then none
  else
    cs.foldl (fun acc c => do
      let n ← acc
      let d := if c.isDigit then c.toNat - 48 else if 'a' ≤ c ∧ c ≤ 'f' then c.toNat - 87
        else if 'A' ≤ c ∧ c ≤ 'F' then c.toNat - 55 else 99
      if d < base then some (n * base + d) else none) (some 0)

/-- The value of a number without a sign: hexadecimal behind `0x`, octal behind `0`. -/
def natural? : List Char → Option Nat
  | '0' :: 'x' :: cs | '0' :: 'X' :: cs => digits? 16 cs
  | '0' :: c :: cs => digits? 8 (c :: cs)
  | cs => digits? 10 cs

/-- The value of a number. -/
def integer? (s : String) : Option Int :=
  match s.trimAscii.toString.toList with
  | '-' :: cs => (natural? cs).map fun n => -(n : Int)
  | '+' :: cs => (natural? cs).map fun n => (n : Int)
  | cs => (natural? cs).map fun n => (n : Int)

/-- The parts of an expression. -/
inductive Token where
  | number (n : Int)
  | name (s : String)
  | sign (s : String)
  deriving Repr, DecidableEq, Inhabited

/-- The signs, longer ones first. -/
def signs : List String :=
  ["<<=", ">>=", "&&", "||", "==", "!=", "<=", ">=", "<<", ">>", "+=", "-=", "*=", "/=", "%=",
    "&=", "|=", "^=", "+", "-", "*", "/", "%", "<", ">", "=", "!", "~", "&", "|", "^", "?", ":",
    "(", ")"]

/-- Cuts an expression into its parts. -/
def tokens : Nat → List Char → Option (List Token)
  | 0, _ => none
  | _, [] => some []
  | fuel + 1, c :: cs =>
    if c.isWhitespace then tokens fuel cs
    else if c.isDigit then
      let text := (c :: cs).takeWhile Char.isAlphanum
      do return .number (wrap (← natural? text)) :: (← tokens fuel ((c :: cs).drop text.length))
    else if c.isAlpha || c = '_' then
      let text := (c :: cs).takeWhile fun d => d.isAlphanum || d = '_'
      do return .name (String.ofList text) :: (← tokens fuel ((c :: cs).drop text.length))
    else
      match signs.find? fun s => s.toList.isPrefixOf (c :: cs) with
      | some s => do return .sign s :: (← tokens fuel ((c :: cs).drop s.length))
      | none => none

/-- The operators with two operands, from those that bind least. -/
def levels : List (List String) :=
  [["||"], ["&&"], ["|"], ["^"], ["&"], ["==", "!="], ["<", "<=", ">", ">="], ["<<", ">>"],
    ["+", "-"], ["*", "/", "%"]]

mutual

/-- Reads an assignment, a choice, or less. -/
def readTop : Nat → List Token → Option (Sum × List Token)
  | 0, _ => none
  | fuel + 1, ts =>
    let plain : Option (Sum × List Token) := do
      let (test, rest) ← readLevel fuel levels ts
      match rest with
      | .sign "?" :: rest =>
        let (yes, rest) ← readTop fuel rest
        match rest with
        | .sign ":" :: rest =>
          let (no, rest) ← readTop fuel rest
          return (.choice test yes no, rest)
        | _ => none
      | rest => return (test, rest)
    match ts with
    | .name x :: .sign s :: rest =>
      if s = "=" then (readTop fuel rest).map fun r => (.assign x none r.1, r.2)
      else if s ∈ ["+=", "-=", "*=", "/=", "%=", "&=", "|=", "^=", "<<=", ">>="] then
        (readTop fuel rest).map fun r => (.assign x (some (s.dropEnd 1).toString) r.1, r.2)
      else plain
    | _ => plain

/-- Reads operands of operators from a level on. -/
def readLevel : Nat → List (List String) → List Token → Option (Sum × List Token)
  | 0, _, _ => none
  | fuel + 1, [], ts => readOperand fuel ts
  | fuel + 1, ops :: more, ts => do
    let (first, rest) ← readLevel fuel more ts
    readMore fuel ops more first rest

/-- Reads the operators of one level behind their first operand. -/
def readMore : Nat → List String → List (List String) → Sum → List Token →
    Option (Sum × List Token)
  | 0, _, _, _, _ => none
  | fuel + 1, ops, more, first, ts =>
    match ts with
    | .sign s :: rest =>
      if s ∈ ops then do
        let (second, rest) ← readLevel fuel more rest
        readMore fuel ops more (.binary s first second) rest
      else some (first, ts)
    | _ => some (first, ts)

/-- Reads a number, a variable, a sign in front of an operand, or what stands in parentheses. -/
def readOperand : Nat → List Token → Option (Sum × List Token)
  | 0, _ => none
  | fuel + 1, ts =>
    match ts with
    | .number n :: rest => some (.constant n, rest)
    | .name x :: rest => some (.named x, rest)
    | .sign "(" :: rest => do
      let (e, rest) ← readTop fuel rest
      match rest with
      | .sign ")" :: rest => return (e, rest)
      | _ => none
    | .sign s :: rest =>
      match s.toList with
      | [c] =>
        if c = '-' ∨ c = '+' ∨ c = '!' ∨ c = '~' then
          (readOperand fuel rest).map fun r => (.unary c r.1, r.2)
        else none
      | _ => none
    | [] => none

end

/-- Reads an expression; an empty one is zero. -/
def read (text : String) : Option Sum := do
  let cs := text.toList
  let ts ← tokens (cs.length + 1) cs
  if ts.isEmpty then return .constant 0
  let (e, rest) ← readTop (16 * ts.length + 32) ts
  if rest.isEmpty then return e else none

/-- Variables that have been assigned, latest first. -/
abbrev Assigned := List (String × Int)

/-- The value of a condition. -/
def ofBool (b : Bool) : Int := if b then 1 else 0

/-- The value of an operator; `none` for a division by zero. -/
def operate (op : String) (a b : Int) : Option Int :=
  let bits (f : BitVec 64 → BitVec 64 → BitVec 64) : Int :=
    (f (BitVec.ofInt 64 a) (BitVec.ofInt 64 b)).toInt
  match op with
  | "+" => some (wrap (a + b))
  | "-" => some (wrap (a - b))
  | "*" => some (wrap (a * b))
  | "/" => if b = 0 then none else some (wrap (Int.tdiv a b))
  | "%" => if b = 0 then none else some (Int.tmod a b)
  | "==" => some (ofBool (a = b))
  | "!=" => some (ofBool (a ≠ b))
  | "<" => some (ofBool (a < b))
  | "<=" => some (ofBool (a ≤ b))
  | ">" => some (ofBool (b < a))
  | ">=" => some (ofBool (b ≤ a))
  | "&" => some (bits (· &&& ·))
  | "|" => some (bits (· ||| ·))
  | "^" => some (bits (· ^^^ ·))
  | "<<" => some (wrap (a * Int.pow 2 (b % 64).toNat))
  | ">>" => some (a / Int.pow 2 (b % 64).toNat)
  | _ => none

/-- The value of an expression, given the values of the variables that are not assigned in it. -/
def evaluate (lookup : String → Option Int) : Sum → Assigned → Option (Int × Assigned)
  | .constant n, s => some (n, s)
  | .named x, s =>
    match s.find? fun a => a.1 = x with
    | some (_, n) => some (n, s)
    | none => (lookup x).map fun n => (n, s)
  | .unary op e, s => do
    let (n, s) ← evaluate lookup e s
    let n := if op = '-' then wrap (-n) else if op = '!' then ofBool (n = 0)
      else if op = '~' then -n - 1 else n
    return (n, s)
  | .binary op a b, s => do
    let (n, s) ← evaluate lookup a s
    if op = "&&" then
      if n = 0 then return (0, s)
      let (k, s) ← evaluate lookup b s
      return (ofBool (k ≠ 0), s)
    else if op = "||" then
      if n ≠ 0 then return (1, s)
      let (k, s) ← evaluate lookup b s
      return (ofBool (k ≠ 0), s)
    else
      let (k, s) ← evaluate lookup b s
      return (← operate op n k, s)
  | .choice test yes no, s => do
    let (n, s) ← evaluate lookup test s
    if n ≠ 0 then evaluate lookup yes s else evaluate lookup no s
  | .assign x op e, s => do
    let (n, s) ← evaluate lookup e s
    let n ← match op with
      | none => some n
      | some op => do
        let old ← match s.find? fun a => a.1 = x with
          | some (_, n) => some n
          | none => lookup x
        operate op old n
    return (n, (x, n) :: s)

end Sum

end Taskflow.Shell
