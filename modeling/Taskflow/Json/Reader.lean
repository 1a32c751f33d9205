import Taskflow.Json.Value
set_option autoImplicit false

/-!
# Reading JSON

Readers take the characters that are left and return what they read with the rest. A value that
nobody asks for is skipped: its syntax is checked, but its strings need not denote text and its
numbers may have any size.

## Main definitions

* `Json.Number` — a number literal, with the value of an integer.
* `Json.Reader.string?`, `Json.Reader.number?` — a string, a number.
* `Json.Reader.skip?` — any value.
* `Json.Reader.members?`, `Json.Reader.items?` — the members of an object and the items of an
  array, each read by a given reader.
* `Json.Reader.whole?` — the value is all there is.
-/

namespace Taskflow.Json

/-- A number literal: an integer, or one with a fraction, an exponent or a minus sign before
zero. -/
inductive Number where
  | integer (n : Int)
  | other
  deriving Repr, DecidableEq

namespace Number

/-- The value, if it is an integer between zero and `max`. -/
def natUpTo? (max : Nat) : Number → Option Nat
  | .integer (.ofNat n) => if n ≤ max then some n else none
  | _ => none

end Number

namespace Reader

/-- Blanks between tokens. -/
def isBlank (c : Char) : Bool := c = ' ' ∨ c = '\n' ∨ c = '\t' ∨ c = '\r'

/-- Drops blanks. -/
def skipBlanks (cs : List Char) : List Char := cs.dropWhile isBlank

/-- Drops blanks and one given character. -/
def expect? (c : Char) (cs : List Char) : Option (List Char) :=
  match skipBlanks cs with
  | d :: rest => if d = c then some rest else none
  | [] => none

/-- The value of a hexadecimal digit. -/
def hexValue? (c : Char) : Option Nat :=
  if '0' ≤ c ∧ c ≤ '9' then some (c.toNat - 48)
  else if 'a' ≤ c ∧ c ≤ 'f' then some (c.toNat - 87)
  else if 'A' ≤ c ∧ c ≤ 'F' then some (c.toNat - 55)
  else none

/-- Four hexadecimal digits. -/
def hex4? : List Char → Option (Nat × List Char)
  | a :: b :: c :: d :: rest => do
    let a ← hexValue? a
    let b ← hexValue? b
    let c ← hexValue? c
    let d ← hexValue? d
    some (((a * 16 + b) * 16 + c) * 16 + d, rest)
  | _ => none

/-- The character behind a backslash, where it is a single letter. -/
def simpleEscape? (c : Char) : Option Char :=
  if c = '"' then some '"' else if c = '\\' then some '\\' else if c = '/' then some '/'
  else if c = 'b' then some '\x08' else if c = 'f' then some '\x0c'
  else if c = 'n' then some '\n' else if c = 'r' then some '\r' else if c = 't' then some '\t'
  else none

/-- The rest of an escape of four digits: a code unit, or a pair of surrogates. -/
def codeEscape? (cs : List Char) : Option (Char × List Char) := do
  let (unit, rest) ← hex4? cs
  if unit < 0xD800 ∨ 0xDFFF < unit then some (Char.ofNat unit, rest)
  else if 0xDC00 ≤ unit then none
  else
    match rest with
    | '\\' :: 'u' :: rest => do
      let (low, rest) ← hex4? rest
      if 0xDC00 ≤ low ∧ low ≤ 0xDFFF then
        some (Char.ofNat (0x10000 + (unit - 0xD800) * 0x400 + (low - 0xDC00)), rest)
      else none
    | _ => none

/-- The characters of a string up to its closing quotation mark; `fuel` bounds their number. -/
def stringBody? : Nat → List Char → Option (List Char × List Char)
  | 0, _ => none
  | _ + 1, [] => none
  | fuel + 1, c :: cs =>
    if c = '"' then some ([], cs)
    else if c.toNat < 0x20 then none
    else if c = '\\' then
      match cs with
      | 'u' :: rest => do
        let (c, rest) ← codeEscape? rest
        let (body, rest) ← stringBody? fuel rest
        some (c :: body, rest)
      | d :: rest => do
        let c ← simpleEscape? d
        let (body, rest) ← stringBody? fuel rest
        some (c :: body, rest)
      | [] => none
    else do
      let (body, rest) ← stringBody? fuel cs
      some (c :: body, rest)

/-- A string. -/
def string? (cs : List Char) : Option (String × List Char) := do
  let rest ← expect? '"' cs
  let (body, rest) ← stringBody? (rest.length + 1) rest
  some (String.ofList body, rest)

/-- Skips a string up to its closing quotation mark; surrogates need not come in pairs. -/
def skipString? : Nat → List Char → Option (List Char)
  | 0, _ => none
  | _ + 1, [] => none
  | fuel + 1, c :: cs =>
    if c = '"' then some cs
    else if c.toNat < 0x20 then none
    else if c = '\\' then
      match cs with
      | 'u' :: rest => do
        let (_, rest) ← hex4? rest
        skipString? fuel rest
      | d :: rest => do
        let _ ← simpleEscape? d
        skipString? fuel rest
      | [] => none
    else skipString? fuel cs

/-- A run of decimal digits that is not empty. -/
def digits? (cs : List Char) : Option (List Char × List Char) :=
  let ds := cs.takeWhile Char.isDigit
  if ds.isEmpty then none else some (ds, cs.dropWhile Char.isDigit)

/-- The value of decimal digits. -/
def digitsValue (ds : List Char) : Nat := ds.foldl (fun n d => 10 * n + (d.toNat - 48)) 0

/-- The digits before the point: a zero stands alone. -/
def integerPart? (cs : List Char) : Option (List Char × List Char) := do
  let (ds, rest) ← digits? cs
  match ds with
  | '0' :: _ :: _ => none
  | _ => some (ds, rest)

/-- The fraction, if there is one. -/
def fraction? : List Char → Option (Bool × List Char)
  | '.' :: rest => (digits? rest).map fun r => (true, r.2)
  | cs => some (false, cs)

/-- The exponent, if there is one. -/
def exponent? : List Char → Option (Bool × List Char)
  | c :: rest =>
    if c = 'e' ∨ c = 'E' then
      let rest := match rest with
        | '+' :: rest => rest
        | '-' :: rest => rest
        | rest => rest
      (digits? rest).map fun r => (true, r.2)
    else some (false, c :: rest)
  | [] => some (false, [])

/-- A number. -/
def number? (cs : List Char) : Option (Number × List Char) := do
  let cs := skipBlanks cs
  let (negative, cs) := match cs with
    | '-' :: rest => (true, rest)
    | cs => (false, cs)
  let (ds, cs) ← integerPart? cs
  let (hasFraction, cs) ← fraction? cs
  let (hasExponent, cs) ← exponent? cs
  let n := digitsValue ds
  let value : Number :=
    if hasFraction ∨ hasExponent then .other
    else if negative then (if n = 0 then .other else .integer (-n))
    else .integer n
  some (value, cs)

/-- A word such as `null`. -/
def word? (w : List Char) (cs : List Char) : Option (List Char) :=
  if w.isPrefixOf cs then some (cs.drop w.length) else none

mutual

/-- Skips any value. -/
def skipValue? : Nat → List Char → Option (List Char)
  | 0, _ => none
  | fuel + 1, cs =>
    match skipBlanks cs with
    | [] => none
    | c :: rest =>
      if c = '"' then skipString? (rest.length + 1) rest
      else if c = '[' then
        match skipBlanks rest with
        | ']' :: rest => some rest
        | rest => skipItems? fuel rest
      else if c = '\x7b' then
        match skipBlanks rest with
        | '\x7d' :: rest => some rest
        | rest => skipMembers? fuel rest
      else if c = 'n' then word? ['u', 'l', 'l'] rest
      else if c = 't' then word? ['r', 'u', 'e'] rest
      else if c = 'f' then word? ['a', 'l', 's', 'e'] rest
      else (number? (c :: rest)).map (·.2)

/-- Skips the items of an array and its closing bracket. -/
def skipItems? : Nat → List Char → Option (List Char)
  | 0, _ => none
  | fuel + 1, cs => do
    let rest ← skipValue? fuel cs
    match skipBlanks rest with
    | ',' :: rest => skipItems? fuel rest
    | ']' :: rest => some rest
    | _ => none

/-- Skips the members of an object and its closing brace. -/
def skipMembers? : Nat → List Char → Option (List Char)
  | 0, _ => none
  | fuel + 1, cs => do
    let rest ← expect? '"' cs
    let rest ← skipString? (rest.length + 1) rest
    let rest ← expect? ':' rest
    let rest ← skipValue? fuel rest
    match skipBlanks rest with
    | ',' :: rest => skipMembers? fuel rest
    | '\x7d' :: rest => some rest
    | _ => none

end

/-- Skips one value. -/
def skip? (cs : List Char) : Option (List Char) := skipValue? (2 * cs.length + 2) cs

section Collections

variable {σ : Type}

/-- Reads the members of an object from its opening brace on; `member` reads the value of a name
into a running result. -/
def membersLoop? (member : String → σ → List Char → Option (σ × List Char)) :
    Nat → σ → List Char → Option (σ × List Char)
  | 0, _, _ => none
  | fuel + 1, acc, cs => do
    let (name, rest) ← string? cs
    let rest ← expect? ':' rest
    let (acc, rest) ← member name acc rest
    match skipBlanks rest with
    | ',' :: rest => membersLoop? member fuel acc rest
    | '\x7d' :: rest => some (acc, rest)
    | _ => none

/-- The members of an object. -/
def members? (member : String → σ → List Char → Option (σ × List Char)) (init : σ)
    (cs : List Char) : Option (σ × List Char) := do
  let rest ← expect? '\x7b' cs
  match skipBlanks rest with
  | '\x7d' :: rest => some (init, rest)
  | rest => membersLoop? member (rest.length + 1) init rest

/-- Reads the items of an array from its first item on; `item` gets the position. -/
def itemsLoop? (item : Nat → σ → List Char → Option (σ × List Char)) :
    Nat → Nat → σ → List Char → Option (σ × List Char)
  | 0, _, _, _ => none
  | fuel + 1, i, acc, cs => do
    let (acc, rest) ← item i acc cs
    match skipBlanks rest with
    | ',' :: rest => itemsLoop? item fuel (i + 1) acc rest
    | ']' :: rest => some (acc, rest)
    | _ => none

/-- The items of an array. -/
def items? (item : Nat → σ → List Char → Option (σ × List Char)) (init : σ) (cs : List Char) :
    Option (σ × List Char) := do
  let rest ← expect? '[' cs
  match skipBlanks rest with
  | ']' :: rest => some (init, rest)
  | rest => itemsLoop? item (rest.length + 1) 0 init rest

/-- Succeeds if nothing but blanks follows. -/
def whole? (read : List Char → Option (σ × List Char)) (text : String) : Option σ := do
  let (value, rest) ← read text.toList
  if (skipBlanks rest).isEmpty then some value else none

end Collections

end Reader

end Taskflow.Json
