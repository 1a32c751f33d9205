set_option autoImplicit false

/-!
# JSON values and their text

JSON values with integer numbers, and the two layouts in which they are written: compact, and
indented by two spaces a level. A string escapes the quotation mark, the backslash and the control
characters, and nothing else.

## Main definitions

* `Json` — a value; the members of an object keep their order.
* `Json.object` — an object with its members sorted by name.
* `Json.compact`, `Json.pretty` — the two layouts.
-/

namespace Taskflow

/-- A JSON value. -/
inductive Json where
  | null
  | bool (b : Bool)
  | int (n : Int)
  | str (s : String)
  | arr (items : List Json)
  | obj (members : List (String × Json))
  deriving Repr, Inhabited, BEq

namespace Json

mutual

/-- Decides equality of values. -/
def decEq : (a b : Json) → Decidable (a = b)
  | .null, .null => isTrue rfl
  | .bool a, .bool b => decidable_of_iff (a = b) (by simp)
  | .int a, .int b => decidable_of_iff (a = b) (by simp)
  | .str a, .str b => decidable_of_iff (a = b) (by simp)
  | .arr as, .arr bs =>
    match decEqItems as bs with
    | isTrue h => isTrue (by rw [h])
    | isFalse h => isFalse (by simpa using h)
  | .obj as, .obj bs =>
    match decEqMembers as bs with
    | isTrue h => isTrue (by rw [h])
    | isFalse h => isFalse (by simpa using h)
  | .null, .bool _ | .null, .int _ | .null, .str _ | .null, .arr _ | .null, .obj _
  | .bool _, .null | .bool _, .int _ | .bool _, .str _ | .bool _, .arr _ | .bool _, .obj _
  | .int _, .null | .int _, .bool _ | .int _, .str _ | .int _, .arr _ | .int _, .obj _
  | .str _, .null | .str _, .bool _ | .str _, .int _ | .str _, .arr _ | .str _, .obj _
  | .arr _, .null | .arr _, .bool _ | .arr _, .int _ | .arr _, .str _ | .arr _, .obj _
  | .obj _, .null | .obj _, .bool _ | .obj _, .int _ | .obj _, .str _ | .obj _, .arr _ =>
    isFalse (by simp)

/-- Decides equality of lists of values. -/
def decEqItems : (as bs : List Json) → Decidable (as = bs)
  | [], [] => isTrue rfl
  | [], _ :: _ => isFalse (by simp)
  | _ :: _, [] => isFalse (by simp)
  | a :: as, b :: bs =>
    match decEq a b, decEqItems as bs with
    | isTrue h, isTrue hs => isTrue (by rw [h, hs])
    | isFalse h, _ => isFalse (by simp [h])
    | _, isFalse hs => isFalse (by simp [hs])

/-- Decides equality of lists of members. -/
def decEqMembers : (as bs : List (String × Json)) → Decidable (as = bs)
  | [], [] => isTrue rfl
  | [], _ :: _ => isFalse (by simp)
  | _ :: _, [] => isFalse (by simp)
  | (k, a) :: as, (l, b) :: bs =>
    if hk : k = l then
      match decEq a b, decEqMembers as bs with
      | isTrue h, isTrue hs => isTrue (by rw [hk, h, hs])
      | isFalse h, _ => isFalse (by simp [h])
      | _, isFalse hs => isFalse (by simp [hs])
    else isFalse (by simp [hk])

end

instance : DecidableEq Json := decEq

/-! ## Objects with sorted members -/

/-- Puts a member into a list sorted by name; a member of that name is replaced. -/
def insertMember (k : String) (v : Json) : List (String × Json) → List (String × Json)
  | [] => [(k, v)]
  | (k', v') :: rest =>
    match compare k k' with
    | .lt => (k, v) :: (k', v') :: rest
    | .eq => (k, v) :: rest
    | .gt => (k', v') :: insertMember k v rest

/-- An object with its members sorted by name; of two members of one name the later counts. -/
def object (members : List (String × Json)) : Json :=
  .obj (members.foldl (fun sorted m => insertMember m.1 m.2 sorted) [])

/-- `null` for an absent value. -/
def ofOption {α : Type} (f : α → Json) : Option α → Json
  | none => .null
  | some a => f a

/-! ## Text -/

/-- The digit of a hexadecimal place, in lower case. -/
def hexDigit (n : Nat) : Char :=
  if n < 10 then Char.ofNat (48 + n) else Char.ofNat (87 + n)

/-- How a character is written inside a string. -/
def escapeChar (c : Char) : List Char :=
  if c = '"' then ['\\', '"']
  else if c = '\\' then ['\\', '\\']
  else if c = '\n' then ['\\', 'n']
  else if c = '\r' then ['\\', 'r']
  else if c = '\t' then ['\\', 't']
  else if c = '\x08' then ['\\', 'b']
  else if c = '\x0c' then ['\\', 'f']
  else if c.toNat < 0x20 then
    ['\\', 'u', '0', '0', hexDigit (c.toNat / 16), hexDigit (c.toNat % 16)]
  else [c]

/-- A string between quotation marks. -/
def quote (s : String) : String :=
  "\"" ++ String.ofList (s.toList.flatMap escapeChar) ++ "\""

/-- Two layouts differ in what stands between the parts of a value: `open_`, `sep` and `close` hang
on the depth, `colon` does not. -/
structure Layout where
  lineBreak : Nat → String
  colon : String

/-- No blanks at all. -/
def Layout.compact : Layout := ⟨fun _ => "", ":"⟩

/-- Every part on a line of its own, two spaces a level. -/
def Layout.pretty : Layout := ⟨fun depth => "\n" ++ "".pushn ' ' (2 * depth), ": "⟩

mutual

/-- The text of a value at a depth. -/
def write (l : Layout) (depth : Nat) : Json → String
  | .null => "null"
  | .bool b => if b then "true" else "false"
  | .int n => toString n
  | .str s => quote s
  | .arr [] => "[]"
  | .arr (v :: vs) =>
    "[" ++ l.lineBreak (depth + 1) ++ write l (depth + 1) v ++ writeItems l (depth + 1) vs ++
      l.lineBreak depth ++ "]"
  | .obj [] => "\x7b\x7d"
  | .obj ((k, v) :: ms) =>
    "\x7b" ++ l.lineBreak (depth + 1) ++ quote k ++ l.colon ++ write l (depth + 1) v ++
      writeMembers l (depth + 1) ms ++ l.lineBreak depth ++ "\x7d"

/-- The further items of an array. -/
def writeItems (l : Layout) (depth : Nat) : List Json → String
  | [] => ""
  | v :: vs => "," ++ l.lineBreak depth ++ write l depth v ++ writeItems l depth vs

/-- The further members of an object. -/
def writeMembers (l : Layout) (depth : Nat) : List (String × Json) → String
  | [] => ""
  | (k, v) :: ms =>
    "," ++ l.lineBreak depth ++ quote k ++ l.colon ++ write l depth v ++ writeMembers l depth ms

end

/-- The text without blanks. -/
def compact (v : Json) : String := write .compact 0 v

/-- The indented text. -/
def pretty (v : Json) : String := write .pretty 0 v

end Json

end Taskflow
