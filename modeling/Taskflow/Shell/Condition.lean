import Taskflow.Files.Tree
import Taskflow.Shell.Octets
set_option autoImplicit false

/-!
# Conditions

The conditions of `test`: comparisons of texts and numbers, and questions about files.

## Main definitions

* `Shell.Condition.holds` — whether a list of arguments describes something that holds.
-/

namespace Taskflow.Shell.Condition

/-- A whole number in decimal, with blanks around it. -/
def number (s : String) : Except String Int :=
  match s.trimAscii.toString.toInt? with
  | some n => if s.contains '_' then .error ("Illegal number: " ++ s) else .ok n
  | none => .error ("Illegal number: " ++ s)

/-- Compares two texts, or two numbers, if this is an operator that does. -/
def binary? (op : String) : Option (String → String → Except String Bool) :=
  let numbers (f : Int → Int → Bool) (a b : String) : Except String Bool :=
    return f (← number a) (← number b)
  match op with
  | "=" | "==" => some fun a b => .ok (a = b)
  | "!=" => some fun a b => .ok (a ≠ b)
  | "<" => some fun a b => .ok (a < b)
  | ">" => some fun a b => .ok (b < a)
  | "-eq" => some (numbers fun a b => a = b)
  | "-ne" => some (numbers fun a b => a ≠ b)
  | "-lt" => some (numbers fun a b => a < b)
  | "-le" => some (numbers fun a b => a ≤ b)
  | "-gt" => some (numbers fun a b => b < a)
  | "-ge" => some (numbers fun a b => b ≤ a)
  | _ => none

/-- Asks something about a text or a file, if this is an operator that does. -/
def unary? (t : FileTree) (dir : List String) (op : String) : Option (String → Bool) :=
  let about (f : FileEntry → Bool) (path : String) : Bool :=
    match t.find dir (Octets.toString path) with
    | .ok (_, e) => f e
    | .error _ => false
  match op with
  | "-n" => some fun s => s ≠ ""
  | "-z" => some fun s => s = ""
  | "-e" | "-r" | "-w" => some (about fun _ => true)
  | "-f" => some (about fun
    | .file _ => true
    | _ => false)
  | "-d" | "-x" => some (about fun e => e = .directory)
  | "-s" => some (about fun
    | .file bytes => !bytes.isEmpty
    | e => e = .directory)
  | "-c" => some (about fun e => e = .nullDevice || e = .fullDevice)
  | "-h" | "-L" | "-p" | "-b" | "-S" | "-t" => some fun _ => false
  | _ => none

mutual

/-- Reads alternatives. -/
def either (t : FileTree) (dir : List String) : Nat → List String →
    Except String (Bool × List String)
  | 0, args => .ok (false, args)
  | fuel + 1, args => do
    let (a, rest) ← both t dir fuel args
    match rest with
    | "-o" :: rest =>
      let (b, rest) ← either t dir fuel rest
      return (a || b, rest)
    | _ => return (a, rest)

/-- Reads conditions that all have to hold. -/
def both (t : FileTree) (dir : List String) : Nat → List String →
    Except String (Bool × List String)
  | 0, args => .ok (false, args)
  | fuel + 1, args => do
    let (a, rest) ← single t dir fuel args
    match rest with
    | "-a" :: rest =>
      let (b, rest) ← both t dir fuel rest
      return (a && b, rest)
    | _ => return (a, rest)

/-- Reads one condition. -/
def single (t : FileTree) (dir : List String) : Nat → List String →
    Except String (Bool × List String)
  | 0, args => .ok (false, args)
  | fuel + 1, args => do
    let plain : Except String (Bool × List String) := do
      match args with
      | [] => return (false, [])
      | [a] => return (a ≠ "", [])
      | "!" :: rest =>
        let (a, rest) ← single t dir fuel rest
        return (!a, rest)
      | "(" :: rest =>
        let (a, rest) ← either t dir fuel rest
        match rest with
        | ")" :: rest => return (a, rest)
        | _ => throw "closing paren expected"
      | op :: a :: rest =>
        match unary? t dir op with
        | some f => return (f a, rest)
        | none => return (op ≠ "", a :: rest)
    match args with
    | a :: op :: b :: rest =>
      match binary? op with
      | some f => return (← f a b, rest)
      | none => plain
    | _ => plain

end

/-- Whether the arguments describe something that holds; if they describe nothing, the error says
why. -/
def holds (t : FileTree) (dir : List String) (args : List String) : Except String Bool := do
  let (a, rest) ← either t dir (3 * args.length + 3) args
  match rest with
  | [] => return a
  | op :: _ => throw (op ++ ": unexpected operator")

end Taskflow.Shell.Condition
