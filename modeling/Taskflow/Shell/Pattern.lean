set_option autoImplicit false

/-!
# Patterns

Patterns of a shell, in which some characters stand for others.

## Main definitions

* `Shell.Pattern` — a list of what has to be met; `Shell.Pattern.ofChars` reads one.
* `Shell.Pattern.accepts` — whether a text matches as a whole.
* `Shell.Pattern.trim` — a text without a part at its beginning or end that matches.
-/

namespace Taskflow.Shell

/-- What one place of a pattern asks for. -/
inductive Place where
  | one (c : Char)
  | any
  | many
  | oneOf (negated : Bool) (ranges : List (Char × Char))
  deriving Repr, DecidableEq, Inhabited

/-- A pattern. -/
abbrev Pattern := List Place

namespace Pattern

/-- Whether a place accepts a character. -/
def accept1 (p : Place) (c : Char) : Bool :=
  match p with
  | .one d => c = d
  | .any => true
  | .many => false
  | .oneOf negated ranges => ranges.any (fun r => decide (r.1 ≤ c ∧ c ≤ r.2)) != negated

/-- Whether a text matches as a whole. -/
def accepts : Pattern → List Char → Bool
  | [], cs => cs.isEmpty
  | .many :: ps, cs => (List.range (cs.length + 1)).any fun n => accepts ps (cs.drop n)
  | p :: ps, cs =>
    match cs with
    | c :: cs => accept1 p c && accepts ps cs
    | [] => false

/-- Reads the inside of brackets up to the closing one; `first` is set in front of the first
character, which does not close them. -/
def ranges (first : Bool) : List Char → Option (List (Char × Char) × List Char)
  | [] => none
  | ']' :: cs =>
    if first then (ranges false cs).map fun r => ((']', ']') :: r.1, r.2) else some ([], cs)
  | a :: '-' :: b :: cs =>
    if b = ']' then some ([(a, a), ('-', '-')], cs)
    else (ranges false cs).map fun r => ((a, b) :: r.1, r.2)
  | a :: cs => (ranges false cs).map fun r => ((a, a) :: r.1, r.2)

/-- Reads a pattern. Of each character it is told whether it may have a meaning of its own. -/
def ofChars : Nat → List (Char × Bool) → Pattern
  | 0, _ => []
  | _, [] => []
  | fuel + 1, (c, active) :: cs =>
    if !active then .one c :: ofChars fuel cs
    else if c = '*' then .many :: ofChars fuel cs
    else if c = '?' then .any :: ofChars fuel cs
    else if c = '[' then
      let text := cs.map (·.1)
      let negated := text.head? = some '!' || text.head? = some '^'
      match ranges true (if negated then text.drop 1 else text) with
      | some (found, rest) =>
        .oneOf negated found :: ofChars fuel (cs.drop (cs.length - rest.length))
      | none => .one c :: ofChars fuel cs
    else .one c :: ofChars fuel cs

/-- Whether a pattern accepts more than one text. -/
def isOpen (p : Pattern) : Bool :=
  p.any fun
    | .one _ => false
    | _ => true

/-- A text without the shortest or longest part at its beginning or end that matches. -/
def trim (p : Pattern) (atEnd longest : Bool) (cs : List Char) : List Char :=
  let lengths := List.range (cs.length + 1)
  let order := if longest then lengths.reverse else lengths
  let part (n : Nat) : List Char := if atEnd then cs.drop (cs.length - n) else cs.take n
  match order.find? fun n => accepts p (part n) with
  | some n => if atEnd then cs.take (cs.length - n) else cs.drop n
  | none => cs

end Pattern

end Taskflow.Shell
