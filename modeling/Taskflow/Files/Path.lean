set_option autoImplicit false

/-!
# Paths

A path is a text whose names are separated by slashes. A path that starts with a slash begins at
the root, any other one at the directory it is used from.

## Main definitions

* `Path.names` — the names along a path.
* `Path.parent?` — the path without its last name.
* `Path.same` — equality of the names, whatever the slashes between them.
-/

namespace Taskflow.Path

/-- Splits at slashes; `open_` holds the characters of the name that is still open, latest
first. -/
def splitAt (open_ : List Char) : List Char → List String
  | [] => [String.ofList open_.reverse]
  | c :: cs =>
    if c = '/' then String.ofList open_.reverse :: splitAt [] cs else splitAt (c :: open_) cs

/-- The pieces between slashes, empty ones included. -/
def pieces (path : String) : List String := splitAt [] path.toList

/-- Whether the path begins at the root. -/
def isAbsolute (path : String) : Bool := path.toList.head? = some '/'

/-- Whether the path ends with a slash. -/
def endsWithSlash (path : String) : Bool := path.toList.getLast? = some '/'

/-- The names along a path, as they are written. -/
def names (path : String) : List String := (pieces path).filter (· ≠ "")

/-- The names along a path without those that stay in place; a leading dot of a relative path
counts. -/
def components (path : String) : List String :=
  match names path with
  | [] => []
  | first :: rest =>
    let rest := rest.filter (· ≠ ".")
    if first = "." ∧ isAbsolute path then rest else first :: rest

/-- The path that consists of components. -/
def ofComponents (absolute : Bool) (parts : List String) : String :=
  (if absolute then "/" else "") ++ "/".intercalate parts

/-- The path without its last component; the root and the empty path have none. -/
def parent? (path : String) : Option String :=
  match components path with
  | [] => none
  | parts => some (ofComponents (isAbsolute path) parts.dropLast)

/-- Equality of paths: both begin at the same place and have the same components. -/
def same (p q : String) : Bool := isAbsolute p = isAbsolute q ∧ components p = components q

/-- Equality of paths that may be absent. -/
def sameOption : Option String → Option String → Bool
  | some p, some q => same p q
  | none, none => true
  | _, _ => false

/-- The path `q` as seen from the directory `p`. -/
def join (p q : String) : String :=
  if isAbsolute q ∨ p = "" then q else if endsWithSlash p then p ++ q else p ++ "/" ++ q

end Taskflow.Path
