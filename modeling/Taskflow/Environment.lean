import Taskflow.Table
import Taskflow.Json.Reader
set_option autoImplicit false

/-!
# Environments

The variables that a command gets on top of those it inherits.

## Main definitions

* `Environment` — a finite map from names to values.
* `Environment.ofPairs` — later pairs win.
* `Environment.toJson`, `Environment.ofJson?` — the written form, an object of strings.
-/

namespace Taskflow

/-- Variables and their values. -/
structure Environment where
  vars : Table String String := {}
  deriving Repr, DecidableEq, Inhabited

namespace Environment

/-- No variables. -/
def empty : Environment := {}

/-- Sets a variable. -/
def set (e : Environment) (name value : String) : Environment := ⟨e.vars.insert name value⟩

/-- The value of a variable. -/
def get? (e : Environment) (name : String) : Option String := e.vars.get? name

/-- The environment of the pairs; of two pairs with one name the later counts. -/
def ofPairs (pairs : List (String × String)) : Environment := ⟨.ofList pairs⟩

/-- The number of variables. -/
def size (e : Environment) : Nat := e.vars.size

/-- Whether there is no variable. -/
def isEmpty (e : Environment) : Bool := e.vars.entries.isEmpty

/-- Equality as maps. -/
def sameAs (e f : Environment) : Bool := e.vars.sameAs f.vars

/-- As JSON, an object of strings. -/
def toJson (e : Environment) : Json := .object (e.vars.entries.map fun p => (p.1, .str p.2))

/-- Reads the value of a variable. -/
def readMember? (name : String) (e : Environment) (cs : List Char) :
    Option (Environment × List Char) :=
  (Json.Reader.string? cs).map fun r => (e.set name r.1, r.2)

/-- Reads a JSON text that is one object of strings. -/
def ofJson? (text : String) : Option Environment :=
  Json.Reader.whole? (Json.Reader.members? readMember? empty) text

end Environment

end Taskflow
