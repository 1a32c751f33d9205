set_option autoImplicit false

/-!
# Commands of a shell

What a shell script says, once it has been read: commands made of words, and words made of pieces
that are still to be expanded.

## Main definitions

* `Shell.Piece` — a piece of a word; a word is a list of pieces.
* `Shell.Redirection` — where a command reads from and writes to.
* `Shell.Command` — simple commands and the ways to join them.
-/

namespace Taskflow.Shell

/-- What to do about a parameter without a value. -/
inductive Fallback where
  /-- take the word -/
  | use
  /-- take the word, and keep it -/
  | assign
  /-- fail with the word -/
  | complain
  /-- take the word in place of a value that is there -/
  | replace
  deriving Repr, DecidableEq, Inhabited

/-- The ways to open what a command reads from or writes to. -/
inductive Opening where
  | read
  | write
  | append
  /-- the same as another number -/
  | same
  /-- what is read is written in the script -/
  | here
  deriving Repr, DecidableEq, Inhabited

mutual

/-- A piece of a word. Quoted pieces are neither split nor matched against the names of files. -/
inductive Piece where
  | text (quoted : Bool) (value : String)
  | parameter (quoted : Bool) (name : String) (use : Use)
  | output (quoted : Bool) (body : Command)
  | number (quoted : Bool) (expression : List Piece)

/-- What is made of the value of a parameter. -/
inductive Use where
  | value
  | length
  | fallback (kind : Fallback) (orEmpty : Bool) (word : List Piece)
  | trimmed (atEnd longest : Bool) (pattern : List Piece)

/-- The number `fd` of a command is opened. -/
inductive Redirection where
  | mk (fd : Nat) (opening : Opening) (target : List Piece)

/-- A command of a shell script. -/
inductive Command where
  | empty
  | simple (line : Nat) (assignments : List (String × List Piece)) (words : List (List Piece))
      (redirections : List Redirection)
  | sequence (first next : Command)
  | both (first next : Command)
  | either (first next : Command)
  | negation (body : Command)
  | pipeline (source target : Command)
  | background (body : Command)
  | subshell (body : Command)
  | redirected (line : Nat) (body : Command) (redirections : List Redirection)
  | conditional (test yes no : Command)
  /-- goes on while the test succeeds, or fails if not `wanted`; `last` is the status of the round
  before -/
  | loop (wanted : Bool) (last : Nat) (test body : Command)
  | each (name : String) (items : Option (List (List Piece))) (body : Command)
  | choice (subject : List Piece) (branches : List (List (List Piece) × Command))
  | definition (name : String) (body : Command)

end

instance : Inhabited Command := ⟨.empty⟩

/-- A word. -/
abbrev Word := List Piece

/-- The text of a word that consists of unquoted text alone. -/
def plainText? : Word → Option String
  | [.text false s] => some s
  | _ => none

/-- Two commands one after the other; nothing is put in front of or behind an empty one. -/
def Command.followedBy : Command → Command → Command
  | .empty, next => next
  | first, .empty => first
  | first, next => .sequence first next

end Taskflow.Shell
