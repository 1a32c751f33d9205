import Taskflow.Json.Value
import Taskflow.Text.Printable
set_option autoImplicit false

/-!
# Quoted text

Text between quotation marks for a reader's eye: what has no shape of its own is written as an
escape. Lists of texts are written between brackets.

## Main definitions

* `Quoted.text` — one text.
* `Quoted.list` — a list of texts.
-/

namespace Taskflow.Quoted

/-- The hexadecimal digits of a number without leading zeros; zero has one digit. -/
def hexDigits (n : Nat) : List Char := (Nat.toDigits 16 n)

/-- How a character is written. -/
def escapeChar (c : Char) : List Char :=
  if c = '\x00' then ['\\', '0']
  else if c = '\t' then ['\\', 't']
  else if c = '\r' then ['\\', 'r']
  else if c = '\n' then ['\\', 'n']
  else if c = '"' then ['\\', '"']
  else if c = '\\' then ['\\', '\\']
  else if isPrintable c then [c]
  else ['\\', 'u', '\x7b'] ++ hexDigits c.toNat ++ ['\x7d']

/-- A text between quotation marks. -/
def text (s : String) : String := "\"" ++ String.ofList (s.toList.flatMap escapeChar) ++ "\""

/-- A list of texts between brackets. -/
def list (texts : List String) : String := "[" ++ ", ".intercalate (texts.map text) ++ "]"

end Taskflow.Quoted
