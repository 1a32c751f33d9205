import Taskflow.Text.Utf8
set_option autoImplicit false

/-!
# Texts of bytes

Commands work on bytes and do not care whether they form characters. A text of bytes is a string
in which every byte stands as the character with its number.

## Main definitions

* `Octets.ofBytes`, `Octets.toBytes` — between texts of bytes and bytes.
* `Octets.ofString`, `Octets.toString` — between texts of bytes and what they encode.
-/

namespace Taskflow.Octets

/-- The text of a list of bytes. -/
def ofBytes (bytes : List UInt8) : String :=
  String.ofList (bytes.map fun b => Char.ofNat b.toNat)

/-- The bytes of a text of bytes. -/
def toBytes (s : String) : List UInt8 := s.toList.map fun c => UInt8.ofNat c.toNat

/-- The bytes that encode a string, as a text of bytes. -/
def ofString (s : String) : String := ofBytes (Utf8.encode s)

/-- The string that a text of bytes encodes. -/
def toString (s : String) : String := Utf8.toStringLossy (toBytes s)

/-- The lines of a text, and whether the last one ends with a newline. -/
def lines (s : String) : List String × Bool :=
  let parts := (s.splitOn "\n")
  match parts.getLast? with
  | some "" => (parts.dropLast, true)
  | _ => (parts, false)

/-- The text of lines that all end with a newline. -/
def unlines (parts : List String) : String := String.join (parts.map (· ++ "\n"))

end Taskflow.Octets
