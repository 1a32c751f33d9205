import Taskflow.Json.Reader
set_option autoImplicit false

/-!
# Run identifiers

A run is known by a universally unique identifier: 128 bits, written as 32 hexadecimal digits in
groups of 8, 4, 4, 4 and 12. Reading also takes the digits without hyphens, the groups between
braces, and the groups behind `urn:uuid:`.

## Main definitions

* `RunId` — the type.
* `RunId.hyphenated`, `RunId.simple` — the two written forms.
* `RunId.parse?` — reads any of the four forms, in any case.
* `RunId.ofJson?` — reads a JSON text.
-/

namespace Taskflow

/-- The identifier of a run. -/
structure RunId where
  bits : BitVec 128
  deriving Repr, DecidableEq, Inhabited

namespace RunId

/-- The lowest `n` hexadecimal digits of a number, most significant first. -/
def hexDigits (n value : Nat) : List Char :=
  (List.range n).reverse.map fun i => Json.hexDigit (value / Nat.pow 16 i % 16)

/-- The 32 digits. -/
def digits (r : RunId) : List Char := hexDigits 32 r.bits.toNat

/-- The digits without hyphens. -/
def simple (r : RunId) : String := String.ofList r.digits

/-- The digits in five groups. -/
def hyphenated (r : RunId) : String :=
  let ds := r.digits
  let group (start len : Nat) : String := String.ofList ((ds.drop start).take len)
  "-".intercalate [group 0 8, group 8 4, group 12 4, group 16 4, group 20 12]

/-- The number that hexadecimal digits write. -/
def hexValue? (ds : List Char) : Option Nat :=
  ds.foldlM (fun n d => (Json.Reader.hexValue? d).map (16 * n + ·)) 0

/-- The bits that 32 digits write. -/
def ofDigits? (ds : List Char) : Option RunId :=
  if ds.length = 32 then (hexValue? ds).map fun n => ⟨BitVec.ofNat 128 n⟩ else none

/-- Reads five groups. -/
def ofGroups? (cs : List Char) : Option RunId :=
  if cs.length = 36 ∧ [8, 13, 18, 23].all fun i => cs[i]? = some '-' then
    ofDigits? (cs.take 8 ++ (cs.drop 9).take 4 ++ (cs.drop 14).take 4 ++ (cs.drop 19).take 4 ++
      cs.drop 24)
  else none

/-- The text in front of the groups in the form of a resource name. -/
def urnScheme : List Char := "urn:uuid:".toList

/-- Reads a written identifier. -/
def parse? (text : String) : Option RunId :=
  let cs := text.toList
  if cs.length = 32 then ofDigits? cs
  else if cs.length = 36 then ofGroups? cs
  else if cs.length = 38 ∧ cs.head? = some '\x7b' ∧ cs.getLast? = some '\x7d' then
    ofGroups? ((cs.drop 1).take 36)
  else if cs.length = 45 ∧ urnScheme.isPrefixOf cs then ofGroups? (cs.drop 9)
  else none

/-- Reads a JSON text that is one string. -/
def ofJson? (text : String) : Option RunId := do
  parse? (← Json.Reader.whole? Json.Reader.string? text)

/-- As JSON, a string in five groups. -/
def toJson (r : RunId) : Json := .str r.hyphenated

end RunId

end Taskflow
