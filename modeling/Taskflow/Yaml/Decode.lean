import Taskflow.Duration
import Taskflow.Yaml.Node
set_option autoImplicit false

/-!
# Reading values out of a YAML document

Decoders read values of a known kind from nodes and follow references. Where a text is wanted, any
scalar will do; numbers and absent values have to be plain. A document may refer only so often to
its nodes: a hundred times for every place in it.

## Main definitions

* `Decode` — a decoder, which may run out of references.
* `Decode.text`, `Decode.natUpTo`, `Decode.option`, `Decode.list`, `Decode.pairs` — the kinds.
* `Decode.fields` — the members of a mapping with known names.
-/

namespace Taskflow.Yaml

/-- Reads a value in a document, counting down the references that may still be followed. -/
def Decode (α : Type) : Type := Document → Nat → Option (α × Nat)

namespace Decode

variable {α β : Type}

/-- The value itself. -/
def pure (a : α) : Decode α := fun _ left => some (a, left)

/-- No value. -/
def fail : Decode α := fun _ _ => none

/-- One decoder after the other. -/
def bind (d : Decode α) (f : α → Decode β) : Decode β := fun doc left =>
  match d doc left with
  | some (a, left) => f a doc left
  | none => none

instance : Monad Decode where
  pure := pure
  bind := bind

/-- The node itself, or the one that it refers to. -/
def follow : Node → Decode Node
  | .reference number => fun doc left =>
    match left, doc.target? number with
    | left + 1, some node => some (node, left)
    | _, _ => none
  | node => pure node

/-- A text, from any scalar. -/
def text (node : Node) : Decode String := do
  match ← follow node with
  | .scalar s => pure s.text
  | _ => fail

/-- The value of digits to a base, if there are any. -/
def digits? (base : Nat) (ds : List Char) : Option Nat :=
  if ds.isEmpty then none
  else
    ds.foldlM (fun n d =>
      match Json.Reader.hexValue? d with
      | some v => if v < base then some (base * n + v) else none
      | none => none) 0

/-- Whether a number is written with zeros in front, which makes it no number. -/
def hasLeadingZero (ds : List Char) : Bool :=
  match ds with
  | '0' :: rest => ¬ rest.isEmpty ∧ rest.all Char.isDigit
  | _ => false

/-- A number between zero and `max`: decimal, or hexadecimal, octal or binary behind `0x`, `0o` or
`0b`, with or without a plus sign. -/
def nat? (max : Nat) (text : String) : Option Nat :=
  let cs := match text.toList with
    | '+' :: rest => rest
    | cs => cs
  let based := match cs with
    | '0' :: 'x' :: rest => digits? 16 rest
    | '0' :: 'o' :: rest => digits? 8 rest
    | '0' :: 'b' :: rest => digits? 2 rest
    | _ => none
  let value := match based with
    | some n => some n
    | none => if hasLeadingZero cs then none else digits? 10 cs
  match value with
  | some n => if n ≤ max then some n else none
  | none => none

/-- The tags of numbers and of absent values. -/
def intTag : String := "tag:yaml.org,2002:int"

/-- The tag of absent values. -/
def nullTag : String := "tag:yaml.org,2002:null"

/-- A number between zero and `max`, from a plain scalar or a literal block that is tagged as a
number. -/
def natUpTo (max : Nat) (node : Node) : Decode Nat := do
  match ← follow node with
  | .scalar s =>
    if s.style = .plain ∨ (s.style = .literal ∧ s.tag = some intTag) then
      match nat? max s.text with
      | some n => pure n
      | none => fail
    else fail
  | _ => fail

/-- The words for an absent value. -/
def isNullWord (text : String) : Bool := text = "null" ∨ text = "Null" ∨ text = "NULL" ∨ text = "~"

/-- A value that may be absent: a plain scalar that is empty or a word for nothing. A tag other than
the one for absent values makes any scalar a value. -/
def option (decode : Node → Decode α) (node : Node) : Decode (Option α) := do
  let node ← follow node
  match node with
  | .scalar ⟨text, .plain, none⟩ =>
    if text = "" ∨ isNullWord text then pure none else some <$> decode node
  | .scalar ⟨text, .plain, some tag⟩ =>
    if tag = nullTag then (if isNullWord text then pure none else fail) else some <$> decode node
  | _ => some <$> decode node

/-- Whether a node is a plain scalar without text, which counts as an empty collection. -/
def isBare : Node → Bool
  | .scalar s => s.style = .plain ∧ s.text = ""
  | _ => false

/-- Decodes every item. -/
def all (decode : Node → Decode α) : List Node → Decode (List α)
  | [] => pure []
  | node :: rest => do
    let a ← decode node
    let as ← all decode rest
    pure (a :: as)

/-- A list. -/
def list (decode : Node → Decode α) (node : Node) : Decode (List α) := do
  match ← follow node with
  | .sequence items => all decode items
  | node => if isBare node then pure [] else fail

/-- Decodes the members of a mapping. -/
def allPairs (decode : Node → Decode α) : List (Node × Node) → Decode (List (String × α))
  | [] => pure []
  | (key, value) :: rest => do
    let k ← text key
    let a ← decode value
    let as ← allPairs decode rest
    pure ((k, a) :: as)

/-- A mapping with any names, as a list of pairs. -/
def pairs (decode : Node → Decode α) (node : Node) : Decode (List (String × α)) := do
  match ← follow node with
  | .mapping members => allPairs decode members
  | node => if isBare node then pure [] else fail

/-- Reads members one by one into a record; a name is `known` if there is a reader for it, and may
then stand only once. Members with other names are passed over. -/
def members (known : String → Option (Node → α → Decode α)) :
    List String → List (Node × Node) → α → Decode α
  | _, [], record => pure record
  | seen, (key, value) :: rest, record => do
    let name ← text key
    match known name with
    | some read =>
      if name ∈ seen then fail
      else
        let record ← read value record
        members known (name :: seen) rest record
    | none => members known seen rest record

/-- A mapping with known names, read into a record that is empty at first. -/
def fields (known : String → Option (Node → α → Decode α)) (empty : α) (node : Node) :
    Decode α := do
  match ← follow node with
  | .mapping ms => members known [] ms empty
  | _ => fail

/-- A field that has to be there. -/
def required (field : Option α) : Decode α :=
  match field with
  | some a => pure a
  | none => fail

/-- Reads the whole of a document. -/
def run? (decode : Node → Decode α) (doc : Document) : Option α :=
  (decode doc.root doc (100 * doc.size)).map (·.1)

end Decode

end Taskflow.Yaml
