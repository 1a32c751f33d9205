import Taskflow.Yaml.Token.Lexer
set_option autoImplicit false

/-!
# The nodes of a YAML document

A document is a tree of scalars, sequences and mappings in which a node may be named and referred
to from elsewhere. A name may be given again; references mean the node that has it then.

## Main definitions

* `Scalar`, `Node` — the tree; a reference holds the number of the node that is meant.
* `Document` — a tree with the nodes that are referred to.
* `Node.Builder` — the tokens that are left, and the names so far.
* `Document.ofTokens?`, `Document.parse?` — the one document of a list of tokens and of a text.
-/

namespace Taskflow.Yaml

/-- A scalar: its text, how it is written, and its tag. -/
structure Scalar where
  text : String
  style : ScalarStyle
  tag : Option String := none
  deriving Repr, DecidableEq, Inhabited

/-- A node of a document. -/
inductive Node where
  | scalar (s : Scalar)
  | sequence (items : List Node)
  | mapping (members : List (Node × Node))
  | reference (target : Nat)
  deriving Repr, Inhabited

/-- A node that was named: the number of its name, its place in the document, and itself. -/
structure Anchored where
  number : Nat
  place : Nat
  node : Node
  deriving Repr, Inhabited

/-- The tree of a document, the named nodes, and the number of places that nodes take: one for a
scalar or a reference, two for a collection. -/
structure Document where
  root : Node
  anchored : List Anchored
  size : Nat
  deriving Repr, Inhabited

namespace Document

/-- The node with the given number; of several the one that begins last. -/
def target? (d : Document) (number : Nat) : Option Node :=
  let latest := (d.anchored.filter (·.number = number)).foldl (fun (best : Option Anchored) a =>
    match best with
    | some b => if b.place < a.place then some a else some b
    | none => some a) none
  latest.map (·.node)

end Document

namespace Node

/-- The tokens that are left, the tag handles, the numbers of the names, the named nodes, and the
number of places taken so far. -/
structure Builder where
  tokens : List Token
  handles : List (String × String) := []
  names : List (String × Nat) := []
  anchored : List Anchored := []
  size : Nat := 0
  deriving Repr, Inhabited

/-- The name and the tag in front of a node. -/
structure Properties where
  anchor : Option String := none
  tag : Option String := none
  deriving Repr, DecidableEq, Inhabited

namespace Builder

/-- Passes a token. -/
def pass (b : Builder) : Builder := { b with tokens := b.tokens.tail }

/-- Whether the next token is one of the given ones. -/
def atAny (b : Builder) (ts : List Token) : Bool :=
  match b.tokens with
  | t :: _ => decide (t ∈ ts)
  | [] => false

/-- A number for a name: the count of the other names, so that a name which is given again takes a
number that the next new name takes too. -/
def number (b : Builder) : Nat := b.names.length

/-- Gives a name to the node that begins here; the number and place are kept for later. -/
def open_ (b : Builder) (anchor : Option String) : Builder × Option (Nat × Nat) :=
  match anchor with
  | some name =>
    let names := (name, b.number) :: b.names.filter fun n => n.1 ≠ name
    ({ b with names, size := b.size + 1 }, some (b.number, b.size))
  | none => ({ b with size := b.size + 1 }, none)

/-- Notes that a node has ended which may have a name. -/
def close (b : Builder) (named : Option (Nat × Nat)) (node : Node) : Builder :=
  match named with
  | some (number, place) => { b with anchored := ⟨number, place, node⟩ :: b.anchored }
  | none => b

/-- A scalar begins and ends. -/
def addScalar (b : Builder) (anchor : Option String) (s : Scalar) : Node × Builder :=
  let (b, named) := b.open_ anchor
  (.scalar s, b.close named (.scalar s))

/-- A node of which nothing is written. -/
def addEmpty (b : Builder) (p : Properties := {}) : Node × Builder :=
  b.addScalar p.anchor ⟨"", .plain, p.tag⟩

/-- A collection ends, whose beginning was noted before. -/
def addCollection (b : Builder) (named : Option (Nat × Nat)) (node : Node) : Node × Builder :=
  (node, { b with size := b.size + 1 }.close named node)

/-- The tag that a handle and a suffix stand for. -/
def resolveTag? (b : Builder) (handle suffix : String) : Option String :=
  if handle = "" then some suffix
  else (b.handles.find? (·.1 = handle)).map fun h => h.2 ++ suffix

/-- Reads the name and the tag in front of a node, in either order. -/
def properties? (b : Builder) : Option (Properties × Builder) :=
  match b.tokens with
  | .anchor name :: .tag handle suffix :: rest | .tag handle suffix :: .anchor name :: rest => do
    some (⟨some name, some (← b.resolveTag? handle suffix)⟩, { b with tokens := rest })
  | .anchor name :: rest => some (⟨some name, none⟩, { b with tokens := rest })
  | .tag handle suffix :: rest => do
    some (⟨none, some (← b.resolveTag? handle suffix)⟩, { b with tokens := rest })
  | _ => some ({}, b)

end Builder

/-- The tag of a scalar; the tag of a lone exclamation mark says nothing. -/
def scalarTag (tag : Option String) : Option String := if tag = some "!" then none else tag

mutual

/-- Reads a node; `block` allows block collections, `dashes` a sequence that is not indented. -/
def read? : Nat → (block dashes : Bool) → Builder → Option (Node × Builder)
  | 0, _, _, _ => none
  | fuel + 1, block, dashes, b =>
    match b.tokens with
    | .alias name :: _ => do
      let (_, number) ← b.names.find? (·.1 = name)
      some (.reference number, { b.pass with size := b.size + 1 })
    | _ => do
      let (p, b) ← b.properties?
      match b.tokens with
      | .blockEntry :: _ =>
        if dashes then
          let (b, named) := b.open_ p.anchor
          let (items, b) ← dashItems? fuel b
          some (b.addCollection named (.sequence items))
        else if p = {} then none
        else some (b.addEmpty p)
      | .scalar text style :: _ =>
        some (b.pass.addScalar p.anchor ⟨text, style, scalarTag p.tag⟩)
      | .flowSequenceStart :: _ =>
        let (b, named) := b.open_ p.anchor
        let (items, b) ← flowItems? fuel true b.pass
        some (b.addCollection named (.sequence items))
      | .flowMappingStart :: _ =>
        let (b, named) := b.open_ p.anchor
        let (members, b) ← flowMembers? fuel true b.pass
        some (b.addCollection named (.mapping members))
      | t :: _ =>
        if block ∧ t = .blockSequenceStart then
          let (b, named) := b.open_ p.anchor
          let (items, b) ← blockItems? fuel b.pass
          some (b.addCollection named (.sequence items))
        else if block ∧ t = .blockMappingStart then
          let (b, named) := b.open_ p.anchor
          let (members, b) ← blockMembers? fuel b.pass
          some (b.addCollection named (.mapping members))
        else if p = {} then none
        else some (b.addEmpty p)
      | [] => if p = {} then none else some (b.addEmpty p)

/-- Reads the items of a block sequence up to its end. -/
def blockItems? : Nat → Builder → Option (List Node × Builder)
  | 0, _ => none
  | fuel + 1, b =>
    match b.tokens with
    | .blockEntry :: _ => do
      let b := b.pass
      let (item, b) ←
        if b.atAny [.blockEntry, .blockEnd] then some b.addEmpty else read? fuel true false b
      let (items, b) ← blockItems? fuel b
      some (item :: items, b)
    | .blockEnd :: _ => some ([], b.pass)
    | _ => none

/-- Reads the items of a block sequence that is not indented. -/
def dashItems? : Nat → Builder → Option (List Node × Builder)
  | 0, _ => none
  | fuel + 1, b =>
    match b.tokens with
    | .blockEntry :: _ => do
      let b := b.pass
      let (item, b) ←
        if b.atAny [.blockEntry, .key, .value, .blockEnd] then some b.addEmpty
        else read? fuel true false b
      let (items, b) ← dashItems? fuel b
      some (item :: items, b)
    | _ => some ([], b)

/-- Reads the members of a block mapping up to its end. -/
def blockMembers? : Nat → Builder → Option (List (Node × Node) × Builder)
  | 0, _ => none
  | fuel + 1, b =>
    let part? (b : Builder) : Option (Node × Builder) :=
      if b.atAny [.key, .value, .blockEnd] then some b.addEmpty else read? fuel true true b
    let value? (b : Builder) : Option (Node × Builder) :=
      if b.atAny [.value] then part? b.pass else some b.addEmpty
    match b.tokens with
    | .key :: _ => do
      let (key, b) ← part? b.pass
      let (value, b) ← value? b
      let (members, b) ← blockMembers? fuel b
      some ((key, value) :: members, b)
    | .blockEnd :: _ => some ([], b.pass)
    | _ => none

/-- Reads the items of a flow sequence up to its end. -/
def flowItems? : Nat → (first : Bool) → Builder → Option (List Node × Builder)
  | 0, _, _ => none
  | fuel + 1, first, b =>
    if b.atAny [.flowSequenceEnd] then some ([], b.pass)
    else if ¬ first ∧ ¬ b.atAny [.flowEntry] then none
    else
      let b := if first then b else b.pass
      match b.tokens with
      | .flowSequenceEnd :: _ => some ([], b.pass)
      | .key :: _ => do
        let (pair, b) ← flowPair? fuel b.pass
        let (items, b) ← flowItems? fuel false b
        some (pair :: items, b)
      | _ => do
        let (item, b) ← read? fuel false false b
        let (items, b) ← flowItems? fuel false b
        some (item :: items, b)

/-- Reads a single pair in a flow sequence, which is a mapping of its own. Where the key is empty,
the token after it is passed. -/
def flowPair? : Nat → Builder → Option (Node × Builder)
  | 0, _ => none
  | fuel + 1, b => do
    let b := { b with size := b.size + 1 }
    let (key, b) ←
      if b.atAny [.value, .flowEntry, .flowSequenceEnd] then some b.pass.addEmpty
      else read? fuel false false b
    let (value, b) ←
      if b.atAny [.value] then
        let b := b.pass
        if b.atAny [.flowEntry, .flowSequenceEnd] then some b.addEmpty
        else read? fuel false false b
      else some b.addEmpty
    some (b.addCollection none (.mapping [(key, value)]))

/-- Reads the members of a flow mapping up to its end. -/
def flowMembers? : Nat → (first : Bool) → Builder → Option (List (Node × Node) × Builder)
  | 0, _, _ => none
  | fuel + 1, first, b =>
    if b.atAny [.flowMappingEnd] then some ([], b.pass)
    else if ¬ first ∧ ¬ b.atAny [.flowEntry] then none
    else
      let b := if first then b else b.pass
      let value? (b : Builder) : Option (Node × Builder) :=
        if b.atAny [.value] then
          let b := b.pass
          if b.atAny [.flowEntry, .flowMappingEnd] then some b.addEmpty
          else read? fuel false false b
        else some b.addEmpty
      match b.tokens with
      | .flowMappingEnd :: _ => some ([], b.pass)
      | .key :: _ => do
        let b := b.pass
        let (key, b) ←
          if b.atAny [.value, .flowEntry, .flowMappingEnd] then some b.addEmpty
          else read? fuel false false b
        let (value, b) ← value? b
        let (members, b) ← flowMembers? fuel false b
        some ((key, value) :: members, b)
      | _ => do
        let (key, b) ← read? fuel false false b
        let (value, b) := b.addEmpty
        let (members, b) ← flowMembers? fuel false b
        some ((key, value) :: members, b)

end

end Node

namespace Document

/-- The handles that every document has. -/
def defaultHandles : List (String × String) := [("!", "!"), ("!!", "tag:yaml.org,2002:")]

/-- Reads directives in front of a document: one version at most, which has to be 1.1 or 1.2, and
every handle once at most. -/
def directives? (versioned : Bool) (handles : List (String × String)) :
    List Token → Option (List (String × String) × List Token)
  | .versionDirective major minor :: rest =>
    if versioned ∨ major ≠ 1 ∨ (minor ≠ 1 ∧ minor ≠ 2) then none
    else directives? true handles rest
  | .tagDirective handle start :: rest =>
    if handles.any (·.1 = handle) then none
    else directives? versioned (handles ++ [(handle, start)]) rest
  | rest => some (handles, rest)

/-- Reads the content of a document; nothing at all is an empty scalar. -/
def content? (b : Node.Builder) (explicit : Bool) : Option (Node × Node.Builder) :=
  let ends : Bool := match b.tokens with
    | [] | .documentEnd :: _ | .documentStart :: _ => true
    | .versionDirective .. :: _ | .tagDirective .. :: _ => true
    | _ => false
  if explicit ∧ ends then some b.addEmpty
  else Node.read? (4 * b.tokens.length + 4) true false b

/-- The document of a list of tokens, which has to be the only one. -/
def ofTokens? (tokens : List Token) : Option Document := do
  let (handles, rest) ← directives? false [] tokens
  let explicit := rest.head? = some .documentStart
  if tokens.isEmpty ∨ (rest.length < tokens.length ∧ ¬ explicit) then none
  else
    let b : Node.Builder :=
      { tokens := if explicit then rest.tail else rest
        handles := handles ++ defaultHandles }
    let (root, b) ← content? b explicit
    if b.tokens.all (· = .documentEnd) then some ⟨root, b.anchored, b.size⟩ else none

/-- The document of a text. -/
def parse? (text : String) : Option Document := do ofTokens? (← Token.scan? text)

end Document

end Taskflow.Yaml
