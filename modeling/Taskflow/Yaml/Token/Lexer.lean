import Taskflow.Text.Utf8
import Taskflow.Yaml.Token.Scalar
set_option autoImplicit false

/-!
# Cutting a YAML text into tokens

The lexer keeps a stack of indentations, whose changes become starts and ends of block collections,
and for every level of brackets a place at which a key without a question mark may have begun. If a
colon follows such a place on its line and within 1024 characters, the key is marked after the fact.

## Main definitions

* `SimpleKey` — a place at which a key may have begun.
* `Lexer` — where the lexer stands, and the tokens so far.
* `Lexer.next?` — reads the next token.
* `Token.scan?` — all tokens of a text.
-/

namespace Taskflow.Yaml

/-- A place at which a key may have begun: before token number `token`. A required key has to be
followed by a colon. -/
structure SimpleKey where
  possible : Bool := false
  required : Bool := false
  token : Nat := 0
  index : Nat := 0
  line : Nat := 0
  column : Nat := 0
  deriving Repr, DecidableEq, Inhabited

/-- Where the lexer stands. `indents` holds the outer indentations; `key` belongs to the innermost
level of brackets and `outerKeys` to those around it. -/
structure Lexer where
  cursor : Cursor
  limit : Nat
  indent : Int := -1
  indents : List Int := []
  keyAllowed : Bool := true
  key : SimpleKey := {}
  outerKeys : List SimpleKey := []
  tokens : Array Token := #[]
  isDone : Bool := false
  deriving Repr, Inhabited

namespace Lexer

/-- Whether the lexer is between brackets. -/
def inFlow (l : Lexer) : Bool := ¬ l.outerKeys.isEmpty

/-- Appends a token. -/
def push (l : Lexer) (t : Token) : Lexer := { l with tokens := l.tokens.push t }

/-- Puts a token before token number `n`. -/
def insert (l : Lexer) (n : Nat) (t : Token) : Lexer :=
  { l with tokens := l.tokens.insertIdxIfInBounds n t }

/-- Moves on. -/
def moveTo (l : Lexer) (c : Cursor) : Lexer := { l with cursor := c }

/-! ## Keys -/

/-- A key that is too long or on another line is none any more; `none` if it was required. -/
def expire? (c : Cursor) (k : SimpleKey) : Option SimpleKey :=
  if k.possible ∧ (k.line < c.line ∨ k.index + 1024 < c.index) then
    if k.required then none else some { k with possible := false }
  else some k

/-- Lets keys expire. -/
def expireKeys? (l : Lexer) : Option Lexer := do
  some { l with
    key := ← expire? l.cursor l.key
    outerKeys := ← l.outerKeys.mapM (expire? l.cursor) }

/-- No key can have begun; `none` if one was required. -/
def dropKey? (l : Lexer) : Option Lexer :=
  if l.key.possible ∧ l.key.required then none
  else some { l with key := { l.key with possible := false } }

/-- A key may begin here. -/
def saveKey? (l : Lexer) : Option Lexer :=
  if l.keyAllowed then do
    let l ← l.dropKey?
    some { l with key :=
      { possible := true
        required := ¬ l.inFlow ∧ l.indent = l.cursor.column
        token := l.tokens.size
        index := l.cursor.index
        line := l.cursor.line
        column := l.cursor.column } }
  else some l

/-! ## Indentation -/

/-- A block collection begins at a column, if that lies deeper: its start is put before token
number `n`. -/
def indentTo (l : Lexer) (column : Nat) (n : Nat) (start : Token) : Lexer :=
  if l.inFlow ∨ ¬ l.indent < column then l
  else { l with indents := l.indent :: l.indents, indent := column }.insert n start

/-- Block collections that lie deeper than a column end. -/
def dedentTo (l : Lexer) (column : Int) : Lexer :=
  if l.inFlow then l
  else
    let rec go (indent : Int) (tokens : Array Token) : List Int → Int × List Int × Array Token
      | [] => (indent, [], tokens)
      | outer :: rest =>
        if column < indent then go outer (tokens.push .blockEnd) rest
        else (indent, outer :: rest, tokens)
    let (indent, indents, tokens) := go l.indent l.tokens l.indents
    { l with indent, indents, tokens }

/-! ## Between tokens -/

/-- Passes blanks, comments and line ends. A tab may not stand where a key may begin, except
between brackets. -/
def skipToToken : Nat → Lexer → Lexer
  | 0, l => l
  | fuel + 1, l =>
    let c := l.cursor
    let c := if c.index = 0 ∧ c.at_ byteOrderMark then c.advance 1 else c
    let c := c.skipWhile fun d => d = ' ' ∨ (d = '\t' ∧ (l.inFlow ∨ ¬ l.keyAllowed))
    let c := if c.at_ '#' then c.skipLine else c
    if c.holdsAt 0 isBreak then
      skipToToken fuel
        { l with cursor := c.skipBreak, keyAllowed := if l.inFlow then l.keyAllowed else true }
    else l.moveTo c

/-! ## Directives, anchors and tags -/

/-- A number of a version, of at most nine digits. -/
def versionNumber? (c : Cursor) : Option (Nat × Cursor) :=
  let (digits, c) := c.takeWhile Char.isDigit
  if digits.isEmpty ∨ 9 < digits.length then none
  else some (Json.Reader.digitsValue digits, c)

/-- The characters of the text of a tag; a few more may stand between angle brackets. -/
def isTagChar (verbatim : Bool) (c : Char) : Bool :=
  isWord c ∨ c ∈ ";/?:@&=+$.%!~*'()".toList ∨ (verbatim ∧ c ∈ ",[]".toList)

/-- Bytes that are written as a percent sign and two digits. -/
def escapedBytes? : Nat → List Char → Option (List UInt8 × List Char)
  | 0, _ => none
  | fuel + 1, '%' :: a :: b :: rest => do
    let byte := UInt8.ofNat (16 * (← Json.Reader.hexValue? a) + (← Json.Reader.hexValue? b))
    let (bytes, rest) ← escapedBytes? fuel rest
    some (byte :: bytes, rest)
  | _ + 1, '%' :: _ => none
  | _ + 1, cs => some ([], cs)

/-- Resolves what is escaped in the text of a tag. -/
def unescapeTag? : Nat → List Char → Option (List Char)
  | 0, _ => none
  | _ + 1, [] => some []
  | fuel + 1, c :: cs =>
    if c = '%' then do
      let (bytes, rest) ← escapedBytes? (cs.length + 2) (c :: cs)
      some ((← Utf8.decode? bytes) ++ (← unescapeTag? fuel rest))
    else (unescapeTag? fuel cs).map (c :: ·)

/-- The text of a tag; `some` text may be empty only if `mayBeEmpty`. -/
def tagText? (verbatim mayBeEmpty : Bool) (c : Cursor) : Option (String × Cursor) := do
  let (text, c) := c.takeWhile (isTagChar verbatim)
  if text.isEmpty ∧ ¬ mayBeEmpty then none
  else some (String.ofList (← unescapeTag? (text.length + 1) text), c)

/-- The handle of a tag: an exclamation mark, or a word between two of them. The second mark may be
missing outside of directives. -/
def tagHandle? (inDirective : Bool) (c : Cursor) : Option (List Char × Cursor) :=
  if c.at_ '!' then
    let (word, c) := (c.advance 1).takeWhile isWord
    if c.at_ '!' then some ('!' :: word ++ ['!'], c.advance 1)
    else if inDirective ∧ ¬ word.isEmpty then none
    else some ('!' :: word, c)
  else none

/-- A directive from its percent sign on. -/
def directive? (c : Cursor) : Option (Token × Cursor) := do
  let (name, c) := (c.advance 1).takeWhile isWord
  if name.isEmpty ∨ ¬ c.blankOrEndAt 0 then none
  else if name = ['Y', 'A', 'M', 'L'] then
    let (major, c) ← versionNumber? (c.skipWhile isBlank)
    if c.at_ '.' then
      let (minor, c) ← versionNumber? (c.advance 1)
      some (.versionDirective major minor, ← c.finishLine?)
    else none
  else if name = ['T', 'A', 'G'] then
    let (handle, c) ← tagHandle? true (c.skipWhile isBlank)
    if c.holdsAt 0 isBlank then
      let (start, c) ← tagText? true false (c.skipWhile isBlank)
      if c.blankOrEndAt 0 then
        some (.tagDirective (String.ofList handle) start, ← c.finishLine?)
      else none
    else none
  else none

/-- The name of an anchor or alias behind its first character. -/
def anchorName? (c : Cursor) : Option (String × Cursor) :=
  let (name, c) := (c.advance 1).takeWhile isWord
  let closes (d : Char) : Bool := d ∈ "?:,]\x7d%@\x60".toList
  if name.isEmpty ∨ ¬ (c.blankOrEndAt 0 ∨ c.holdsAt 0 closes) then none
  else some (String.ofList name, c)

/-- A tag from its exclamation mark on. -/
def tag? (inFlow : Bool) (c : Cursor) : Option (Token × Cursor) := do
  let (t, c) ←
    if c.holdsAt 1 (· = '<') then do
      let (suffix, c) ← tagText? true false (c.advance 2)
      if c.at_ '>' then some (Token.tag "" suffix, c.advance 1) else none
    else do
      let (handle, c) ← tagHandle? false c
      match handle with
      | '!' :: word@(_ :: _) =>
        if word.getLast? = some '!' then
          let (suffix, c) ← tagText? false false c
          some (Token.tag (String.ofList handle) suffix, c)
        else
          let (suffix, c) ← tagText? false true c
          some (Token.tag "!" (String.ofList word ++ suffix), c)
      | _ =>
        let (suffix, c) ← tagText? false true c
        some (if suffix = "" then Token.tag "" "!" else Token.tag "!" suffix, c)
  if c.blankOrEndAt 0 ∨ (inFlow ∧ c.at_ ',') then some (t, c) else none

/-! ## Tokens -/

/-- Passes the end of the text. -/
def finish? (l : Lexer) : Option Lexer := do
  let c := l.cursor
  let c := if c.column = 0 then c else { c with column := 0, line := c.line + 1 }
  let l ← ({ l with cursor := c }.dedentTo (-1)).dropKey?
  some { l with isDone := true }

/-- A directive. -/
def directiveToken? (l : Lexer) : Option Lexer := do
  let l ← (l.dedentTo (-1)).dropKey?
  let (t, c) ← directive? l.cursor
  some ({ l with keyAllowed := false, cursor := c }.push t)

/-- A mark between documents. -/
def documentToken? (t : Token) (l : Lexer) : Option Lexer := do
  let l ← (l.dedentTo (-1)).dropKey?
  some ({ l with keyAllowed := false, cursor := l.cursor.advance 3 }.push t)

/-- An opening bracket. -/
def openToken? (t : Token) (l : Lexer) : Option Lexer := do
  let l ← l.saveKey?
  some ({ l with
    outerKeys := l.key :: l.outerKeys
    key := {}
    keyAllowed := true
    cursor := l.cursor.advance 1 }.push t)

/-- A closing bracket. -/
def closeToken? (t : Token) (l : Lexer) : Option Lexer := do
  let l ← l.dropKey?
  let (key, outerKeys) := match l.outerKeys with
    | key :: outerKeys => (key, outerKeys)
    | [] => (l.key, [])
  some ({ l with key, outerKeys, keyAllowed := false, cursor := l.cursor.advance 1 }.push t)

/-- A comma between brackets. -/
def flowEntryToken? (l : Lexer) : Option Lexer := do
  let l ← l.dropKey?
  some ({ l with keyAllowed := true, cursor := l.cursor.advance 1 }.push .flowEntry)

/-- A dash before an item. -/
def blockEntryToken? (l : Lexer) : Option Lexer := do
  let l ←
    if l.inFlow then some l
    else if l.keyAllowed then
      some (l.indentTo l.cursor.column l.tokens.size .blockSequenceStart)
    else none
  let l ← l.dropKey?
  some ({ l with keyAllowed := true, cursor := l.cursor.advance 1 }.push .blockEntry)

/-- A question mark before a key. -/
def keyToken? (l : Lexer) : Option Lexer := do
  let l ←
    if l.inFlow then some l
    else if l.keyAllowed then some (l.indentTo l.cursor.column l.tokens.size .blockMappingStart)
    else none
  let l ← l.dropKey?
  some ({ l with keyAllowed := ¬ l.inFlow, cursor := l.cursor.advance 1 }.push .key)

/-- A colon before a value; what came before it may turn out to be a key. -/
def valueToken? (l : Lexer) : Option Lexer := do
  let l ←
    if l.key.possible then
      let k := l.key
      let l := (l.insert k.token .key).indentTo k.column k.token .blockMappingStart
      some { l with key := { k with possible := false }, keyAllowed := false }
    else if l.inFlow then some { l with keyAllowed := false }
    else if l.keyAllowed then
      some { l.indentTo l.cursor.column l.tokens.size .blockMappingStart with keyAllowed := true }
    else none
  some ((l.moveTo (l.cursor.advance 1)).push .value)

/-- A token at which a key may begin. -/
def contentToken? (read? : Cursor → Option (Token × Cursor)) (l : Lexer) : Option Lexer := do
  let l ← l.saveKey?
  let (t, c) ← read? l.cursor
  some ({ l with keyAllowed := false, cursor := c }.push t)

/-- A block scalar. -/
def blockScalarToken? (literal : Bool) (l : Lexer) : Option Lexer := do
  let l ← l.dropKey?
  let (t, c) ← Scalar.block? l.limit literal l.indent l.cursor
  some ({ l with keyAllowed := true, cursor := c }.push t)

/-- A plain scalar; behind a line end another key may begin. -/
def plainToken? (l : Lexer) : Option Lexer := do
  let l ← l.saveKey?
  let (t, broken, c) ← Scalar.plain? l.limit l.inFlow (l.indent + 1).toNat l.cursor
  some ({ l with keyAllowed := broken, cursor := c }.push t)

/-- The characters with which no plain scalar begins. -/
def isIndicator (c : Char) : Bool := c ∈ "-?:,[]\x7b\x7d#&*!|>'\"%@\x60".toList

/-- Whether a plain scalar may begin here. -/
def atPlain (l : Lexer) : Bool :=
  let c := l.cursor
  c.holdsAt 0 (fun d => ¬ (isBlank d ∨ isBreak d ∨ isIndicator d)) ∨
    (c.at_ '-' ∧ ¬ c.holdsAt 1 isBlank) ∨
    (¬ l.inFlow ∧ c.holdsAt 0 (fun d => d = '?' ∨ d = ':') ∧ ¬ c.blankOrEndAt 1)

/-- Reads the next token; `none` if the text is not well formed. -/
def next? (l : Lexer) : Option Lexer := do
  let l ← (skipToToken l.limit l).expireKeys?
  let l := l.dedentTo l.cursor.column
  let c := l.cursor
  match c.rest with
  | [] => l.finish?
  | d :: _ =>
    let blankNext := c.blankOrEndAt 1
    if c.column = 0 ∧ d = '%' then l.directiveToken?
    else if c.atDocumentMark then
      l.documentToken? (if d = '-' then .documentStart else .documentEnd)
    else if d = '[' then l.openToken? .flowSequenceStart
    else if d = '\x7b' then l.openToken? .flowMappingStart
    else if d = ']' then l.closeToken? .flowSequenceEnd
    else if d = '\x7d' then l.closeToken? .flowMappingEnd
    else if d = ',' then l.flowEntryToken?
    else if d = '-' ∧ blankNext then l.blockEntryToken?
    else if d = '?' ∧ (l.inFlow ∨ blankNext) then l.keyToken?
    else if d = ':' ∧ (l.inFlow ∨ blankNext) then l.valueToken?
    else if d = '*' then
      l.contentToken? fun c => (anchorName? c).map fun r => (.alias r.1, r.2)
    else if d = '&' then
      l.contentToken? fun c => (anchorName? c).map fun r => (.anchor r.1, r.2)
    else if d = '!' then l.contentToken? (tag? l.inFlow)
    else if d = '|' ∧ ¬ l.inFlow then l.blockScalarToken? true
    else if d = '>' ∧ ¬ l.inFlow then l.blockScalarToken? false
    else if d = '\'' then l.contentToken? (Scalar.quoted? l.limit true)
    else if d = '"' then l.contentToken? (Scalar.quoted? l.limit false)
    else if l.atPlain then l.plainToken?
    else none

/-- Reads all tokens; each but the last takes a character, which bounds the `fuel` that is
needed. -/
def run? : Nat → Lexer → Option (List Token)
  | 0, _ => none
  | fuel + 1, l =>
    if l.isDone then some l.tokens.toList
    else
      match l.next? with
      | some l => run? fuel l
      | none => none

end Lexer

/-- The tokens of a text; `none` if it holds characters that are not allowed or is not well
formed. -/
def Token.scan? (text : String) : Option (List Token) :=
  let cs := match text.toList with
    | c :: rest => if c = byteOrderMark then rest else c :: rest
    | [] => []
  if cs.all isAllowed then
    let limit := cs.length + 3
    Lexer.run? limit { cursor := { rest := cs }, limit }
  else none

end Taskflow.Yaml
