import Taskflow.Shell.Command
set_option autoImplicit false

/-!
# Reading shell scripts

A recursive descent reader for the command language of a shell. A script is read line by
line: a line is carried out before the next one is read, so an error shows only after what stands
in front of it has been done. Every reader has a bound on its depth, which the length of the text
exceeds by no more than a constant.

## Main definitions

* `Shell.Source`, `Shell.ReadError`, `Shell.Reader` — what is still to be read, and what can be
  wrong with it.
* `Shell.Reader.pieces` — the pieces of a word.
* `Shell.Reader.list` — commands up to a word or a sign that closes them.
* `Shell.readLine` — the next line of a script.
-/

namespace Taskflow.Shell

/-- What is still to be read, and the number of its first line. -/
structure Source where
  rest : List Char
  line : Nat := 1
  deriving Repr, Inhabited

/-- What is wrong with a script, and in which line. -/
structure ReadError where
  line : Nat
  message : String
  deriving Repr, DecidableEq, Inhabited

/-- Readers of parts of a script. -/
abbrev Reader := StateT Source (Except ReadError)

/-- The character around commands whose output is wanted, in the older style. -/
def backquote : Char := '\x60'

/-- The characters that end a word. -/
def endsWord (c : Char) : Bool := " \t\n;&|<>()".toList.contains c

/-- Whether a name can start with this character. -/
def startsName (c : Char) : Bool := c.isAlpha || c = '_'

/-- Whether this character can stand in a name. -/
def inName (c : Char) : Bool := c.isAlphanum || c = '_'

/-- Whether a text is a name. -/
def isName (s : String) : Bool :=
  match s.toList with
  | c :: cs => startsName c && cs.all inName
  | [] => false

/-- Where the pieces of a word stand, which decides where they end. -/
inductive Context where
  | word
  | quotes
  | braces (quoted : Bool)
  | sum (depth : Nat)
  | here
  deriving Repr, DecidableEq, Inhabited

namespace Context

/-- Whether text that stands here is quoted. -/
def quoted : Context → Bool
  | .word => false
  | .braces q => q
  | .quotes | .sum _ | .here => true

/-- Whether the pieces end in front of this text. -/
def ends : Context → List Char → Bool
  | .word, c :: _ => endsWord c
  | .quotes, c :: _ => c = '"'
  | .braces _, c :: _ => c = '\x7d'
  | .sum 0, ')' :: ')' :: _ => true
  | _, _ => false

/-- What is wrong if the script ends here. -/
def unclosed : Context → Option String
  | .word | .here => none
  | .quotes => some "Unterminated quoted string"
  | .braces _ => some "Missing '\x7d'"
  | .sum _ => some "Missing '))'"

/-- Whether a backslash takes the meaning of this character away. -/
def escapes (ctx : Context) (c : Char) : Bool :=
  match ctx with
  | .word | .braces false => true
  | .here => c = '$' || c = backquote || c = '\\' || c = '\n'
  | _ => c = '$' || c = backquote || c = '\\' || c = '\n' || c = '"'

/-- The context behind a character. -/
def after (ctx : Context) (c : Char) : Context :=
  match ctx with
  | .sum depth => if c = '(' then .sum (depth + 1) else if c = ')' then .sum (depth - 1) else ctx
  | _ => ctx

end Context

/-- Joins neighbouring texts. -/
def merge : List Piece → List Piece
  | [] => []
  | p :: ps =>
    match p, merge ps with
    | .text q s, .text r t :: rest => if q = r then .text q (s ++ t) :: rest else
      .text q s :: .text r t :: rest
    | p, rest => p :: rest

/-- An assignment, if the word is one. -/
def assignment? : Word → Option (String × Word)
  | .text false s :: rest =>
    let cs := s.toList
    let name := String.ofList (cs.takeWhile inName)
    match cs.dropWhile inName with
    | '=' :: value =>
      if isName name then
        some (name, if value.isEmpty then rest else .text false (String.ofList value) :: rest)
      else none
    | _ => none
  | _ => none

/-- The sign at the beginning of a text that is not part of a word. -/
def operator? (cs : List Char) : Option String :=
  ["&&", "||", ";;", "<<-", "<<", "<&", "<>", ">>", ">&", ">|", ";", "&", "|", "(", ")", "<",
    ">"].find? fun op => op.toList.isPrefixOf cs

/-- The words that close what others have opened. -/
def closingWords : List String :=
  ["then", "else", "elif", "fi", "do", "done", "esac", "\x7d"]

/-- The words with a meaning of their own at the beginning of a command. -/
def reservedWords : List String :=
  closingWords ++ ["if", "while", "until", "for", "case", "\x7b", "!", "in"]

/-- The plain word at the beginning of a text. -/
def plainWord? (cs : List Char) : Option String :=
  let special (c : Char) : Bool := "'\"\\$".toList.contains c || c = backquote
  let word := cs.takeWhile fun c => !endsWord c && !special c
  match cs.drop word.length with
  | c :: _ => if endsWord c ∧ word ≠ [] then some (String.ofList word) else none
  | [] => if word = [] then none else some (String.ofList word)

namespace Reader

/-- The text that is still to be read. -/
def rest : Reader (List Char) := return (← get).rest

/-- Fails. -/
def fail {α : Type} (message : String) : Reader α := do
  throw ⟨(← get).line, "Syntax error: " ++ message⟩

/-- Passes over a number of characters. -/
def skip (n : Nat) : Reader Unit :=
  modify fun s =>
    { s with rest := s.rest.drop n, line := s.line + (s.rest.take n).count '\n' }

/-- The number of characters, at the beginning of a text, that separate tokens in a line. -/
def blankLength : List Char → Nat
  | ' ' :: cs | '\t' :: cs => blankLength cs + 1
  | '\\' :: '\n' :: cs => blankLength cs + 2
  | '#' :: cs => (cs.takeWhile (· ≠ '\n')).length + 1
  | _ => 0

/-- The number of characters, at the beginning of a text, that separate commands. -/
def gapLength : Nat → List Char → Nat
  | 0, _ => 0
  | fuel + 1, cs =>
    match cs.drop (blankLength cs) with
    | '\n' :: rest => blankLength cs + 1 + gapLength fuel rest
    | _ => blankLength cs

/-- Passes over what separates tokens. -/
def skipBlanks : Reader Unit := do skip (blankLength (← rest))

/-- Passes over what separates commands. -/
def skipGap : Reader Unit := do
  let cs ← rest
  skip (gapLength (cs.length + 1) cs)

/-- The plain word that comes next. -/
def peekWord : Reader (Option String) := do
  skipBlanks
  return plainWord? (← rest)

/-- What comes next, as it is named in messages. -/
def nextToken : Reader String := do
  skipBlanks
  match ← rest with
  | [] => return "end of file"
  | '\n' :: _ => return "newline"
  | cs =>
    match operator? cs, plainWord? cs with
    | some op, _ =>
      return if op.startsWith "<" || op.startsWith ">" then "redirection" else "\"" ++ op ++ "\""
    | none, some w => return if w ∈ reservedWords then "\"" ++ w ++ "\"" else "word"
    | none, none => return "word"

/-- Fails because of what comes next. -/
def unexpected {α : Type} (wanted : Option String) : Reader α := do
  let token ← nextToken
  fail (token ++ " unexpected" ++
    (match wanted with
    | some w => " (expecting \"" ++ w ++ "\")"
    | none => ""))

/-- Passes over a word that has to come next. -/
def expectWord (w : String) : Reader Unit := do
  skipGap
  if (← peekWord) = some w then skip w.length else unexpected (some w)

/-- Passes over a sign that has to come next. -/
def expectSign (sign : String) : Reader Unit := do
  skipGap
  if operator? (← rest) = some sign then skip sign.length else unexpected (some sign)

/-- Whether commands end here. -/
def atCloser : Reader Bool := do
  match ← peekWord with
  | some w => return w ∈ closingWords
  | none =>
    match ← rest with
    | [] => return true
    | cs => return operator? cs = some ")" || operator? cs = some ";;"

/-- Runs a reader on a text of its own. -/
def within {α : Type} (cs : List Char) (r : Reader α) : Reader α := do
  let outer ← get
  set { outer with rest := cs }
  let a ← r
  set outer
  return a

/-- The text up to a single quote, which is passed over. -/
def singleQuoted : Reader String := do
  let cs ← rest
  let text := cs.takeWhile (· ≠ '\'')
  if text.length = cs.length then fail "Unterminated quoted string"
  else
    skip (text.length + 1)
    return String.ofList text

/-- The text in front of a closing backquote, and the number of characters up to and with it. -/
def backquotedText : List Char → Option (List Char × Nat)
  | [] => none
  | '\\' :: c :: cs =>
    (backquotedText cs).map fun (text, n) =>
      if c = backquote || c = '\\' || c = '$' then (c :: text, n + 2)
      else ('\\' :: c :: text, n + 2)
  | c :: cs =>
    if c = backquote then some ([], 1)
    else (backquotedText cs).map fun (text, n) => (c :: text, n + 1)

/-- The lines of a text in the script, up to one that reads `delimiter`, and what follows it. -/
def hereText (dropTabs : Bool) (delimiter : List Char) : Nat → List Char → List Char × List Char
  | 0, cs => ([], cs)
  | fuel + 1, cs =>
    if cs.isEmpty then ([], [])
    else
      let line := cs.takeWhile (· ≠ '\n')
      let after := cs.drop (line.length + 1)
      let line := if dropTabs then line.dropWhile (· = '\t') else line
      if line = delimiter then ([], after)
      else
        let (text, after) := hereText dropTabs delimiter fuel after
        (line ++ '\n' :: text, after)

/-- Takes out of the script the text whose end is marked by `delimiter`; it begins in the next
line. -/
def takeHereText (dropTabs : Bool) (delimiter : String) : Reader (List Char) := do
  let cs ← rest
  let line := cs.takeWhile (· ≠ '\n')
  let below := cs.drop (line.length + 1)
  let (text, after) := hereText dropTabs delimiter.toList (below.length + 1) below
  modify fun s => { s with rest := line ++ '\n' :: after }
  return text

/-- The text of a word as it is written, without its quotes, and whether there were any. -/
def rawWord (w : Word) : String × Bool :=
  w.foldl (fun acc p => match p with
    | .text q s => (acc.1 ++ s, acc.2 || q)
    | _ => acc) ("", false)

/-- What is to be made of a parameter, by the signs behind its name; the word that follows is still
to come. -/
def useSign? : List Char → Option (Nat × (Word → Use))
  | ':' :: '-' :: _ => some (2, .fallback .use true)
  | ':' :: '=' :: _ => some (2, .fallback .assign true)
  | ':' :: '?' :: _ => some (2, .fallback .complain true)
  | ':' :: '+' :: _ => some (2, .fallback .replace true)
  | '-' :: _ => some (1, .fallback .use false)
  | '=' :: _ => some (1, .fallback .assign false)
  | '?' :: _ => some (1, .fallback .complain false)
  | '+' :: _ => some (1, .fallback .replace false)
  | '%' :: '%' :: _ => some (2, .trimmed true true)
  | '%' :: _ => some (1, .trimmed true false)
  | '#' :: '#' :: _ => some (2, .trimmed false true)
  | '#' :: _ => some (1, .trimmed false false)
  | _ => none

/-- The length of the parameter name at the beginning of a text; `long` allows several digits. -/
def nameLength (long : Bool) : List Char → Nat
  | c :: cs =>
    if startsName c then 1 + (cs.takeWhile inName).length
    else if c.isDigit then if long then 1 + (cs.takeWhile Char.isDigit).length else 1
    else if "@*#?-$!".toList.contains c then 1
    else 0
  | [] => 0

/-- The number and the kind of a redirection that begins a text, and the length of its sign. -/
def redirectionSign? (cs : List Char) : Option (Nat × Opening × Bool × Nat) :=
  let digits := cs.takeWhile Char.isDigit
  let given := (String.ofList digits).toNat?
  let sign (fd : Nat) (opening : Opening) (dropTabs : Bool) (n : Nat) :=
    some (given.getD fd, opening, dropTabs, digits.length + n)
  match cs.drop digits.length with
  | '<' :: '<' :: '-' :: _ => sign 0 .here true 3
  | '<' :: '<' :: _ => sign 0 .here false 2
  | '<' :: '&' :: _ => sign 0 .same false 2
  | '<' :: '>' :: _ => sign 0 .read false 2
  | '<' :: _ => sign 0 .read false 1
  | '>' :: '>' :: _ => sign 1 .append false 2
  | '>' :: '&' :: _ => sign 1 .same false 2
  | '>' :: '|' :: _ => sign 1 .write false 2
  | '>' :: _ => sign 1 .write false 1
  | _ => none

mutual

/-- The pieces of a word up to the end of its context, which is left to be read. -/
def pieces : Nat → Context → Reader Word
  | 0, _ => fail "nested too deeply"
  | fuel + 1, ctx => do
    let cs ← rest
    if ctx.ends cs then return []
    match cs with
    | [] =>
      match ctx.unclosed with
      | none => return []
      | some message => fail message
    | '\\' :: c :: _ =>
      if ctx.escapes c then
        skip 2
        if c = '\n' then pieces fuel ctx
        else return .text true (String.singleton c) :: (← pieces fuel ctx)
      else
        skip 1
        return .text true "\\" :: (← pieces fuel ctx)
    | '$' :: _ =>
      skip 1
      let p ← dollar fuel ctx.quoted
      return p :: (← pieces fuel ctx)
    | c :: _ =>
      if c = '\'' ∧ ctx.quoted = false then
        skip 1
        let text ← singleQuoted
        return .text true text :: (← pieces fuel ctx)
      else if c = '"' ∧ ctx ≠ .here then
        skip 1
        let inner ← pieces fuel .quotes
        skip 1
        return .text true "" :: inner ++ (← pieces fuel ctx)
      else if c = backquote then
        match backquotedText (cs.drop 1) with
        | none => fail "EOF in backquote substitution"
        | some (text, n) =>
          skip 1
          let body ← within text (program fuel)
          skip n
          return .output ctx.quoted body :: (← pieces fuel ctx)
      else
        skip 1
        return .text ctx.quoted (String.singleton c) :: (← pieces fuel (ctx.after c))

/-- What a dollar sign introduces. -/
def dollar : Nat → Bool → Reader Piece
  | 0, _ => fail "nested too deeply"
  | fuel + 1, quoted => do
    match ← rest with
    | '(' :: '(' :: _ =>
      skip 2
      let expression ← pieces fuel (.sum 0)
      skip 2
      return .number quoted (merge expression)
    | '(' :: _ =>
      skip 1
      skipGap
      let body ← if ← atCloser then pure .empty else list fuel true
      expectSign ")"
      return .output quoted body
    | '\x7b' :: cs =>
      let asked := match cs with
        | '#' :: c :: _ => c ≠ '\x7d' && (nameLength true [c] > 0)
        | _ => false
      skip (if asked then 2 else 1)
      let cs ← rest
      let n := nameLength true cs
      let name := String.ofList (cs.take n)
      skip n
      if n = 0 then fail "Bad substitution"
      match ← rest with
      | '\x7d' :: _ =>
        skip 1
        return .parameter quoted name (if asked then .length else .value)
      | cs =>
        match useSign? cs with
        | none => fail "Bad substitution"
        | some (n, use) =>
          skip n
          let word ← pieces fuel (.braces quoted)
          skip 1
          return .parameter quoted name (use (merge word))
    | cs =>
      match nameLength false cs with
      | 0 => return .text quoted "$"
      | n =>
        skip n
        return .parameter quoted (String.ofList (cs.take n)) .value

/-- A whole text of commands. -/
def program : Nat → Reader Command
  | 0 => fail "nested too deeply"
  | fuel + 1 => do
    skipGap
    if (← rest).isEmpty then return .empty
    let c ← list fuel true
    if (← rest).isEmpty then return c else unexpected none

/-- Commands up to what closes them, or, unless `across` lines, up to the end of the line. -/
def list : Nat → Bool → Reader Command
  | 0, _ => fail "nested too deeply"
  | fuel + 1, across => do
    if across then skipGap
    let first ← andOr fuel
    skipBlanks
    let cs ← rest
    let (first, more) ← (match operator? cs, cs with
      | some "&", _ => do
        skip 1
        return (.background first, true)
      | some ";", _ => do
        skip 1
        return (first, true)
      | _, '\n' :: _ => return (first, across)
      | _, _ => return (first, false) : Reader (Command × Bool))
    if more then
      if across then skipGap else skipBlanks
      if (← atCloser) || ((← rest).head? = some '\n') then return first
      return first.followedBy (← list fuel across)
    else return first

/-- Pipelines that are joined by conditions. -/
def andOr : Nat → Reader Command
  | 0 => fail "nested too deeply"
  | fuel + 1 => do andOrRest fuel (← pipe fuel)

/-- The pipelines that are joined to `first`. -/
def andOrRest : Nat → Command → Reader Command
  | 0, _ => fail "nested too deeply"
  | fuel + 1, first => do
    skipBlanks
    match operator? (← rest) with
    | some "&&" =>
      skip 2
      skipGap
      andOrRest fuel (.both first (← pipe fuel))
    | some "||" =>
      skip 2
      skipGap
      andOrRest fuel (.either first (← pipe fuel))
    | _ => return first

/-- Commands that are joined by pipes. -/
def pipe : Nat → Reader Command
  | 0 => fail "nested too deeply"
  | fuel + 1 => do
    if (← peekWord) = some "!" then
      skip 1
      return .negation (← pipe fuel)
    let first ← command fuel
    skipBlanks
    if operator? (← rest) = some "|" then
      skip 1
      skipGap
      return .pipeline first (← pipe fuel)
    else return first

/-- A single command. -/
def command : Nat → Reader Command
  | 0 => fail "nested too deeply"
  | fuel + 1 => do
    let word ← peekWord
    let line := (← get).line
    let body ← (match word with
      | some "if" => do
        skip 2
        some <$> conditional fuel
      | some "while" => do
        skip 5
        some <$> loop fuel true
      | some "until" => do
        skip 5
        some <$> loop fuel false
      | some "for" => do
        skip 3
        some <$> each fuel
      | some "case" => do
        skip 4
        some <$> choice fuel
      | some "\x7b" => do
        skip 1
        let body ← list fuel true
        expectWord "\x7d"
        return some body
      | _ => do
        if operator? (← rest) = some "(" then
          skip 1
          let body ← list fuel true
          expectSign ")"
          return some (.subshell body)
        else return none : Reader (Option Command))
    match body with
    | some body =>
      let redirections ← redirections fuel
      if operator? (← rest) = some "(" || (plainWord? (← rest)).isSome then
        if ← atCloser then pure () else unexpected none
      return if redirections.isEmpty then body else .redirected line body redirections
    | none => simple fuel line [] [] []

/-- Behind the word that opens a condition. -/
def conditional : Nat → Reader Command
  | 0 => fail "nested too deeply"
  | fuel + 1 => do
    let test ← list fuel true
    expectWord "then"
    let yes ← list fuel true
    skipGap
    match ← peekWord with
    | some "elif" =>
      skip 4
      return .conditional test yes (← conditional fuel)
    | some "else" =>
      skip 4
      let no ← list fuel true
      expectWord "fi"
      return .conditional test yes no
    | _ =>
      expectWord "fi"
      return .conditional test yes .empty

/-- The commands between the words that open and close a loop. -/
def loopBody : Nat → Reader Command
  | 0 => fail "nested too deeply"
  | fuel + 1 => do
    expectWord "do"
    let body ← list fuel true
    expectWord "done"
    return body

/-- Behind the word that opens a loop. -/
def loop : Nat → Bool → Reader Command
  | 0, _ => fail "nested too deeply"
  | fuel + 1, wanted => do
    let test ← list fuel true
    return .loop wanted 0 test (← loopBody fuel)

/-- Behind the word that opens a loop over words. -/
def each : Nat → Reader Command
  | 0 => fail "nested too deeply"
  | fuel + 1 => do
    let name ← peekWord
    match name with
    | none => unexpected none
    | some name =>
      if !isName name then fail "Bad for loop variable"
      skip name.length
      skipGap
      let items ← (do
        if (← peekWord) = some "in" then
          skip 2
          return some (← words fuel)
        else return none : Reader (Option (List Word)))
      skipBlanks
      if operator? (← rest) = some ";" then skip 1
      return .each name items (← loopBody fuel)

/-- Words up to a sign. -/
def words : Nat → Reader (List Word)
  | 0 => fail "nested too deeply"
  | fuel + 1 => do
    skipBlanks
    match ← rest with
    | [] => return []
    | c :: _ =>
      if endsWord c then return []
      let w ← pieces fuel .word
      return merge w :: (← words fuel)

/-- Behind the word that opens a choice. -/
def choice : Nat → Reader Command
  | 0 => fail "nested too deeply"
  | fuel + 1 => do
    skipBlanks
    let subject ← pieces fuel .word
    expectWord "in"
    return .choice (merge subject) (← branches fuel)

/-- The branches of a choice, and the word that closes it. -/
def branches : Nat → Reader (List (List Word × Command))
  | 0 => fail "nested too deeply"
  | fuel + 1 => do
    skipGap
    if (← peekWord) = some "esac" then
      skip 4
      return []
    if operator? (← rest) = some "(" then skip 1
    let patterns ← alternatives fuel
    expectSign ")"
    skipGap
    let body ← if ← atCloser then pure .empty else list fuel true
    skipGap
    if operator? (← rest) = some ";;" then
      skip 2
      return (patterns, body) :: (← branches fuel)
    else
      expectWord "esac"
      return [(patterns, body)]

/-- Patterns with bars between them. -/
def alternatives : Nat → Reader (List Word)
  | 0 => fail "nested too deeply"
  | fuel + 1 => do
    skipBlanks
    let w ← pieces fuel .word
    if w.isEmpty then unexpected none
    skipBlanks
    if operator? (← rest) = some "|" then
      skip 1
      return merge w :: (← alternatives fuel)
    else return [merge w]

/-- Redirections. -/
def redirections : Nat → Reader (List Redirection)
  | 0 => fail "nested too deeply"
  | fuel + 1 => do
    skipBlanks
    match redirectionSign? (← rest) with
    | none => return []
    | some (fd, opening, dropTabs, n) =>
      skip n
      skipBlanks
      let target ← pieces fuel .word
      if target.isEmpty then unexpected none
      let target ← (match opening with
        | .here => do
          let (delimiter, quoted) := rawWord target
          let text ← takeHereText dropTabs delimiter
          if quoted then return [.text true (String.ofList text)]
          else within text (pieces fuel .here)
        | _ => return target : Reader Word)
      return .mk fd opening (merge target) :: (← redirections fuel)

/-- The rest of a simple command, of which some parts have been read, latest first. -/
def simple : Nat → Nat → List (String × Word) → List Word → List Redirection → Reader Command
  | 0, _, _, _, _ => fail "nested too deeply"
  | fuel + 1, line, assigned, given, opened => do
    skipBlanks
    let cs ← rest
    if (redirectionSign? cs).isSome then
      let more ← redirections fuel
      simple fuel line assigned given (more.reverse ++ opened)
    else if cs.isEmpty || (cs.head?.any endsWord) then
      match given, operator? cs with
      | [w], some "(" =>
        match plainText? w, assigned, opened with
        | some name, [], [] =>
          skip 1
          expectSign ")"
          skipGap
          return .definition name (← command fuel)
        | _, _, _ => unexpected none
      | _, some "(" => unexpected none
      | [], _ =>
        if assigned.isEmpty && opened.isEmpty then unexpected none
        else return .simple line assigned.reverse [] opened.reverse
      | _, _ => return .simple line assigned.reverse given.reverse opened.reverse
    else
      if given.isEmpty && assigned.isEmpty && opened.isEmpty then
        match plainWord? cs with
        | some w => if w ∈ closingWords then unexpected none
        | none => pure ()
      let w := merge (← pieces fuel .word)
      match if given.isEmpty then assignment? w else none with
      | some a => simple fuel line (a :: assigned) given opened
      | none => simple fuel line assigned (w :: given) opened

end

end Reader

/-- Reads the next line of a script; `none` at its end. -/
def readLine (s : Source) : Except ReadError (Option Command × Source) :=
  let reader : Reader (Option Command) := do
    Reader.skipGap
    if (← Reader.rest).isEmpty then return none
    let c ← Reader.list (8 * (← Reader.rest).length + 64) false
    Reader.skipBlanks
    match ← Reader.rest with
    | [] | '\n' :: _ => return some c
    | _ => Reader.unexpected none
  reader.run s

end Taskflow.Shell
