import Taskflow.Files.Path
import Taskflow.Table
import Taskflow.Text.Utf8
set_option autoImplicit false

/-!
# Trees of files

The directories and files that programs and reports read and write. A place in the tree is the
list of names from the root down to it. Every operation says which of its requests fails, and why.

## Main definitions

* `FileError` — why an operation failed, with its text.
* `FileTree` — directories, files and the two devices that swallow and refuse what is written.
* `FileTree.locate` — the place that a path leads to.
* `FileTree.read`, `FileTree.write`, `FileTree.makeDir`, `FileTree.remove` — operations that do all
  or nothing.
* `FileTree.tryMakeDirs`, `FileTree.trySave` — operations that go as far as they can; what
  `FileTree.makeDirs` and `FileTree.save` leave when they go to their end.
-/

namespace Taskflow

/-- Why an operation on files failed. -/
inductive FileError where
  | notFound
  | denied
  | alreadyExists
  | notADirectory
  | isADirectory
  | noSpace
  | nameTooLong
  | notEmpty
  | nulInName
  | notText
  deriving Repr, DecidableEq

namespace FileError

/-- What happened, without a number. -/
def reason : FileError → String
  | .notFound => "No such file or directory"
  | .denied => "Permission denied"
  | .alreadyExists => "File exists"
  | .notADirectory => "Not a directory"
  | .isADirectory => "Is a directory"
  | .noSpace => "No space left on device"
  | .nameTooLong => "File name too long"
  | .notEmpty => "Directory not empty"
  | .nulInName => "file name contained an unexpected NUL byte"
  | .notText => "stream did not contain valid UTF-8"

/-- The number of the failure, if the system gave it. -/
def number? : FileError → Option Nat
  | .notFound => some 2
  | .denied => some 13
  | .alreadyExists => some 17
  | .notADirectory => some 20
  | .isADirectory => some 21
  | .noSpace => some 28
  | .nameTooLong => some 36
  | .notEmpty => some 39
  | .nulInName => none
  | .notText => none

/-- The text of the failure. -/
def message (e : FileError) : String :=
  match e.number? with
  | some n => e.reason ++ " (os error " ++ toString n ++ ")"
  | none => e.reason

end FileError

/-- What stands at a place. -/
inductive FileEntry where
  | directory
  | file (bytes : List UInt8)
  | nullDevice
  | fullDevice
  deriving Repr, DecidableEq

/-- Places below the root, and what stands there. -/
structure FileTree where
  entries : Table (List String) FileEntry := {}
  deriving Repr, DecidableEq

namespace FileTree

/-- The directory from which relative paths are read. -/
def workingDir : List String := ["tmp", "work"]

/-- A tree with an empty working directory, a directory for temporary files and the devices. -/
def initial : FileTree :=
  ⟨.ofList [(["tmp"], .directory), (workingDir, .directory), (["dev"], .directory),
    (["dev", "null"], .nullDevice), (["dev", "full"], .fullDevice)]⟩

instance : Inhabited FileTree := ⟨initial⟩

/-- What stands at a place; the root is a directory. -/
def entry? (t : FileTree) (place : List String) : Option FileEntry :=
  if place = [] then some .directory else t.entries.get? place

/-- Puts something at a place. -/
def put (t : FileTree) (place : List String) (e : FileEntry) : FileTree :=
  ⟨t.entries.insert place e⟩

/-- Goes down from a place along names; every place that is left behind has to be a directory. -/
def walk (t : FileTree) (place : List String) : List String → Except FileError (List String)
  | [] => .ok place
  | name :: rest =>
    match t.entry? place with
    | none => .error .notFound
    | some .directory =>
      if name.utf8ByteSize > 255 then .error .nameTooLong
      else if name = "." then walk t place rest
      else if name = ".." then walk t place.dropLast rest
      else walk t (place ++ [name]) rest
    | some _ => .error .notADirectory

/-- The place that a path leads to from the directory `dir`, slashes at its end left out. -/
def locateBare (t : FileTree) (dir : List String) (path : String) :
    Except FileError (List String) :=
  if '\x00' ∈ path.toList then .error .nulInName
  else if path = "" then .error .notFound
  else if path.utf8ByteSize > 4095 then .error .nameTooLong
  else t.walk (if Path.isAbsolute path then [] else dir) (Path.names path)

/-- The place that a path leads to; behind a slash at its end there is a directory. -/
def locate (t : FileTree) (dir : List String) (path : String) :
    Except FileError (List String) := do
  let place ← t.locateBare dir path
  if Path.endsWithSlash path then t.walk place ["."] else .ok place

/-- What a path leads to. -/
def find (t : FileTree) (dir : List String) (path : String) :
    Except FileError (List String × FileEntry) := do
  let place ← t.locate dir path
  match t.entry? place with
  | some e => .ok (place, e)
  | none => .error .notFound

/-- Whether a path leads to a directory. -/
def isDir (t : FileTree) (dir : List String) (path : String) : Bool :=
  match t.find dir path with
  | .ok (_, .directory) => true
  | _ => false

/-- The bytes of a file. -/
def read (t : FileTree) (dir : List String) (path : String) : Except FileError (List UInt8) := do
  let (_, e) ← t.find dir path
  match e with
  | .file bytes => .ok bytes
  | .directory => .error .isADirectory
  | .nullDevice => .ok []
  | .fullDevice => .ok []

/-- The text of a file. -/
def readText (t : FileTree) (dir : List String) (path : String) : Except FileError String := do
  match Utf8.decode? (← t.read dir path) with
  | some cs => .ok (String.ofList cs)
  | none => .error .notText

/-- Writes a file: what it held is replaced, or kept in front if `append` is set. -/
def write (t : FileTree) (dir : List String) (path : String) (append : Bool)
    (bytes : List UInt8) : Except FileError FileTree := do
  let place ← t.locateBare dir path
  if Path.endsWithSlash path then .error .isADirectory
  else
    match t.entry? place with
    | some .directory => .error .isADirectory
    | some .nullDevice => .ok t
    | some .fullDevice => if bytes.isEmpty then .ok t else .error .noSpace
    | some (.file before) => .ok (t.put place (.file (if append then before ++ bytes else bytes)))
    | none => .ok (t.put place (.file bytes))

/-- Makes a directory. -/
def makeDir (t : FileTree) (dir : List String) (path : String) : Except FileError FileTree := do
  let place ← t.locateBare dir path
  match t.entry? place with
  | some _ => .error .alreadyExists
  | none => .ok (t.put place .directory)

/-- What an operation leaves that does all or nothing, and how it went: the tree is as before if it
failed. -/
def whole (t : FileTree) : Except FileError FileTree → FileTree × Except FileError Unit
  | .ok t' => (t', .ok ())
  | .error e => (t, .error e)

/-- The tree that an operation leaves if it went to its end, or why it did not. -/
def finished (r : FileTree × Except FileError Unit) : Except FileError FileTree :=
  r.2.map fun _ => r.1

/-- Makes a directory; one that is there stays. -/
def makeDirOrStay (t : FileTree) (dir : List String) (path : String) :
    FileTree × Except FileError Unit :=
  match t.makeDir dir path with
  | .ok t => (t, .ok ())
  | .error e => (t, if t.isDir dir path then .ok () else .error e)

/-- Makes a directory and those above it that are missing, as far as that is possible; `fuel` bounds
the number of names. -/
def tryMakeDirsLoop (t : FileTree) (dir : List String) :
    Nat → String → FileTree × Except FileError Unit
  | 0, _ => (t, .error .notFound)
  | fuel + 1, path =>
    if path = "" then (t, .ok ())
    else
      match t.makeDir dir path with
      | .error .notFound =>
        match tryMakeDirsLoop t dir fuel ((Path.parent? path).getD "") with
        | (t, .ok ()) => t.makeDirOrStay dir path
        | failed => failed
      | _ => t.makeDirOrStay dir path

/-- Makes a directory and those above it that are missing; one that is there stays. What was made
before a failure stays as well. -/
def tryMakeDirs (t : FileTree) (dir : List String) (path : String) :
    FileTree × Except FileError Unit :=
  t.tryMakeDirsLoop dir (path.length + 1) path

/-- Writes a file, after making the directories above it; these stay if the file cannot be written.
-/
def tryStore (t : FileTree) (dir : List String) (path : String) (bytes : List UInt8) :
    FileTree × Except FileError Unit :=
  match t.tryMakeDirs dir ((Path.parent? path).getD "") with
  | (t, .ok ()) => t.whole (t.write dir path false bytes)
  | failed => failed

/-- Writes a text, after making the directories above it; these stay if the text cannot be written.
-/
def trySave (t : FileTree) (dir : List String) (path : String) (text : String) :
    FileTree × Except FileError Unit :=
  t.tryStore dir path (Utf8.encode text)

/-- The tree after a directory was made with those above it that were missing. -/
def makeDirs (t : FileTree) (dir : List String) (path : String) : Except FileError FileTree :=
  finished (t.tryMakeDirs dir path)

/-- The tree after a file was written, and the directories above it were made. -/
def store (t : FileTree) (dir : List String) (path : String) (bytes : List UInt8) :
    Except FileError FileTree :=
  finished (t.tryStore dir path bytes)

/-- The tree after a text was written, and the directories above it were made. -/
def save (t : FileTree) (dir : List String) (path : String) (text : String) :
    Except FileError FileTree :=
  finished (t.trySave dir path text)

/-- The places strictly below a place. -/
def below (t : FileTree) (place : List String) : List (List String) :=
  t.entries.keys.filter fun p => place.isPrefixOf p ∧ place.length < p.length

/-- Takes away a file, or a directory with nothing in it. -/
def remove (t : FileTree) (dir : List String) (path : String) : Except FileError FileTree := do
  let (place, _) ← t.find dir path
  if t.below place ≠ [] then .error .notEmpty
  else .ok ⟨⟨t.entries.entries.filter fun p => p.1 ≠ place⟩⟩

/-- Takes away whatever stands at a path and below it. -/
def removeAll (t : FileTree) (dir : List String) (path : String) : Except FileError FileTree := do
  let (place, _) ← t.find dir path
  .ok ⟨⟨t.entries.entries.filter fun p => ¬ place.isPrefixOf p.1⟩⟩

end FileTree

end Taskflow
