import Chip8.Text

/-!
# Files

A working directory with the files in it, each under the names that lead to it. A path is cut at its
slashes; empty names and single dots say nothing. Names are kept by the system as bytes: those of the
characters, and single bytes that are no character's for some halves of surrogate pairs. Beyond the
working directory only what every system has is known: the root and the directories in it, and a file
that is always empty.
-/

namespace Chip8

/-- A name as the system keeps it. -/
abbrev FileName := List UInt8

/-- The bytes of a letter in a name. Most halves of surrogate pairs have none. -/
def FileName.ofLetter? : Letter → Option FileName
  | .char c => some c.toString.toUTF8.toList
  | .half n => if 0x480 ≤ n.val ∧ n.val < 0x500 then some [UInt8.ofNat (n - 0x400)] else none

def FileName.ofText? (t : Text) : Option FileName :=
  (t.letters.mapM FileName.ofLetter?).map List.flatten

/-- How long a name can be, in bytes. -/
def FileName.maxLength : Nat := 255

structure Path where
  /-- The slashes at the beginning: none, one for the root of all directories, or two. -/
  root : Nat
  names : List Text
deriving DecidableEq, Repr

namespace Path

def ofText (t : Text) : Path :=
  let slashes := (t.letters.takeWhile (· = .char '/')).length
  { root := if slashes < 3 then slashes else 1
    names := (t.splitOn '/').filter fun n => !n.isEmpty ∧ n ≠ "." }

def toText (p : Path) : Text :=
  if p.root = 0 ∧ p.names.isEmpty then "."
  else (String.ofList (List.replicate p.root '/') : Text) ++ Text.intercalate "/" p.names

/-- How long a path can be, in bytes. -/
def maxLength : Nat := 4095

end Path

structure Files where
  entries : List (List FileName × List UInt8) := []
deriving DecidableEq, Repr

namespace Files

inductive Error where
  | notFound
  | isDirectory
  | notADirectory
  /-- A name or the whole path is longer than the system allows. -/
  | tooLong
  /-- The path holds what has no place in a name. -/
  | notEncodable
  /-- The path holds the character that ends names within the system. -/
  | endedName
deriving DecidableEq, Repr

def Error.message : Error → String
  | notFound => "No such file or directory"
  | isDirectory => "Is a directory"
  | notADirectory => "Not a directory"
  | tooLong => "File name too long"
  | notEncodable => "The path cannot be encoded."
  | endedName => "embedded null byte"

/-- Add a file. -/
def add (fs : Files) (path : Text) (content : List UInt8) : Files :=
  ⟨((Path.ofText path).names.filterMap FileName.ofText?, content) :: fs.entries⟩

def file? (fs : Files) (names : List FileName) : Option (List UInt8) :=
  (fs.entries.find? (·.1 = names)).map (·.2)

/-- Some file lies below the names. -/
def hasDirectory (fs : Files) (names : List FileName) : Bool :=
  names.isEmpty || fs.entries.any fun e => names.isPrefixOf e.1 && names.length < e.1.length

/-- Where a path has led so far. -/
inductive Place where
  /-- Below the working directory, under these names. -/
  | inside (names : List FileName)
  /-- One of the directories around the working directory. -/
  | around
  /-- Below the root, under these names. -/
  | outside (names : List FileName)
deriving DecidableEq, Repr

def up : FileName := [0x2E, 0x2E]

/-- The directories below the root that every system has. -/
def systemDirectories : List FileName :=
  ["bin", "boot", "dev", "etc", "home", "lib", "media", "mnt", "opt", "proc", "root", "run", "sbin",
    "srv", "sys", "tmp", "usr", "var"].map (·.toUTF8.toList)

/-- The names that lead from the root to a file that is always empty. -/
def emptyFile : List FileName := ["dev", "null"].map (·.toUTF8.toList)

/-- What a name leads to from a place: another place, or the bytes of a file. -/
def enter (fs : Files) (p : Place) (name : FileName) : Except Error (Place ⊕ List UInt8) :=
  if FileName.maxLength < name.length then .error .tooLong
  else
    match p with
    | .inside names =>
      if name = up then .ok (.inl (if names.isEmpty then .around else .inside names.dropLast))
      else if fs.hasDirectory (names ++ [name]) then .ok (.inl (.inside (names ++ [name])))
      else match fs.file? (names ++ [name]) with
        | some content => .ok (.inr content)
        | none => .error .notFound
    | .around => if name = up then .ok (.inl .around) else .error .notFound
    | .outside names =>
      if name = up then .ok (.inl (.outside names.dropLast))
      else if names.isEmpty ∧ name ∈ systemDirectories then .ok (.inl (.outside [name]))
      else if names ++ [name] = emptyFile then .ok (.inr [])
      else .error .notFound

/-- Follow names from a place to a file. -/
def find (fs : Files) (p : Place) : List FileName → Except Error (List UInt8)
  | [] => .error .isDirectory
  | name :: rest => do
    match ← fs.enter p name, rest with
    | .inl place, rest => fs.find place rest
    | .inr content, [] => return content
    | .inr _, _ :: _ => throw .notADirectory

/-- The bytes of the file that a path leads to. -/
def read (fs : Files) (p : Path) : Except Error (List UInt8) := do
  let some whole := FileName.ofText? p.toText | throw .notEncodable
  if whole.contains 0 then throw .endedName
  if Path.maxLength < whole.length then throw .tooLong
  fs.find (if p.root = 0 then .inside [] else .outside []) (p.names.filterMap FileName.ofText?)

end Files

end Chip8
