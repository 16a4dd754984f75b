import Chip8.Text
import Chip8.Text.Stream
import Chip8.Yaml.Error

/-!
# Sources

A source is a text as far as it can be read, and what is wrong behind that. A text is looked through
as a whole. The bytes of a file are read in pieces, each of which is looked through when a reader
gets to it.
-/

namespace Chip8.Yaml

/-- Characters that a text may hold. -/
def isAllowed (c : Char) : Bool :=
  let n := c.toNat
  n = 0x09 || n = 0x0A || n = 0x0D || (0x20 ≤ n && n ≤ 0x7E) || n = 0x85 ||
    (0xA0 ≤ n && n ≤ 0xD7FF) || (0xE000 ≤ n && n ≤ 0xFFFD) || 0x10000 ≤ n

structure Source where
  chars : List Char
  /-- What is wrong where the characters end, if the text is cut there. -/
  beyond : Option Error := none

namespace Source

/-- Nothing can be read. -/
def cut (e : Error) : Source := { chars := [], beyond := some e }

def ofText (t : Text) : Source :=
  match t.chars? with
  | some cs => if cs.all isAllowed then { chars := cs } else cut .malformed
  | none => cut .malformed

/-- A piece, and what comes behind it if all its characters are allowed. -/
def ofPiece (cs : List Char) (rest : Source) : Source :=
  if cs.all isAllowed then { rest with chars := cs ++ rest.chars } else cut .malformed

/-- How many characters are read at once. -/
def pieceSize : Nat := 4096

/-- Read piece by piece. As long as there are more, each has at least one character. -/
def ofPieces : Nat → Text.Stream → Source
  | 0, _ => { chars := [] }
  | fuel + 1, s =>
    match s.read pieceSize with
    | none => cut .notText
    | some ([], _) => { chars := [] }
    | some (cs, s) => ofPiece cs (ofPieces fuel s)

/-- The text of a file. What is read twice at the beginning makes one piece. -/
def ofBytes (bytes : List UInt8) : Source :=
  let beginning := do
    let (cs, s) ← Text.Stream.read { bytes } pieceSize
    let (ds, s) ← s.read pieceSize
    return (cs ++ ds, s)
  match beginning with
  | none => cut .notText
  | some (cs, s) => ofPiece cs (ofPieces bytes.length s)

end Source

end Chip8.Yaml
