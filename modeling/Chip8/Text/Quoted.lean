import Chip8.Text
import Chip8.Text.Printable

/-!
# Quoted text

A text in quotes, as messages show it. Single quotes are used unless the text has single quotes and
no double ones. What is not printable, and half of a surrogate pair, is written by its number.
-/

namespace Chip8.Text

/-- The last `width` digits of `n` in base sixteen, in small letters. -/
def smallHex (width n : Nat) : List Char :=
  let digits := Nat.toDigits 16 n
  List.replicate (width - digits.length) '0' ++ digits

/-- The mark that a text is quoted with. -/
def quoteMark (cs : List Char) : Char :=
  if cs.contains '\'' && !cs.contains '"' then '"' else '\''

def escape (mark c : Char) : List Char :=
  let n := c.toNat
  if c = mark ∨ c = '\\' then ['\\', c]
  else if c = '\t' then ['\\', 't']
  else if c = '\n' then ['\\', 'n']
  else if c = '\r' then ['\\', 'r']
  else if isPrintable c then [c]
  else if n < 0x100 then '\\' :: 'x' :: smallHex 2 n
  else if n < 0x10000 then '\\' :: 'u' :: smallHex 4 n
  else '\\' :: 'U' :: smallHex 8 n

def escapeLetter (mark : Char) (l : Letter) : List Char :=
  match l with
  | .char c => escape mark c
  | .half _ => '\\' :: 'u' :: smallHex 4 l.code

def quoted (t : Text) : String :=
  let mark := quoteMark t.readable
  String.ofList (mark :: t.letters.flatMap (escapeLetter mark) ++ [mark])

/-- Bytes in quotes; those beyond ASCII are written by their number. -/
def quotedBytes (bs : List UInt8) : String :=
  let cs := bs.map fun b => Char.ofNat b.toNat
  let mark := quoteMark cs
  let shown := cs.flatMap fun c =>
    if 0x7F ≤ c.toNat then '\\' :: 'x' :: smallHex 2 c.toNat else escape mark c
  String.ofList ('b' :: mark :: shown ++ [mark])

end Chip8.Text
