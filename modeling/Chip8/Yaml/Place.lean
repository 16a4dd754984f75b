import Chip8.Yaml.Error

/-!
# Places in a text

A place is what is left of a text, with the counts that tell how far it is from the beginning and
where it is on the page. The classes of characters that end a word or a line are here too; the end
of the text belongs to all of them.

Where a text is cut, its end is not to be taken for the end: who wants to know the character there has
to `look` first.
-/

namespace Chip8.Yaml

def isBreak (c : Char) : Bool :=
  c = '\n' || c = '\r' || c = '\u0085' || c = '\u2028' || c = '\u2029'

def isBlank (c : Char) : Bool := c = ' ' || c = '\t'

/-- Nothing more is on the line. -/
def endsLine : Option Char → Bool
  | none => true
  | some c => isBreak c

/-- A plain blank, or nothing more on the line. -/
def endsItem : Option Char → Bool
  | none => true
  | some c => c = ' ' || isBreak c

/-- A blank of any kind, or nothing more on the line. -/
def endsWord : Option Char → Bool
  | none => true
  | some c => isBlank c || isBreak c

def byteOrderMark : Char := '\ufeff'

structure Place where
  rest : List Char
  /-- How many characters the whole text has. No loop over what is left of it takes more steps. -/
  size : Nat
  /-- What is wrong where the characters end, if the text is cut there. -/
  beyond : Option Error := none
  index : Nat := 0
  line : Nat := 0
  column : Nat := 0

namespace Place

def peek? (p : Place) : Option Char := p.rest.head?

/-- Want to know the character here, or that the text ends. -/
def look (p : Place) : Except Error Unit :=
  match p.rest, p.beyond with
  | [], some e => .error e
  | _, _ => .ok ()

/-- What is here is a fault, unless the text is cut here. -/
def fault {α : Type} (p : Place) (e : Error) : Except Error α := do
  p.look
  throw e

def peekAt? (p : Place) (k : Nat) : Option Char := p.rest[k]?

/-- The next place. A line ends behind the last character of its break; a byte order mark takes no
column. -/
def next (p : Place) : Place :=
  match p.rest with
  | [] => p
  | c :: rest =>
    if isBreak c && !(c = '\r' && rest.head? = some '\n') then
      { p with rest, index := p.index + 1, line := p.line + 1, column := 0 }
    else if c = byteOrderMark then { p with rest, index := p.index + 1 }
    else { p with rest, index := p.index + 1, column := p.column + 1 }

def skip : Nat → Place → Place
  | 0, p => p
  | n + 1, p => skip n p.next

def skipWhile (f : Char → Bool) (p : Place) : Place :=
  skip (p.rest.takeWhile f).length p

def skipBlanks (p : Place) : Place := p.skipWhile (· = ' ')

/-- The characters up to the end of the line, and the place there. -/
def restOfLine (p : Place) : List Char × Place :=
  (p.rest.takeWhile (!isBreak ·), p.skipWhile (!isBreak ·))

/-- Step over a line break. It counts as a plain one unless it is one of the two separators that
stand for themselves. -/
def lineBreak? (p : Place) : Option (Char × Place) :=
  match p.rest with
  | '\r' :: '\n' :: _ => some ('\n', p.next.next)
  | c :: _ =>
    if c = '\u2028' ∨ c = '\u2029' then some (c, p.next)
    else if isBreak c then some ('\n', p.next)
    else none
  | [] => none

/-- Step over a line break, if there is one. -/
def skipBreak (p : Place) : Place :=
  match p.lineBreak? with
  | some (_, q) => q
  | none => p

/-- Step over a comment, if there is one. -/
def skipComment (p : Place) : Place :=
  if p.peek? = some '#' then p.restOfLine.2 else p

/-- Three characters of one of the two marks between documents are next. -/
def nearDocumentMark (p : Place) : Bool :=
  p.rest.take 3 = ['-', '-', '-'] || p.rest.take 3 = ['.', '.', '.']

/-- The text goes on with one of the two marks between documents. -/
def atDocumentMark (p : Place) : Bool := p.nearDocumentMark && endsWord (p.peekAt? 3)

/-- Want to know whether the present line begins with a mark between documents. -/
def lookForMark (p : Place) : Except Error Unit := do
  (p.skip (2 - p.column)).look
  if p.column = 0 ∧ p.nearDocumentMark then (p.skip 3).look

end Place

end Chip8.Yaml
