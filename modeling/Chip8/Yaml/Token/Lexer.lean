import Chip8.Yaml.Source
import Chip8.Yaml.Token
import Chip8.Yaml.Token.Scalar

/-!
# Cutting a text into tokens

The lexer keeps the indentations that are open and, for each level of brackets, the place where a
key may have begun. A colon makes a key of what stands at that place: the mark of the key, and of a
new mapping if the indentation grows, is put in front of it after the fact. A key begins and ends on
one line and has at most 1024 characters.

Where the source is cut, a reader that comes to the end has no token to give.
-/

namespace Chip8.Yaml

/-- A place where a key may have begun. -/
structure PossibleKey where
  /-- The number of the token that stands there. -/
  token : Nat
  /-- Nothing but a key can stand there. -/
  required : Bool
  index : Nat
  line : Nat
  column : Nat
deriving DecidableEq, Repr

structure Lexer where
  place : Place
  /-- The tokens so far, the latest first. -/
  tokens : List Token := []
  /-- How many tokens there are. -/
  count : Nat := 0
  /-- How many brackets are open. -/
  level : Nat := 0
  indent : Int := -1
  /-- The indentations around the present one, the nearest first. -/
  outer : List Int := []
  keyAllowed : Bool := true
  /-- The possible key of each level. -/
  keys : List (Nat × PossibleKey) := []

namespace Lexer

abbrev Read (α : Type) := Except Error α

def inFlow (l : Lexer) : Bool := 0 < l.level

def push (l : Lexer) (t : Token) : Lexer := { l with tokens := t :: l.tokens, count := l.count + 1 }

/-- Put a token in front of the one of a number. -/
def putBefore (l : Lexer) (n : Nat) (t : Token) : Lexer :=
  { l with tokens := l.tokens.insertIdx (l.count - n) t, count := l.count + 1 }

def peek? (l : Lexer) : Option Char := l.place.peek?

def skip (l : Lexer) (n : Nat) : Lexer := { l with place := l.place.skip n }

/-! ## Names and tags -/

def isNameChar (c : Char) : Bool :=
  ('0' ≤ c && c ≤ '9') || ('A' ≤ c && c ≤ 'Z') || ('a' ≤ c && c ≤ 'z') || c = '-' || c = '_'

/-- A name, which is not empty. -/
def name (p : Place) : Read (String × Place) := do
  let cs := p.rest.takeWhile isNameChar
  let q := p.skip cs.length
  q.look
  if cs.isEmpty then throw .malformed
  return (String.ofList cs, q)

/-- The name of an anchor or alias, behind its mark. -/
def anchorName (p : Place) : Read (String × Place) := do
  let (s, p) ← name p
  if endsWord p.peek? || p.peek?.any ("?:,]\x7d%@\x60".contains ·) then return (s, p)
  else throw .malformed

/-- The abbreviation that begins a tag: a mark, or a name between two. -/
def tagHandle (p : Place) : Read (String × Place) :=
  match p.rest with
  | '!' :: ' ' :: _ => .ok ("!", p.next)
  | '!' :: rest => do
    let cs := rest.takeWhile isNameChar
    let q := p.skip (cs.length + 1)
    if q.peek? ≠ some '!' then q.fault .malformed
    q.next.look
    return (String.ofList ('!' :: cs ++ ['!']), q.next)
  | _ => p.fault .malformed

def isUriChar (c : Char) : Bool :=
  isNameChar c || ";/?:@&=+$,.!~*'()[]".contains c

/-- Bytes by number, each behind a percent sign. The error is for a word that ends too early. -/
def uriBytes (ended : Error) : List Char → Read (List UInt8 × List Char)
  | '%' :: a :: b :: rest =>
    match Text.Integer.hexValue? a, Text.Integer.hexValue? b with
    | some m, some n => do
      let (bytes, left) ← uriBytes ended rest
      return (UInt8.ofNat (16 * m + n) :: bytes, left)
    | _, _ => .error .malformed
  | '%' :: rest =>
    if rest.all fun c => (Text.Integer.hexValue? c).isSome then .error ended else .error .malformed
  | cs => .ok ([], cs)

/-- The rest of a tag, in which characters may be given by their bytes. -/
def uriChars (ended : Error) : Nat → List Char → Read (List Char × List Char)
  | 0, cs => .ok ([], cs)
  | fuel + 1, cs =>
    match cs with
    | '%' :: _ => do
      let (bytes, left) ← uriBytes ended cs
      match String.fromUTF8? (ByteArray.mk bytes.toArray) with
      | none => throw (if left.isEmpty then ended else .malformed)
      | some s =>
        let (more, left) ← uriChars ended fuel left
        return (s.toList ++ more, left)
    | c :: rest =>
      if isUriChar c then do
        let (more, left) ← uriChars ended fuel rest
        return (c :: more, left)
      else .ok ([], cs)
    | [] => .ok ([], [])

/-- The rest of a tag, which is not empty. -/
def uri (p : Place) : Read (String × Place) := do
  let word := p.rest.takeWhile fun c => !endsItem (some c)
  let ended := match (p.skip word.length).look with
    | .ok () => .malformed
    | .error e => e
  let (cs, left) ← uriChars ended word.length word
  let n := word.length - left.length
  let q := p.skip n
  q.look
  if n = 0 then throw .malformed
  return (String.ofList cs, q)

/-- A tag: in angle brackets, a mark alone, or an abbreviation and a rest. -/
def tag (p : Place) : Read (Token × Place) := do
  p.next.look
  let (t, p) ← (match p.peekAt? 1 with
    | some '<' => do
      let (s, p) ← uri (p.skip 2)
      if p.peek? ≠ some '>' then throw .malformed
      return (.tag none s, p.next)
    | next => do
      if endsWord next then return (.tag none "!", p.next)
      else
        let word := (p.rest.drop 1).takeWhile (fun c => !endsItem (some c))
        let (handle, p) ← (if word.contains '!' then tagHandle p
          else do
            (p.skip (word.length + 1)).look
            return ("!", p.next)
          : Read (String × Place))
        let (s, p) ← uri p
        return (.tag (some handle) s, p)
    : Read (Token × Place))
  p.look
  if endsItem p.peek? then return (t, p) else throw .malformed

/-! ## Directives -/

/-- A number in a directive. -/
def versionNumber (p : Place) : Read (Int × Place) := do
  let cs := p.rest.takeWhile fun c => '0' ≤ c && c ≤ '9'
  let q := p.skip cs.length
  q.look
  if cs.isEmpty then throw .malformed
  let n ← (Text.Integer.parse 10 (.ofChars cs)).mapError .badInteger
  return (n, q)

def version (p : Place) : Read (Directive × Place) := do
  let (major, p) ← versionNumber p.skipBlanks
  if p.peek? ≠ some '.' then throw .malformed
  let (_, p) ← versionNumber p.next
  if endsItem p.peek? then return (.version major, p) else throw .malformed

def tagDirective (p : Place) : Read (Directive × Place) := do
  let (handle, p) ← tagHandle p.skipBlanks
  if p.peek? ≠ some ' ' then throw .malformed
  let (stem, p) ← uri p.skipBlanks
  if endsItem p.peek? then return (.tag handle stem, p) else throw .malformed

/-- A directive, behind its mark, up to the next line. -/
def directive (p : Place) : Read (Directive × Place) := do
  let (s, p) ← name p
  if !endsItem p.peek? then throw .malformed
  let (d, p) ← (match s with
    | "YAML" => version p
    | "TAG" => tagDirective p
    | _ => .ok (.other, p.restOfLine.2))
  let p := p.skipBlanks.skipComment
  p.look
  if endsLine p.peek? then return (d, p.skipBreak) else throw .malformed

/-! ## Indentation and keys -/

/-- Step over blanks, comments and line breaks. Outside of brackets a key may follow a break. -/
def skipSpace : Nat → Lexer → Lexer
  | 0, l => l
  | fuel + 1, l =>
    let p := l.place.skipBlanks.skipComment
    match p.lineBreak? with
    | none => { l with place := p }
    | some (_, q) => skipSpace fuel { l with place := q, keyAllowed := l.keyAllowed || !l.inFlow }

/-- A key that began there would be too long. -/
def isStale (l : Lexer) (k : PossibleKey) : Bool :=
  k.line ≠ l.place.line || k.index + 1024 < l.place.index

/-- Forget possible keys that have become too long. One that is required is a fault. -/
def dropStale (l : Lexer) : Read Lexer := do
  if l.keys.any fun (_, k) => l.isStale k && k.required then throw .malformed
  return { l with keys := l.keys.filter fun (_, k) => !l.isStale k }

/-- The tokens that no mark of a key can be put in front of any more. -/
def settled (l : Lexer) : List Token :=
  let pending := l.keys.filter fun (_, k) => !l.isStale k
  l.tokens.drop (l.count - pending.foldl (fun n (_, k) => min n k.token) l.count)

/-- Forget the possible key of this level. One that is required is a fault. -/
def dropKey (l : Lexer) : Read Lexer :=
  match l.keys.lookup l.level with
  | some k =>
    if k.required then .error .malformed
    else .ok { l with keys := l.keys.filter fun (level, _) => level ≠ l.level }
  | none => .ok l

/-- A key may begin here, if one is allowed. -/
def saveKey (l : Lexer) : Read Lexer := do
  if l.keyAllowed then
    let required := !l.inFlow && l.indent = l.place.column
    let l ← l.dropKey
    let k : PossibleKey :=
      { token := l.count, required, index := l.place.index, line := l.place.line
        column := l.place.column }
    return { l with keys := (l.level, k) :: l.keys }
  else return l

/-- Close the blocks that are indented by more than a column. -/
def unwind (column : Int) : List Int → Lexer → Lexer
  | [], l => l
  | i :: outer, l =>
    if column < l.indent then unwind column outer { l.push .blockEnd with indent := i, outer }
    else l

/-- Open a block at a column, if it is indented by more than the present one. -/
def openBlock (l : Lexer) (column : Nat) : Lexer × Bool :=
  if l.indent < column then ({ l with indent := column, outer := l.indent :: l.outer }, true)
  else (l, false)

/-- Open a block here and put its mark, if the indentation grows. -/
def openBlockHere (l : Lexer) (t : Token) : Lexer :=
  let (l, opened) := l.openBlock l.place.column
  if opened then l.push t else l

/-- Close all blocks; no key may begin before the next line. -/
def closeAll (l : Lexer) : Read Lexer := do
  let l ← (unwind (-1) l.outer l).dropKey
  return { l with keyAllowed := false }

/-! ## Tokens -/

def readDocumentMark (l : Lexer) (t : Token) : Read Lexer := do
  let l ← l.closeAll
  return (l.skip 3).push t

def readOpening (l : Lexer) (t : Token) : Read Lexer := do
  let l ← l.saveKey
  return ({ l with level := l.level + 1, keyAllowed := true }.skip 1).push t

/-- A closing bracket has to have an opening one. -/
def readClosing (l : Lexer) (t : Token) : Read Lexer := do
  let l ← l.dropKey
  if l.level = 0 then l.place.next.fault .malformed
  return ({ l with level := l.level - 1, keyAllowed := false }.skip 1).push t

def readFlowEntry (l : Lexer) : Read Lexer := do
  let l ← { l with keyAllowed := true }.dropKey
  return (l.skip 1).push .flowEntry

/-- Outside of brackets, an item or a key has to stand where a key may begin. -/
def openEntry (l : Lexer) (t : Token) : Read Lexer :=
  if l.inFlow then .ok l
  else if l.keyAllowed then .ok (l.openBlockHere t)
  else .error .malformed

def readBlockEntry (l : Lexer) : Read Lexer := do
  let l ← l.openEntry .blockSequenceStart
  let l ← { l with keyAllowed := true }.dropKey
  return (l.skip 1).push .blockEntry

def readKey (l : Lexer) : Read Lexer := do
  let l ← l.openEntry .blockMappingStart
  let l ← { l with keyAllowed := !l.inFlow }.dropKey
  return (l.skip 1).push .key

/-- A colon. If a key may have begun on this level, it has; otherwise the value has no key before it
on its line. -/
def readValue (l : Lexer) : Read Lexer := do
  let l ← (match l.keys.lookup l.level with
    | some k => do
      let l := { l with
        keys := l.keys.filter fun (level, _) => level ≠ l.level
        keyAllowed := false }.putBefore k.token .key
      let (l, opened) := if l.inFlow then (l, false) else l.openBlock k.column
      if opened then return l.putBefore k.token .blockMappingStart else return l
    | none => do
      let l ← l.openEntry .blockMappingStart
      { l with keyAllowed := !l.inFlow }.dropKey
    : Read Lexer)
  return (l.skip 1).push .value

/-- A token behind which no key can begin, but that may be one itself. -/
def readWord (l : Lexer) (read : Place → Read (Token × Place)) : Read Lexer := do
  let l ← l.saveKey
  let (t, p) ← read l.place
  return { l with place := p, keyAllowed := false }.push t

def readBlockScalar (l : Lexer) (folded : Bool) : Read Lexer := do
  let l ← { l with keyAllowed := true }.dropKey
  let (cs, p) ← blockScalar folded l.indent l.place.next
  return { l with place := p }.push (.scalar (.ofChars cs) false)

def readQuoted (l : Lexer) (double : Bool) : Read Lexer :=
  l.readWord fun p => do
    let (t, q) ← quotedRest double (p.size + 1) [] p.next
    return (.scalar t false, q)

/-- A plain scalar. A key may begin behind it if a line ended there. -/
def readPlain (l : Lexer) : Read Lexer := do
  let l ← l.saveKey
  let (cs, p, ended) :=
    plainWords l.inFlow (l.indent + 1) (l.place.size + 1) [] [] false l.place
  if ended then p.lookForMark
  if p.peek? = some ':' then p.next.look
  return { l with place := p, keyAllowed := ended }.push (.scalar (.ofChars cs.reverse) true)

/-- A plain scalar can begin here. -/
def startsPlain (l : Lexer) (c : Char) : Bool :=
  !(endsWord (some c) || "-?:,[]\x7b\x7d#&*!|>'\"%@\x60".contains c) ||
    (!endsWord (l.place.peekAt? 1) && (c = '-' || (!l.inFlow && (c = '?' || c = ':'))))

/-- Read the token that begins here. -/
def readToken (l : Lexer) : Read Lexer := do
  let p := l.place
  let alone := endsWord (p.peekAt? 1)
  match p.peek? with
  | none => do
    let l ← l.closeAll
    return { l with keys := [] }.push .streamEnd
  | some c =>
    if c = '%' ∧ p.column = 0 then do
      let l ← l.closeAll
      let (d, p) ← directive p.next
      return { l with place := p }.push (.directive d)
    else if c = '-' ∧ p.column = 0 ∧ p.atDocumentMark then l.readDocumentMark .documentStart
    else if c = '.' ∧ p.column = 0 ∧ p.atDocumentMark then l.readDocumentMark .documentEnd
    else if c = '[' then l.readOpening .flowSequenceStart
    else if c = '\x7b' then l.readOpening .flowMappingStart
    else if c = ']' then l.readClosing .flowSequenceEnd
    else if c = '\x7d' then l.readClosing .flowMappingEnd
    else if c = ',' then l.readFlowEntry
    else if c = '-' ∧ alone then l.readBlockEntry
    else if c = '?' ∧ (l.inFlow ∨ alone) then l.readKey
    else if c = ':' ∧ (l.inFlow ∨ alone) then l.readValue
    else if c = '*' then l.readWord fun p => do
      let (s, q) ← anchorName p.next
      return (.alias s, q)
    else if c = '&' then l.readWord fun p => do
      let (s, q) ← anchorName p.next
      return (.anchor s, q)
    else if c = '!' then l.readWord tag
    else if c = '|' ∧ !l.inFlow then l.readBlockScalar false
    else if c = '>' ∧ !l.inFlow then l.readBlockScalar true
    else if c = '\'' then l.readQuoted false
    else if c = '"' then l.readQuoted true
    else if l.startsPlain c then l.readPlain
    else p.next.fault .malformed

/-- Know what is needed to tell which token begins here. -/
def lookAhead (l : Lexer) : Read Unit := do
  let p := l.place
  p.look
  let c := p.peek?
  if p.column = 0 ∧ (c = some '-' ∨ c = some '.') then p.lookForMark
  if c = some '-' ∨ (!l.inFlow ∧ (c = some '?' ∨ c = some ':')) then p.next.look

/-- Read what comes next, behind blanks and comments. -/
def readNext (l : Lexer) : Read Lexer := do
  let l := skipSpace (l.place.size + 1) l
  l.place.look
  let l ← l.dropStale
  let l := if l.inFlow then l else unwind l.place.column l.outer l
  l.lookAhead
  let l ← l.readToken
  l.place.look
  return l

/-- Read tokens up to the end, or to the first fault, and answer them, the latest first. Before a fault
only settled tokens count. -/
def readAll : Nat → Lexer → List Token × Option Error
  | 0, l => (l.tokens, none)
  | fuel + 1, l =>
    match l.readNext with
    | .error e => (l.settled, some e)
    | .ok l => if l.tokens.head? = some .streamEnd then (l.tokens, none) else readAll fuel l

end Lexer

/-- The tokens of a source, and the fault behind the last one, if there is one. -/
def tokens (s : Source) : List Token × Option Error :=
  let p : Place := { rest := s.chars, size := s.chars.length, beyond := s.beyond }
  let p := if p.peek? = some byteOrderMark then p.next else p
  let (ts, e) := Lexer.readAll (p.size + 2) { place := p }
  (ts.reverse, e)

end Chip8.Yaml
