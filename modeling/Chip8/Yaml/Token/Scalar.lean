import Chip8.Yaml.Place

/-!
# Scalars in a text

The three ways of writing a scalar: plain, in quotes, and as a block of lines. Each reader answers
the content and the place behind it. A line break within a plain or quoted scalar becomes a blank;
further ones stay. What a loop has gathered of a scalar it holds backward.
-/

namespace Chip8.Yaml

/-! ## Plain scalars -/

/-- How many characters of a plain scalar come before a blank, a break or a mark. -/
def plainLength (inFlow : Bool) : List Char → Nat
  | [] => 0
  | c :: rest =>
    let next := rest.head?
    if endsWord (some c) ||
      (c = ':' && (endsWord next || (inFlow && next.any (",[]\x7b\x7d".contains ·)))) ||
      (inFlow && ",?[]\x7b\x7d".contains c)
    then 0 else plainLength inFlow rest + 1

/-- Line breaks and blanks, as far as they go or up to a mark between documents. The answer is the
breaks, the place, and whether such a mark was met. -/
def plainBreaks : Nat → List Char → Place → List Char × Place × Bool
  | 0, breaks, p => (breaks, p, false)
  | fuel + 1, breaks, p =>
    if p.peek? = some ' ' then plainBreaks fuel breaks p.next
    else
      match p.lineBreak? with
      | none => (breaks, p, false)
      | some (c, q) =>
        if q.atDocumentMark then (breaks ++ [c], q, true)
        else plainBreaks fuel (breaks ++ [c]) q

/-- What stands for the space behind a word of a plain scalar, and whether a line ended there.
Nothing stands for it before a mark between documents. -/
def plainSpace (p : Place) : List Char × Place × Bool :=
  let blanks := p.rest.takeWhile (· = ' ')
  let p := p.skipBlanks
  match p.lineBreak? with
  | none => (blanks, p, false)
  | some (c, q) =>
    if q.atDocumentMark then ([], q, true)
    else
      let (breaks, r, marked) := plainBreaks q.size [] q
      if marked then ([], r, true)
      else
        let first := if c ≠ '\n' then [c] else if breaks.isEmpty then [' '] else []
        (first ++ breaks, r, true)

/-- The words of a plain scalar, backward. The flag says whether a line has ended behind the last
one. -/
def plainWords (inFlow : Bool) (indent : Int) : Nat → List Char → List Char → Bool → Place →
    List Char × Place × Bool
  | 0, out, _, ended, p => (out, p, ended)
  | fuel + 1, out, space, ended, p =>
    let n := plainLength inFlow p.rest
    if p.peek? = some '#' ∨ n = 0 then (out, p, ended)
    else
      let out := (p.rest.take n).reverse ++ (space.reverse ++ out)
      let (space, p, ended) := plainSpace (p.skip n)
      if space.isEmpty ∨ p.peek? = some '#' ∨ (!inFlow ∧ p.column < indent) then (out, p, ended)
      else plainWords inFlow indent fuel out space ended p

/-! ## Quoted scalars -/

/-- The character that an escape of one letter stands for. -/
def escaped? : Char → Option Char
  | '0' => some '\x00'
  | 'a' => some '\x07'
  | 'b' => some '\x08'
  | 't' => some '\t'
  | '\t' => some '\t'
  | 'n' => some '\n'
  | 'v' => some '\x0b'
  | 'f' => some '\x0c'
  | 'r' => some '\r'
  | 'e' => some '\x1b'
  | ' ' => some ' '
  | '"' => some '"'
  | '\\' => some '\\'
  | '/' => some '/'
  | 'N' => some '\u0085'
  | '_' => some '\u00a0'
  | 'L' => some '\u2028'
  | 'P' => some '\u2029'
  | _ => none

/-- How many digits follow the letter of an escape by number. -/
def escapeWidth? : Char → Option Nat
  | 'x' => some 2
  | 'u' => some 4
  | 'U' => some 8
  | _ => none

/-- The letter of a number. -/
def letter (n : Nat) : Except Error Letter :=
  if 0x80000000 ≤ n then .error .hugeCharacter
  else if 0x110000 ≤ n then .error .badCharacter
  else .ok (.ofCode n)

/-- The breaks of the blank lines that follow. A mark between documents is a fault. -/
def quotedBreaks : Nat → List Char → Place → Except Error (List Char × Place)
  | 0, breaks, p => .ok (breaks, p)
  | fuel + 1, breaks, p => do
    p.lookForMark
    if p.atDocumentMark then throw .malformed
    let p := p.skipWhile isBlank
    match p.lineBreak? with
    | none => return (breaks, p)
    | some (c, q) => quotedBreaks fuel (breaks ++ [c]) q

/-- An escape, behind its backslash. -/
def quotedEscape (p : Place) : Except Error (Text × Place) :=
  match p.peek? with
  | none => p.fault .malformed
  | some c =>
    match escaped? c, escapeWidth? c with
    | some e, _ => .ok (.ofChars [e], p.next)
    | none, some width => do
      let p := p.next
      let cs := (p.rest.take width).takeWhile fun c => (Text.Integer.hexValue? c).isSome
      let digits := cs.filterMap Text.Integer.hexValue?
      if digits.length < width then (p.skip digits.length).fault .malformed
      let e ← letter (Text.Integer.ofDigits 16 digits)
      return (⟨[e]⟩, p.skip width)
    | none, none =>
      match p.lineBreak? with
      | some (_, q) => do
        let (breaks, r) ← quotedBreaks (q.size + 1) [] q
        return (.ofChars breaks, r)
      | none => .error .malformed

/-- The space within quotes at a place: blanks, or a line break with what is around it. -/
def quotedSpace (p : Place) : Except Error (List Char × Place) := do
  let blanks := p.rest.takeWhile isBlank
  let p := p.skipWhile isBlank
  match p.lineBreak? with
  | none => if p.rest.isEmpty then p.fault .malformed else return (blanks, p)
  | some (c, q) =>
    let (breaks, r) ← quotedBreaks (q.size + 1) [] q
    return ((if c ≠ '\n' then [c] else if breaks.isEmpty then [' '] else []) ++ breaks, r)

/-- Characters that stand for themselves within quotes of either kind. -/
def isOrdinary (c : Char) : Bool :=
  !(c = '"' || c = '\'' || c = '\\' || isBlank c || isBreak c)

/-- What follows within quotes, up to the closing one. Escapes begin with a backslash in double
quotes; in single quotes a quote is written twice. -/
def quotedRest (double : Bool) : Nat → List Letter → Place → Except Error (Text × Place)
  | 0, _, _ => .error .malformed
  | fuel + 1, out, p =>
    match p.rest with
    | [] => p.fault .malformed
    | '"' :: _ =>
      if double then .ok (⟨out.reverse⟩, p.next)
      else quotedRest double fuel (.char '"' :: out) p.next
    | '\'' :: rest =>
      if double then quotedRest double fuel (.char '\'' :: out) p.next
      else if rest.head? = some '\'' then quotedRest double fuel (.char '\'' :: out) p.next.next
      else .ok (⟨out.reverse⟩, p.next)
    | '\\' :: _ =>
      if double then do
        let (t, q) ← quotedEscape p.next
        quotedRest double fuel (t.letters.reverse ++ out) q
      else quotedRest double fuel (.char '\\' :: out) p.next
    | c :: _ =>
      if isBlank c || isBreak c then do
        let (cs, q) ← quotedSpace p
        quotedRest double fuel ((cs.map .char).reverse ++ out) q
      else
        let run := p.rest.takeWhile isOrdinary
        quotedRest double fuel ((run.map .char).reverse ++ out) (p.skip run.length)

/-! ## Block scalars -/

/-- What becomes of the breaks at the end of a block. -/
inductive Chomping where
  | strip
  | clip
  | keep
deriving DecidableEq, Repr

def chompingOf? : Option Char → Option Chomping
  | some '+' => some .keep
  | some '-' => some .strip
  | _ => none

/-- The digit for the indentation of a block. It is not zero. -/
def indentDigit? (p : Place) : Except Error (Option Nat × Place) :=
  match p.peek?.filter Char.isDigit with
  | none => .ok (none, p)
  | some '0' => .error .malformed
  | some c => .ok (some (c.toNat - '0'.toNat), p.next)

/-- The head of a block: chomping and indentation, in either order. -/
def blockHead (p : Place) : Except Error (Chomping × Option Nat × Place) := do
  let (chomping, indent, p) ← (match chompingOf? p.peek? with
    | some chomping => do
      let (indent, p) ← indentDigit? p.next
      return (chomping, indent, p)
    | none => do
      let (indent, p) ← indentDigit? p
      match indent, chompingOf? p.peek? with
      | some _, some chomping => return (chomping, indent, p.next)
      | _, _ => return (.clip, indent, p)
    : Except Error (Chomping × Option Nat × Place))
  p.look
  if !endsItem p.peek? then throw .malformed
  let p := p.skipBlanks.skipComment
  p.look
  if !endsLine p.peek? then throw .malformed
  return (chomping, indent, p.skipBreak)

/-- The breaks of the blank lines at the beginning of a block, and the widest indentation seen. -/
def blockIndent : Nat → List Char → Nat → Place → List Char × Nat × Place
  | 0, breaks, widest, p => (breaks, widest, p)
  | fuel + 1, breaks, widest, p =>
    if p.peek? = some ' ' then blockIndent fuel breaks (max widest p.next.column) p.next
    else
      match p.lineBreak? with
      | some (c, q) => blockIndent fuel (breaks ++ [c]) widest q
      | none => (breaks, widest, p)

/-- Step over blanks as far as the indentation goes. -/
def skipIndent (indent : Nat) (p : Place) : Place :=
  p.skip (min (indent - p.column) (p.rest.takeWhile (· = ' ')).length)

/-- The breaks of blank lines within a block. -/
def blockBreaks (indent : Nat) : Nat → List Char → Place → List Char × Place
  | 0, breaks, p => (breaks, p)
  | fuel + 1, breaks, p =>
    let p := skipIndent indent p
    match p.lineBreak? with
    | some (c, q) => blockBreaks indent fuel (breaks ++ [c]) q
    | none => (breaks, p)

/-- The lines of a block: the content so far, backward, the break of its last line, the breaks behind
it, and the place. A folded block joins lines that begin with no blank. -/
def blockLines (folded : Bool) (indent : Nat) : Nat → List Char → List Char → List Char → Place →
    List Char × List Char × List Char × Place
  | 0, out, last, breaks, p => (out, last, breaks, p)
  | fuel + 1, out, last, breaks, p =>
    if p.column ≠ indent ∨ p.rest.isEmpty then (out, last, breaks, p)
    else
      let out := breaks.reverse ++ out
      let leading := !p.peek?.any isBlank
      let (line, p) := p.restOfLine
      let out := line.reverse ++ out
      let (last, p) := match p.lineBreak? with
        | some (c, q) => ([c], q)
        | none => ([], p)
      let (breaks, p) := blockBreaks indent (p.size + 1) [] p
      if p.column = indent ∧ !p.rest.isEmpty then
        let joined :=
          if folded ∧ last = ['\n'] ∧ leading ∧ !p.peek?.any isBlank then
            if breaks.isEmpty then [' '] else []
          else last
        blockLines folded indent fuel (joined.reverse ++ out) last breaks p
      else (out, last, breaks, p)

/-- A block scalar, behind its mark, within an indentation. -/
def blockScalar (folded : Bool) (outer : Int) (p : Place) : Except Error (List Char × Place) := do
  let (chomping, increment, p) ← blockHead p
  let least := (max (outer + 1) 1).toNat
  let (indent, breaks, p) := match increment with
    | none =>
      let (breaks, widest, p) := blockIndent p.size [] 0 p
      (max least widest, breaks, p)
    | some n =>
      let indent := least + n - 1
      let (breaks, p) := blockBreaks indent (p.size + 1) [] p
      (indent, breaks, p)
  let (out, last, breaks, p) := blockLines folded indent (p.size + 1) [] [] breaks p
  let tail := match chomping with
    | .strip => []
    | .clip => last
    | .keep => last ++ breaks
  return (out.reverse ++ tail, p)

end Chip8.Yaml
