import Chip8.Text.Blank
import Chip8.Text.Digit
import Chip8.Text.Quoted

/-!
# Integers in text

An integer literal is a sign, if any, and digits of a base, with blanks around it. Single
underscores may stand between digits. The bases two, eight and sixteen have a mark that may stand
before the digits; an underscore may follow it. Digits of any script count as digits. The count of
decimal digits is limited for reading and for writing.
-/

namespace Chip8.Text.Integer

inductive Error where
  | malformed (base : Nat) (text : Text)
  /-- Too many decimal digits. -/
  | tooLong (digits : Nat)
deriving DecidableEq, Repr

/-- The most decimal digits that a number may be read from or written with. -/
def maxDigits : Nat := 4300

def Error.message : Error → String
  | malformed base text =>
    "invalid literal for int() with base " ++ toString base ++ ": " ++
      String.ofList ((quoted text).toList.take 200)
  | tooLong digits =>
    "Exceeds the limit (" ++ toString maxDigits ++
      " digits) for integer string conversion: value has " ++ toString digits ++
      " digits; use sys.set_int_max_str_digits() to increase the limit"

/-- The value of a digit in bases up to thirty-six. -/
def digitValue? (c : Char) : Option Nat :=
  if 'a' ≤ c ∧ c ≤ 'z' then some (c.toNat - 'a'.toNat + 10)
  else if 'A' ≤ c ∧ c ≤ 'Z' then some (c.toNat - 'A'.toNat + 10)
  else decimalValue? c

def digitBelow? (base : Nat) (c : Char) : Option Nat :=
  (digitValue? c).filter (· < base)

/-- The value of a digit in base sixteen that belongs to ASCII. -/
def hexValue? (c : Char) : Option Nat :=
  if c.toNat < 0x80 then digitBelow? 16 c else none

/-- The letter that marks a base after a zero. -/
def baseMark? : Nat → Option Char
  | 2 => some 'b'
  | 8 => some 'o'
  | 16 => some 'x'
  | _ => none

/-- Take the mark of the base off, and an underscore that follows it. -/
def dropMark (base : Nat) (cs : List Char) : List Char :=
  match cs, baseMark? base with
  | z :: m :: rest, some mark =>
    if decimalValue? z = some 0 ∧ m.toLower = mark then
      match rest with
      | '_' :: rest => rest
      | _ => rest
    else cs
  | _, _ => cs

/-- Digits and underscores in which every underscore stands between two digits. -/
def wellSpaced (cs : List Char) : Bool :=
  cs.head?.any (· ≠ '_') && cs.getLast?.any (· ≠ '_') &&
    (cs.zip cs.tail).all fun (a, b) => a ≠ '_' || b ≠ '_'

/-- The digits that the text begins with: their values, and what is left. There is no answer if
there are none or underscores stand elsewhere than between two of them. -/
def digits? (base : Nat) (cs : List Char) : Option (List Nat × List Char) :=
  let belongs (c : Char) : Bool := c = '_' || (digitBelow? base c).isSome
  let run := cs.takeWhile belongs
  if wellSpaced run then some (run.filterMap (digitBelow? base), cs.dropWhile belongs) else none

/-- The number of a row of digits, the most significant first. -/
def ofDigits (base : Nat) (ds : List Nat) : Nat :=
  ds.foldl (fun n d => base * n + d) 0

/-- Take a sign off. -/
def dropSign : List Char → Bool × List Char
  | '-' :: rest => (true, rest)
  | '+' :: rest => (false, rest)
  | cs => (false, cs)

def parse (base : Nat) (t : Text) : Except Error Int :=
  let (negative, cs) := dropSign (t.readable.dropWhile isBlank)
  match digits? base (dropMark base cs) with
  | none => .error (.malformed base t)
  | some (ds, left) =>
    if base = 10 ∧ maxDigits < ds.length then .error (.tooLong ds.length)
    else if left.all isBlank then
      let n : Int := ofDigits base ds
      .ok (if negative then -n else n)
    else .error (.malformed base t)

/-- A number in base ten, unless it has too many digits to be written. -/
def decimal? (n : Int) : Option String :=
  if n.natAbs < Nat.pow 10 maxDigits then some (toString n) else none

/-- What is said in place of a number that is too long to be written. -/
def unwritten : String :=
  "Exceeds the limit (" ++ toString maxDigits ++
    " digits) for integer string conversion; use sys.set_int_max_str_digits() to increase the limit"

end Chip8.Text.Integer
