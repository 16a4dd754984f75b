import Chip8.Decimal.Read
import Chip8.Document
import Chip8.Text.Base64
import Chip8.Text.Lower
import Chip8.Yaml.Node
import Chip8.Yaml.Place
import Chip8.Yaml.Timestamp

/-!
# What scalars say

`Tag.ofPlain` tells from a plain scalar what kind of value it is to become; what looks like nothing
else becomes a text. `Scalar.value` reads a scalar as a value of the kind that its tag names. The
readers take more than what is recognised in plain scalars, since a tag may be given.
-/

namespace Chip8.Yaml

open Document (Value)
open Text.Integer (dropSign hexValue?)

namespace Scalar

/-! ## Forms of plain scalars -/

def isDigitOrSpacer (c : Char) : Bool := c.isDigit || c = '_'

/-- A digit, then digits with underscores among them. -/
def isNumeral : List Char → Bool
  | [] => false
  | c :: cs => c.isDigit && cs.all isDigitOrSpacer

/-- A number below sixty. -/
def isSixtieth : List Char → Bool
  | [c] => c.isDigit
  | [b, c] => '0' ≤ b && b ≤ '5' && c.isDigit
  | _ => false

def isBool (s : String) : Bool :=
  s ∈ ["yes", "Yes", "YES", "no", "No", "NO", "true", "True", "TRUE", "false", "False", "FALSE",
    "on", "On", "ON", "off", "Off", "OFF"]

def isNull (s : String) : Bool := s ∈ ["", "~", "null", "Null", "NULL"]

/-- Digits in base two, eight, ten or sixteen, or places in base sixty. -/
def isInt (cs : List Char) : Bool :=
  match (dropSign cs).2 with
  | '0' :: 'b' :: ds => !ds.isEmpty && ds.all fun c => c = '0' || c = '1' || c = '_'
  | '0' :: 'x' :: ds => !ds.isEmpty && ds.all fun c => (hexValue? c).isSome || c = '_'
  | '0' :: ds => ds.all fun c => ('0' ≤ c && c ≤ '7') || c = '_'
  | body =>
    match body.splitOn ':' with
    | first :: places => isNumeral first && places.all isSixtieth
    | [] => false

/-- Digits behind the point, and a power of ten with a sign. -/
def isFraction (cs : List Char) : Bool :=
  match cs.dropWhile isDigitOrSpacer with
  | [] => true
  | e :: sign :: ds =>
    (e = 'e' || e = 'E') && (sign = '+' || sign = '-') && !ds.isEmpty && ds.all Char.isDigit
  | _ => false

/-- A number with a point, in base ten or, without a power, with places in base sixty. -/
def isFloat (cs : List Char) : Bool :=
  let body := (dropSign cs).2
  let isSigned := body.length < cs.length
  let word := String.ofList body
  if word ∈ [".inf", ".Inf", ".INF"] then true
  else if word ∈ [".nan", ".NaN", ".NAN"] then !isSigned
  else
    match body.takeWhile (· ≠ '.'), body.dropWhile (· ≠ '.') with
    | _, [] => false
    | [], _ :: fraction => !isSigned && fraction.head?.any Char.isDigit && isFraction fraction
    | whole, _ :: fraction =>
      match whole.splitOn ':' with
      | [first] => isNumeral first && isFraction fraction
      | first :: places =>
        isNumeral first && places.all isSixtieth && fraction.all isDigitOrSpacer
      | [] => false

/-- A time, or a date with two digits each for month and day. -/
def isTimestamp (cs : List Char) : Bool :=
  match Timestamp.parse? cs with
  | some (.date _) => cs.length = 10
  | some (.moment _) => true
  | none => false

/-- The text without a line break at its end, which no form minds. -/
def dropBreak (cs : List Char) : List Char :=
  if cs.getLast? = some '\n' then cs.dropLast else cs

end Scalar

/-- The tag of a plain scalar. -/
def Tag.ofPlain (t : Text) : Tag :=
  match t.chars? with
  | none => str
  | some whole =>
    let cs := Scalar.dropBreak whole
    let s := String.ofList cs
    if Scalar.isBool s then bool
    else if Scalar.isFloat cs then float
    else if Scalar.isInt cs then int
    else if s = "<<" then merge
    else if Scalar.isNull s && (s ≠ "" || whole.isEmpty) then null
    else if Scalar.isTimestamp cs then timestamp
    else if s = "=" then value
    else if s ∈ ["!", "&", "*"] then other
    else str

namespace Scalar

/-! ## Values -/

def boolOf (t : Text) : Except Error Bool :=
  let word := t.lower
  let isOneOf (words : List String) : Bool := word.string?.any (words.contains ·)
  if isOneOf ["yes", "true", "on"] then .ok true
  else if isOneOf ["no", "false", "off"] then .ok false
  else .error (.badBool word)

/-- The text of a number without the underscores in it. -/
def dropSpacers (t : Text) : Text := ⟨t.letters.filter (· ≠ .char '_')⟩

/-- Take a sign off. -/
def dropTextSign (t : Text) : Bool × Text :=
  match t.letters with
  | .char '-' :: rest => (true, ⟨rest⟩)
  | .char '+' :: rest => (false, ⟨rest⟩)
  | _ => (false, t)

def digitsOf (base : Nat) (t : Text) : Except Error Int :=
  (Text.Integer.parse base t).mapError .badInteger

/-- An integer. A leading zero makes it one in base eight. -/
def intOf (t : Text) : Except Error Int := do
  let (negative, body) := dropTextSign (dropSpacers t)
  let n ← (match body.letters with
    | [] => throw .emptyNumber
    | [.char '0'] => return 0
    | .char '0' :: .char 'b' :: ds => digitsOf 2 ⟨ds⟩
    | .char '0' :: .char 'x' :: ds => digitsOf 16 ⟨ds⟩
    | .char '0' :: _ => digitsOf 8 body
    | _ => do
      let places ← (body.splitOn ':').mapM (digitsOf 10)
      return places.foldl (fun n p => 60 * n + p) 0
    : Except Error Int)
  return if negative then -n else n

def fractionOf (t : Text) : Except Error Float :=
  match Decimal.readFloat? t.readable with
  | some x => .ok x
  | none => .error (.badFraction t)

/-- Places in base sixty, the last one first, each worth its unit. A unit has to be a number with a
fraction itself. -/
def sumPlaces (unit : Nat) (sum : Float) : List Float → Except Error Float
  | [] => .ok sum
  | x :: rest =>
    let worth := Float.ofNat unit
    if worth.isInf then .error .hugePlace else sumPlaces (60 * unit) (sum + x * worth) rest

/-- A number with a fraction, or none if it is written so that it is none. -/
def floatOf (t : Text) : Except Error (Option Float) := do
  let word := (dropSpacers t).lower
  if word.isEmpty then throw .emptyNumber
  let (negative, body) := dropTextSign word
  let signed (x : Float) : Option Float := some (if negative then -x else x)
  if body = ".inf" then return signed (1.0 / 0.0)
  else if body = ".nan" then return none
  else match body.splitOn ':' with
    | [_] => return signed (← fractionOf body)
    | parts => do
      let places ← parts.mapM fractionOf
      return signed (← sumPlaces 1 0.0 places.reverse)

def bytesOf (t : Text) : Except Error (List UInt8) :=
  if t.letters.any fun l => 0x80 ≤ l.code then .error .malformed
  else match Text.Base64.decode? t.readable with
    | some bs => .ok bs
    | none => .error .malformed

def timeOf (t : Text) : Except Error Value :=
  match Timestamp.parse? (dropBreak t.readable) with
  | none => .error .badTime
  | some (.date d) => (d.check.map Value.date).mapError .badCalendar
  | some (.moment m) => (m.check.map Value.moment).mapError .badCalendar

/-- The value of a floating-point number that was read. What is no number is told apart by the number
of its scalar, if it came out of arithmetic, but is one and the same where it is written so. -/
def floatValue (origin : Nat) : Option Float → Value
  | none => .nan 0
  | some x => if x.isNaN then .nan (origin + 1) else .float x

/-- The value of a scalar with a tag and a number. -/
def value (tag : Tag) (t : Text) (origin : Nat) : Except Error Value :=
  match tag with
  | .null => .ok .null
  | .bool => (boolOf t).map .bool
  | .int => (intOf t).map .int
  | .float => (floatOf t).map (floatValue origin)
  | .binary => (bytesOf t).map .bytes
  | .timestamp => timeOf t
  | .str => .ok (.text t)
  | _ => .error .malformed

end Scalar

end Chip8.Yaml
