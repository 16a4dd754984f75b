import Chip8.Decimal.Shortest
import Chip8.Text.Integer

/-!
# Floating-point numbers in text

A number is a sign, if any, digits with a point among them or not, and a power of ten, if any, with
blanks around it all. Digits of any script count as digits. The two numbers that have no digits are
written as words.
-/

namespace Chip8.Decimal

/-- The floating-point number nearest to a decimal. Beyond the largest one there is only infinity. -/
def toFloat (d : Decimal) : Float :=
  let place := (toString d.digits).length + d.exponent
  if d.digits = 0 ∨ place < -400 then 0.0
  else if 400 < place then 1.0 / 0.0
  else Float.ofScientific d.digits (d.exponent < 0) d.exponent.natAbs

/-- The digits of any script that a text begins with, and the rest. -/
def spanDigits (cs : List Char) : List Nat × List Char :=
  ((cs.takeWhile fun c => (Text.decimalValue? c).isSome).filterMap Text.decimalValue?,
    cs.dropWhile fun c => (Text.decimalValue? c).isSome)

/-- The power of ten behind the digits. -/
def power? : List Char → Option Int
  | [] => some 0
  | e :: cs =>
    let (negative, cs) := Text.Integer.dropSign cs
    let (ds, rest) := spanDigits cs
    if (e = 'e' ∨ e = 'E') ∧ ds ≠ [] ∧ rest.isEmpty then
      let n := Text.Integer.ofDigits 10 ds
      some (if negative then -n else n)
    else none

def decimal? (cs : List Char) : Option Decimal := do
  let (whole, cs) := spanDigits cs
  let (fraction, cs) := match cs with
    | '.' :: cs => spanDigits cs
    | cs => ([], cs)
  if whole.isEmpty && fraction.isEmpty then none
  let power ← power? cs
  return ⟨Text.Integer.ofDigits 10 (whole ++ fraction), power - fraction.length⟩

def readFloat? (cs : List Char) : Option Float := do
  let (negative, cs) := Text.Integer.dropSign (Text.trimBlanks cs)
  let word := String.ofList (cs.map Char.toLower)
  let x ←
    if word = "inf" ∨ word = "infinity" then some (1.0 / 0.0)
    else if word = "nan" then some (0.0 / 0.0)
    else (decimal? cs).map toFloat
  return if negative then -x else x

end Chip8.Decimal
