import Chip8.Decimal.Shortest

/-!
# The text of a floating-point number

The shortest decimal that reads back, written out between `0.0001` and `10 ^ 16` with at least one
digit on either side of the point, and with a power of ten outside.
-/

namespace Chip8.Decimal

/-- The digits as text, and how many of them stand before the point. -/
def layout (d : Decimal) : String × Int :=
  let s := toString d.digits
  (s, s.length + d.exponent)

private def zeros (n : Int) : String := String.ofList (List.replicate n.toNat '0')

def text (d : Decimal) : String :=
  let (s, point) := d.layout
  if -3 ≤ point ∧ point ≤ 16 then
    if point ≤ 0 then "0." ++ zeros (-point) ++ s
    else if s.length ≤ point then s ++ zeros (point - s.length) ++ ".0"
    else String.ofList (s.toList.take point.toNat) ++ "." ++
      String.ofList (s.toList.drop point.toNat)
  else
    let power := point - 1
    let mantissa := match s.toList with
      | first :: second :: rest => String.ofList (first :: '.' :: second :: rest)
      | _ => s
    let size := toString power.natAbs
    mantissa ++ "e" ++ (if power < 0 then "-" else "+") ++ zeros (2 - size.length) ++ size

/-- The parts of a floating-point number: sign, biased exponent and fraction. -/
def parts (x : Float) : Bool × Nat × Nat :=
  let n := x.toBits.toNat
  (n / 0x8000000000000000 = 1, n / 0x10000000000000 % 0x800, n % 0x10000000000000)

def floatText (x : Float) : String :=
  let (negative, biased, fraction) := parts x
  if biased = 2047 ∧ fraction ≠ 0 then "nan"
  else
    let sign := if negative then "-" else ""
    if biased = 2047 then sign ++ "inf"
    else if biased = 0 ∧ fraction = 0 then sign ++ "0.0"
    else if biased = 0 then sign ++ (shortest fraction (-1074)).text
    else sign ++ (shortest (0x10000000000000 + fraction) (biased - 1075)).text

end Chip8.Decimal
