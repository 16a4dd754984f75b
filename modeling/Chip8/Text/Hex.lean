/-!
# Numbers in base sixteen

Two ways of writing a number are in use. `fixed` writes a given count of capital digits, as
listings do. `padded` writes a `0x` mark and small digits, filled with zeros up to a total width
that counts the sign and the mark, as messages do.
-/

namespace Chip8.Text.Hex

/-- The digits below sixteen, as capitals. -/
def capital (d : Nat) : Char :=
  ['0', '1', '2', '3', '4', '5', '6', '7', '8', '9', 'A', 'B', 'C', 'D', 'E', 'F'].getD d '?'

/-- The last `width` digits of `n`. -/
def fixedChars : Nat → Nat → List Char
  | 0, _ => []
  | width + 1, n => fixedChars width (n / 16) ++ [capital (n % 16)]

def fixed (width n : Nat) : String :=
  String.ofList (fixedChars width n)

@[simp] theorem length_fixedChars (width n : Nat) : (fixedChars width n).length = width := by
  induction width generalizing n with
  | zero => rfl
  | succ width ih => simp [fixedChars, ih]

/-- `n` with a `0x` mark, filled with zeros to `width` characters in all. -/
def padded (width : Nat) (n : Int) : String :=
  let sign := if n < 0 then "-" else ""
  let digits := Nat.toDigits 16 n.natAbs
  let zeros := width - (sign.length + 2 + digits.length)
  sign ++ "0x" ++ String.ofList (List.replicate zeros '0' ++ digits)

end Chip8.Text.Hex
