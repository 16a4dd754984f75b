import Chip8.Screen
import Chip8.Text.Integer

/-!
# Colors

A color has four parts: red, green, blue and opacity. As text it is six or eight digits in base
sixteen, two for each part, after any number of `#` marks; without the last two it is opaque.
-/

namespace Chip8

structure Color where
  red : Int
  green : Int
  blue : Int
  alpha : Int
deriving DecidableEq, Repr

namespace Color

def parts (c : Color) : List Int := [c.red, c.green, c.blue, c.alpha]

/-- The part that two letters stand for, which are read as a number of their own. -/
def part? (a b : Letter) : Option Int := (Text.Integer.parse 16 ⟨[a, b]⟩).toOption

/-- There is no answer if the text is no color. -/
def parse? (t : Text) : Option Color :=
  let ls := t.letters.dropWhile (· = .char '#')
  let ls := if ls.length = 6 then ls ++ [.char 'F', .char 'F'] else ls
  match ls with
  | [a, b, c, d, e, f, g, h] => do
    return ⟨← part? a b, ← part? c d, ← part? e f, ← part? g h⟩
  | _ => none

/-- The parts as bytes, if they all are some. -/
def bytes? (parts : List Int) : Option (List UInt8) :=
  parts.mapM fun n => if 0 ≤ n ∧ n ≤ 255 then some (UInt8.ofNat n.toNat) else none

end Color

end Chip8
