/-!
# Bitwise operations on integers

A negative integer counts as having infinitely many leading ones, so that `-1` has every bit set.
On natural numbers the operations are those of `Nat`.
-/

namespace Chip8.Bits

def and : Int → Int → Int
  | .ofNat m, .ofNat n => .ofNat (m &&& n)
  | .ofNat m, .negSucc n => .ofNat (m - (m &&& n))
  | .negSucc m, .ofNat n => .ofNat (n - (n &&& m))
  | .negSucc m, .negSucc n => .negSucc (m ||| n)

def or (a b : Int) : Int := .not (and a.not b.not)

def xor (a b : Int) : Int := and (or a b) (.not (and a b))

/-- Whether the bit worth `2 ^ k` is set. -/
def test (a : Int) (k : Nat) : Bool := a / (Nat.pow 2 k : Nat) % 2 = 1

@[simp] theorem and_ofNat (m n : Nat) : and m n = (m &&& n : Nat) := rfl

end Chip8.Bits
