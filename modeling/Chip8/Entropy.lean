/-!
# Random numbers

The numbers that a program draws come from a list that begins again when it is used up, so that a
run can be repeated. An empty list gives zeros.
-/

namespace Chip8

structure Entropy where
  values : Array Int := #[]
  /-- How many numbers were drawn. -/
  position : Nat := 0
deriving DecidableEq, Repr, Inhabited

/-- A number below `n`. -/
def Entropy.draw (e : Entropy) (n : Nat) : Int × Entropy :=
  (e.values.getD (e.position % e.values.size) 0 % n, { e with position := e.position + 1 })

end Chip8
