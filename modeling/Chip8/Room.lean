/-!
# Room for bytes

How many bytes can be had at once. A number may be refused for three causes: it is below zero, no
memory has so many bytes, or it is further from zero than lengths can be written.
-/

namespace Chip8.Room

inductive Error where
  | negative
  | tooMany
  /-- The number is no length at all. -/
  | uncountable
deriving DecidableEq, Repr

def Error.message : Error → String
  | negative => "negative count"
  | tooMany => ""
  | uncountable => "cannot fit 'int' into an index-sized integer"

/-- The number can be a length, or a place counted from either end. -/
abbrev Countable (n : Int) : Prop := -0x8000000000000000 ≤ n ∧ n < 0x8000000000000000

/-- The number of bytes, if so many can be had. -/
def of? (n : Int) : Except Error Nat :=
  if ¬ Countable n then .error .uncountable
  else if n < 0 then .error .negative
  else if 0x100000000 ≤ n then .error .tooMany
  else .ok n.toNat

end Chip8.Room
