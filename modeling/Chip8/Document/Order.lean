import Chip8.Document.Key

/-!
# The order of sets

The items of a set stand in the order in which they came, unless all of them are numbers. Numbers
stand in the order of a table of places that they are put into one by one: each goes to the place
that its remainder names, or, where that is taken, to one of a row of further places.
-/

namespace Chip8.Document

namespace Value

/-- The modulus by which numbers are taken to places. -/
def modulus : Nat := 0x2000000000000000 - 1

/-- The residue of a number, with its sign. Numbers that are worth the same have the same residue,
and none has the residue `-1`. -/
def residue? : Value → Option Int
  | bool b => some (if b then 1 else 0)
  | int n => some (signed (n < 0) (n.natAbs % modulus))
  | float x =>
    match binary? x with
    | some (negative, m, q) =>
      some (signed negative (m % modulus * Nat.pow 2 (q % 61).toNat % modulus))
    | none => if x == x then some (signed (x < 0) 314159) else none
  | _ => none
where
  signed (negative : Bool) (r : Nat) : Int :=
    if negative then (if r = 1 then -2 else -r) else r

end Value

/-- How many places there are for so many items. -/
def placesFor (n : Nat) : Nat := if n < 5 then 8 else Nat.pow 2 ((2 * n).log2 + 1)

/-- The places that are looked at together: the next ones too, if there are enough of them. -/
def placesFrom (size i : Nat) : List Nat :=
  if i + 9 < size then (List.range 10).map (i + ·) else [i]

/-- Put a value into the first free place that is looked at. The shift of the residue decides where
the search goes on; the count bounds it. -/
def putFrom (v : Value) (table : Array (Option Value)) : Nat → Nat → Nat → Array (Option Value)
  | 0, _, _ => table
  | fuel + 1, i, shift =>
    match (placesFrom table.size i).find? fun k => (table.getD k none).isNone with
    | some k => table.setIfInBounds k (some v)
    | none => putFrom v table fuel ((5 * i + 1 + shift / 32) % table.size) (shift / 32)

def put (table : Array (Option Value)) (v : Value) : Array (Option Value) :=
  let start := (v.residue?.getD 0 % 0x10000000000000000).toNat
  putFrom v table (table.size + 16) (start % table.size) start

/-- The items of a set in their order. -/
def inOrder (items : List Value) : List Value :=
  if items.all fun v => v.residue?.isSome then
    ((items.foldl put (Array.replicate (placesFor items.length) none)).toList).filterMap id
  else items

end Chip8.Document
