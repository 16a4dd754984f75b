/-!
# Decimals for binary fractions

`shortest m q` is a decimal that reads back as the binary fraction `m * 2 ^ q` of 53 bits: one with
the fewest digits, and of those the nearest. A decimal reads back when it lies between the two
points half way to the neighbours, or on one of them if `m` is even.
-/

namespace Chip8

/-- The decimal `digits * 10 ^ exponent`. -/
structure Decimal where
  digits : Nat
  exponent : Int
deriving DecidableEq, Repr

namespace Decimal

/-- `n * 2 ^ q / 10 ^ j` as a numerator and a denominator. -/
def scale (n : Nat) (q j : Int) : Nat × Nat :=
  (n * Nat.pow 2 q.toNat * Nat.pow 10 (-j).toNat, Nat.pow 2 (-q).toNat * Nat.pow 10 j.toNat)

/-- The points, in quarters of the last binary place, between which numbers read back as `m`. The
neighbour below a power of two is nearer. -/
def ends (m : Nat) (q : Int) : Nat × Nat :=
  (if m = 0x10000000000000 ∧ -1074 < q then 4 * m - 1 else 4 * m - 2, 4 * m + 2)

/-- Of the two decimals around `m * 2 ^ q` that end at the place `j`, the nearest that reads back. -/
def atPlace? (m : Nat) (q j : Int) : Option Nat :=
  let (v, unit) := scale (4 * m) (q - 2) j
  let (low, _) := scale (ends m q).1 (q - 2) j
  let (high, _) := scale (ends m q).2 (q - 2) j
  let readsBack (d : Nat) : Bool :=
    if m % 2 = 0 then low ≤ d * unit && d * unit ≤ high else low < d * unit && d * unit < high
  let d := v / unit
  match readsBack d, readsBack (d + 1) with
  | true, true =>
    let below := v - d * unit
    let above := (d + 1) * unit - v
    some (if below < above ∨ (below = above ∧ d % 2 = 0) then d else d + 1)
  | true, false => some d
  | false, true => some (d + 1)
  | false, false => none

/-- The place of the first digit of `m * 2 ^ q`. -/
def leadingPlace (m : Nat) (q : Int) : Int :=
  let guess := (m.log2 + q) * 1233 / 4096
  let reached (j : Int) : Bool :=
    let (n, unit) := scale m q j
    unit ≤ n
  ([guess + 2, guess + 1, guess].find? reached).getD (guess - 1)

/-- The same decimal without zeros at its end. The count bounds the zeros that are taken off. -/
def trim (d : Decimal) : Nat → Decimal
  | 0 => d
  | n + 1 => if d.digits % 10 = 0 then trim ⟨d.digits / 10, d.exponent + 1⟩ n else d

def shortest (m : Nat) (q : Int) : Decimal :=
  let place := leadingPlace m q
  let found := (List.range 17).findSome? fun (n : Nat) =>
    let j := place - n
    (atPlace? m q j).map fun d => Decimal.mk d j
  trim (found.getD ⟨0, 0⟩) 17

end Decimal

end Chip8
