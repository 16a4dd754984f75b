import Chip8.Decimal.Text
import Chip8.Document

/-!
# Keys

A value that cannot change can be the key of an entry. `Value.sameKey` says which keys are the same:
numbers are compared by what they are worth, moments by when they are. A mapping has each key once.
-/

namespace Chip8.Document

namespace Value

def canBeKey : Value → Bool
  | part _ => false
  | _ => true

/-- A finite floating-point number as a sign and `m * 2 ^ q`. -/
def binary? (x : Float) : Option (Bool × Nat × Int) :=
  let (negative, biased, fraction) := Decimal.parts x
  if biased = 2047 then none
  else if biased = 0 then some (negative, fraction, -1074)
  else some (negative, 0x10000000000000 + fraction, biased - 1075)

/-- The number that a value is as a key. Booleans count as numbers. -/
def asInt? : Value → Option Int
  | bool b => some (if b then 1 else 0)
  | int n => some n
  | float x => do
    let (negative, m, q) ← binary? x
    let (n, unit) := Decimal.scale m q 0
    if n % unit ≠ 0 then none
    let n : Int := (n / unit : Nat)
    return if negative then -n else n
  | _ => none

/-- Two values are the same key. What is no number is the same only as itself. -/
def sameKey : Value → Value → Bool
  | null, null => true
  | nan m, nan n => m = n
  | text s, text t => s = t
  | bytes s, bytes t => s = t
  | date s, date t => s = t
  | moment s, moment t => s.same t
  | float x, float y => x == y
  | a, b =>
    match a.asInt?, b.asInt? with
    | some m, some n => m = n
    | _, _ => false

end Value

/-- Give a key a value. A key that is there keeps its place. -/
def setEntry (k v : Value) : List (Value × Value) → List (Value × Value)
  | [] => [(k, v)]
  | (k', v') :: rest => if k'.sameKey k then (k', v) :: rest else (k', v') :: setEntry k v rest

/-- The value of a textual key. -/
def lookup? (name : String) (entries : List (Value × Value)) : Option Value :=
  (entries.find? fun e => e.1.sameKey (.text name)).map (·.2)

end Chip8.Document
