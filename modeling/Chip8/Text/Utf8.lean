/-!
# Characters in bytes

A character is written in one to four bytes. The first one says how many follow, each with six bits
of the character's number. `Utf8.decode` takes the bytes in runs of any length: what has begun at
the end of a run goes on in the next one.
-/

namespace Chip8.Text.Utf8

/-- A character that has begun: its number so far, how many bytes are still owed, and the least and
the greatest that the next one may be. -/
structure State where
  number : Nat := 0
  owed : Nat := 0
  low : Nat := 0x80
  high : Nat := 0xBF
deriving DecidableEq, Repr

/-- What the first byte of a character says. The range of the second one keeps out characters that
have a shorter form, halves of surrogate pairs, and numbers beyond the last character. -/
def first (b : Nat) : Option State :=
  if b < 0x80 then some { number := b }
  else if b < 0xC2 then none
  else if b < 0xE0 then some { number := b - 0xC0, owed := 1 }
  else if b = 0xE0 then some { number := 0, owed := 2, low := 0xA0 }
  else if b = 0xED then some { number := 0xD, owed := 2, high := 0x9F }
  else if b < 0xF0 then some { number := b - 0xE0, owed := 2 }
  else if b = 0xF0 then some { number := 0, owed := 3, low := 0x90 }
  else if b < 0xF4 then some { number := b - 0xF0, owed := 3 }
  else if b = 0xF4 then some { number := 4, owed := 3, high := 0x8F }
  else none

def step (s : State) (b : Nat) : Option State :=
  if s.owed = 0 then first b
  else if s.low ≤ b ∧ b ≤ s.high then
    some { number := 0x40 * s.number + b % 0x40, owed := s.owed - 1 }
  else none

/-- The characters that are complete, and what has begun behind them. There is no answer if a byte
cannot stand where it does. -/
def decode (s : State) : List UInt8 → Option (List Char × State)
  | [] => some ([], s)
  | b :: rest =>
    (step s b.toNat).bind fun t => (decode t rest).map fun (cs, u) =>
      (if t.owed = 0 then Char.ofNat t.number :: cs else cs, u)

end Chip8.Text.Utf8
