/-!
# Bytes in base sixty-four

Four digits make three bytes. Equals signs fill the last four up; nothing behind them counts, and
characters that are no digits are passed over.
-/

namespace Chip8.Text.Base64

def digit? (c : Char) : Option Nat :=
  if 'A' ≤ c ∧ c ≤ 'Z' then some (c.toNat - 'A'.toNat)
  else if 'a' ≤ c ∧ c ≤ 'z' then some (c.toNat - 'a'.toNat + 26)
  else if '0' ≤ c ∧ c ≤ '9' then some (c.toNat - '0'.toNat + 52)
  else if c = '+' then some 62
  else if c = '/' then some 63
  else none

/-- The whole bytes in some digits. -/
def bytes : List Nat → List UInt8
  | a :: b :: rest =>
    UInt8.ofNat (4 * a + b / 16) :: match rest with
      | c :: rest =>
        UInt8.ofNat (16 * b + c / 4) :: match rest with
          | d :: _ => [UInt8.ofNat (64 * c + d)]
          | [] => []
      | [] => []
  | _ => []

/-- Decode behind the digits of a group that has begun and the signs that have filled it. -/
def decodeFrom (group : List Nat) (filled : Nat) : List Char → Option (List UInt8)
  | [] => if group.isEmpty then some [] else none
  | c :: rest =>
    if c = '=' then
      if group.length < 2 then decodeFrom group filled rest
      else if 4 ≤ group.length + filled + 1 then some (bytes group)
      else decodeFrom group (filled + 1) rest
    else
      match digit? c with
      | none => decodeFrom group filled rest
      | some d =>
        if group.length = 3 then (decodeFrom [] 0 rest).map (bytes (group ++ [d]) ++ ·)
        else decodeFrom (group ++ [d]) 0 rest

/-- The bytes of a text, unless its last group stays open. -/
def decode? (cs : List Char) : Option (List UInt8) := decodeFrom [] 0 cs

end Chip8.Text.Base64
