import Chip8.Bus
import Chip8.Instruction

/-!
# Snapshots

The record of one instruction: the registers behind it and the accesses it made.
-/

namespace Chip8

structure Snapshot (S : Type) where
  /-- Where the instruction stood. -/
  address : Int
  instruction : Instruction
  /-- How many instructions were executed up to this one. -/
  cycle : Nat
  /-- The instruction changed the screen. -/
  drew : Bool
  state : S
  accesses : List Access
deriving DecidableEq, Repr

/-- An address and the instruction at it. -/
def traceText (address : Int) (i : Instruction) : String :=
  Text.Hex.padded 6 address ++ ": " ++ i.text

def Snapshot.trace {S : Type} (s : Snapshot S) : String := traceText s.address s.instruction

end Chip8
