import Chip8.Instruction

/-!
# Faults

What makes a processor give up on its program.
-/

namespace Chip8

inductive Fault where
  /-- The word at the program counter does not lie within the memory. -/
  | fetchOutOfBounds (pc : Int)
  /-- The word is no instruction, or one that the dialect forbids. The address is that of the
  word, where it was fetched from one. -/
  | unknownInstruction (word : Word) (pc : Option Int)
  /-- A return at the address, with nothing to return to. -/
  | stackUnderflow (pc : Int)
  /-- A return on a processor, by its name, that has no call stack at all. -/
  | noStack (processor : String)
  | stackOverflow (target : Nat) (depth : Int)
  | notLoaded
  | halted
deriving DecidableEq, Repr

namespace Fault

open Text (Hex.padded)

def message : Fault → String
  | fetchOutOfBounds pc => "Instruction fetch out of bounds at PC=" ++ Hex.padded 6 pc ++ "."
  | unknownInstruction word none =>
    "Unknown instruction word " ++ Hex.padded 6 word.toNat ++ "."
  | unknownInstruction word (some pc) =>
    "Unknown instruction word " ++ Hex.padded 6 word.toNat ++ " at PC=" ++ Hex.padded 6 pc ++ "."
  | stackUnderflow pc => "RET with empty call stack at PC=" ++ Hex.padded 6 pc ++ "."
  | noStack processor => processor
  | stackOverflow target depth =>
    "CALL " ++ Hex.padded 5 target ++ " exceeds call stack depth " ++ toString depth ++ "."
  | notLoaded => "No ROM has been loaded; load a program before executing."
  | halted => "CPU is halted after a fatal error; reset before executing again."

end Fault

end Chip8
