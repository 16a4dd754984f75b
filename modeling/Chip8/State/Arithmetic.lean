import Chip8.Bits
import Chip8.Dialect
import Chip8.State

/-!
# Arithmetic on registers

The operations wrap around at 256. A flag is taken from the numbers before that and is written
last, so that it is the flag that stays where the result goes into the flag register.
-/

namespace Chip8.State

def addByte (s : State) (x : Fin 16) (n : Nat) : State :=
  s.setReg x ((s.reg x + n) % 256)

def endLogic (d : Dialect) (s : State) : State :=
  if d.logicResetsVf then s.setFlag 0 else s

def or (d : Dialect) (s : State) (x y : Fin 16) : State :=
  endLogic d (s.setReg x (Bits.or (s.reg x) (s.reg y)))

def and (d : Dialect) (s : State) (x y : Fin 16) : State :=
  endLogic d (s.setReg x (Bits.and (s.reg x) (s.reg y)))

def xor (d : Dialect) (s : State) (x y : Fin 16) : State :=
  endLogic d (s.setReg x (Bits.xor (s.reg x) (s.reg y)))

/-- The flag is the carry. -/
def add (s : State) (x y : Fin 16) : State :=
  let total := s.reg x + s.reg y
  (s.setReg x (total % 256)).setFlag (if 255 < total then 1 else 0)

/-- The flag says that nothing was borrowed. -/
def sub (s : State) (x y : Fin 16) : State :=
  let a := s.reg x
  let b := s.reg y
  (s.setReg x ((a - b) % 256)).setFlag (if b ≤ a then 1 else 0)

def subFrom (s : State) (x y : Fin 16) : State :=
  let a := s.reg x
  let b := s.reg y
  (s.setReg x ((b - a) % 256)).setFlag (if a ≤ b then 1 else 0)

/-- The register that a shift takes its number from. -/
def shiftSource (d : Dialect) (x y : Fin 16) : Fin 16 :=
  if d.shiftUsesVy then y else x

/-- The flag is the bit that falls out. -/
def shiftRight (d : Dialect) (s : State) (x y : Fin 16) : State :=
  let source := s.reg (shiftSource d x y)
  (s.setReg x (source / 2)).setFlag (source % 2)

def shiftLeft (d : Dialect) (s : State) (x y : Fin 16) : State :=
  let source := s.reg (shiftSource d x y)
  (s.setReg x (source * 2 % 256)).setFlag (source / 128 % 2)

/-- The hundreds, tens and ones of a number. -/
def decimalDigits (n : Int) : List Int := [n / 100, n / 10 % 10, n % 10]

end Chip8.State
