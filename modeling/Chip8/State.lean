/-!
# Registers

The registers of the processor. A program keeps the general registers and the timers within a byte
and the index within twelve bits; the host may put any number into any of them.
-/

namespace Chip8

/-- Where programs begin. -/
def programStart : Nat := 0x200

structure State where
  pc : Int := programStart
  index : Int := 0
  v : Vector Int 16 := Vector.replicate 16 0
  /-- Return addresses, the latest first. -/
  stack : List Int := []
  delay : Int := 0
  sound : Int := 0
  /-- Stopped by a fault. -/
  halted : Bool := false
  waitingForKey : Bool := false
deriving DecidableEq, Repr, Inhabited

namespace State

def reg (s : State) (x : Fin 16) : Int := s.v.get x

def setReg (s : State) (x : Fin 16) (value : Int) : State := { s with v := s.v.setIfInBounds x value }

/-- The register that carries, borrows and collisions are noted in. -/
def flag (s : State) : Int := s.reg 15

def setFlag (s : State) (value : Int) : State := s.setReg 15 (value % 256)

/-- How many return addresses there are. -/
def depth (s : State) : Nat := s.stack.length

/-- Move the program counter on, around the end of its sixteen bits. -/
def advance (s : State) (n : Int) : State := { s with pc := (s.pc + n) % 0x10000 }

/-- Where the instruction before the program counter stands. -/
def lastPc (s : State) : Int := (s.pc - 2) % 0x10000

/-- The address at a distance from the index, around the end of the memory. -/
def indexed (s : State) (offset : Nat) : Int := (s.index + offset) % 0x1000

/-- One beat of the sixty in a second: timers that run count down. -/
def tickTimers (s : State) : State :=
  { s with
    delay := if 0 < s.delay then s.delay - 1 else s.delay
    sound := if 0 < s.sound then s.sound - 1 else s.sound }

end State

end Chip8
