import Chip8.Dialect
import Chip8.Document

/-!
# Configurations

The rates at which a machine runs, its dialect, its display, the host's names for its keys, and the
program to start with.
-/

namespace Chip8

structure Display where
  onColor : Text := "#E0E0E0"
  offColor : Text := "#101010"
  scale : Int := 10
deriving DecidableEq, Repr

namespace Config

/-- The left of a keyboard, in rows of four, laid over the rows of the keypad. -/
def defaultKeys : List (Text × Int) :=
  [("1", 0x1), ("2", 0x2), ("3", 0x3), ("4", 0xC),
   ("Q", 0x4), ("W", 0x5), ("E", 0x6), ("R", 0xD),
   ("A", 0x7), ("S", 0x8), ("D", 0x9), ("F", 0xE),
   ("Z", 0xA), ("X", 0x0), ("C", 0xB), ("V", 0xF)]

end Config

structure Config where
  cpuHz : Int := 700
  timerHz : Int := 60
  dialect : Dialect := {}
  display : Display := {}
  /-- The key of each name, in the order in which the names were first given. -/
  keys : List (Text × Int) := Config.defaultKeys
  /-- The program to start with: a path, no value, or whatever else was given. -/
  rom : Document := {}

end Chip8
