import Chip8.Dialect
import Chip8.Fault
import Chip8.Text.Integer

/-!
# Notices

What an action reports besides its answer. Each notice has a level, by which readers choose what
they want to see, and a text.
-/

namespace Chip8

inductive Level where
  | debug
  | info
  | warning
  | error
deriving DecidableEq, Repr

namespace Level

def rank : Level → Nat
  | debug => 0
  | info => 1
  | warning => 2
  | error => 3

def text : Level → String
  | debug => "DEBUG"
  | info => "INFO"
  | warning => "WARNING"
  | error => "ERROR"

def ofText? : String → Option Level
  | "DEBUG" => some debug
  | "INFO" => some info
  | "WARNING" => some warning
  | "ERROR" => some error
  | _ => none

end Level

inductive Notice where
  /-- A program wrote to a place within a read-only device. -/
  | ignoredWrite (data offset : Int)
  | readingRom (path : Text)
  | loaded (size : Nat) (start : Int)
  /-- The instruction at the address failed. -/
  | failed (pc : Int) (fault : Fault)
  | executed (trace : String)
  /-- A run stopped before the instruction at the address. -/
  | stoppedAt (pc : Int)
  /-- A run stopped for what an instruction did, and would go on at the address. -/
  | stoppedAfter (pc : Int)
  | stoppedByFault (steps : Nat)
  | configured (path : Text)
  | built (cpuHz timerHz : Int) (dialect : Dialect)
deriving DecidableEq, Repr

namespace Notice

open Text (Hex.padded)

def level : Notice → Level
  | ignoredWrite .. => .warning
  | failed .. => .error
  | executed .. | built .. => .debug
  | readingRom .. | loaded .. | stoppedAt .. | stoppedAfter .. | stoppedByFault .. | configured .. =>
    .info

def message : Notice → Text
  | ignoredWrite data offset =>
    "Ignored write of " ++ Hex.padded 4 data ++ " to read-only offset " ++ Hex.padded 5 offset ++ "."
  | readingRom path => "Reading ROM image " ++ path ++ "."
  | loaded size start =>
    "Loaded " ++ toString size ++ " bytes at " ++ Hex.padded 5 start ++ "."
  | failed pc fault => "Fatal error at PC=" ++ Hex.padded 6 pc ++ ": " ++ fault.message
  | executed trace => trace
  | stoppedAt pc => "Breakpoint hit at PC: " ++ Hex.padded 6 pc
  | stoppedAfter pc => "Breakpoint hit after instruction, PC: " ++ Hex.padded 6 pc
  | stoppedByFault steps =>
    "Execution stopped by fatal error after " ++ toString steps ++ " steps."
  | configured path => "Loaded system config from " ++ path ++ "."
  | built cpuHz timerHz dialect =>
    "Built CHIP-8 system (cpu_hz=" ++ toString cpuHz ++ ", timer_hz=" ++ toString timerHz ++
      ", quirks=" ++ dialect.text ++ ")."

/-- None of the numbers in the text is too long to be written. -/
def isWritable : Notice → Bool
  | built cpuHz timerHz dialect =>
    [cpuHz, timerHz, dialect.stackDepth].all fun n => (Text.Integer.decimal? n).isSome
  | _ => true

/-- A reader of a level sees the notices of that level and above. -/
def isSeen (least : Level) (n : Notice) : Bool := least.rank ≤ n.level.rank

/-- The notices that a reader of a level sees, each with its own level in front. -/
def lines (least : Level) (notices : List Notice) : List Text :=
  (notices.filter (isSeen least)).map fun n => n.level.text ++ " " ++ n.message

end Notice

end Chip8
