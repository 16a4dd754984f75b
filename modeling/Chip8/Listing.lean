import Chip8.Bus
import Chip8.Instruction

/-!
# Listings

The words in a range of memory, two bytes after two bytes, each as an instruction or, where it is
none, as plain data.
-/

namespace Chip8

structure Listing.Line where
  address : Int
  word : Word
deriving DecidableEq, Repr

namespace Listing

def Line.text (l : Line) : String :=
  match Instruction.ofWord? l.word with
  | some i => i.text
  | none => "DW $" ++ l.word.hex

/-- The line at an address. -/
def line (b : Bus) (a : Int) : Except Bus.Error Line := do
  let high ← b.peek a
  let low ← b.peek (a + 1)
  return ⟨a, .ofBytes high low⟩

/-- The lines from an address on, as long as a whole word lies before the stop. -/
def linesUpTo (b : Bus) (stop a : Int) : Except Bus.Error (List Line) :=
  if a + 1 < stop then do
    let l ← line b a
    let rest ← linesUpTo b stop (a + 2)
    return l :: rest
  else return []
termination_by (stop - a).toNat

/-- The whole words that begin in `length` bytes from `start` on and end within the memory. -/
def ofRange (b : Bus) (start length : Int) : Except Bus.Error (List Line) :=
  linesUpTo b (min (start + length) b.size) start

end Listing

end Chip8
