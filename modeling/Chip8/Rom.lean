import Chip8.Action
import Chip8.State

/-!
# Programs

A program is a plain row of bytes that is copied into the memory as it is. A loader knows where the
copy begins and how many bytes there is room for.
-/

namespace Chip8

structure Loader where
  start : Int := programStart
  capacity : Int := 0x1000 - programStart
deriving DecidableEq, Repr, Inhabited

namespace Loader

def check (l : Loader) (data : List UInt8) : Except Error Unit :=
  if data.isEmpty then .error .emptyRom
  else if l.capacity < data.length then .error (.romTooLarge data.length l.capacity)
  else .ok ()

/-- Copy a program into the memory and answer its size. -/
def load (l : Loader) (data : List UInt8) : Action Bus Nat := do
  .lift (l.check data)
  ⟨fun b =>
    let (b, r) := b.loadAll l.start data
    ⟨b, r.mapError .bus, []⟩⟩
  .report (.loaded data.length l.start)
  return data.length

/-- Load the program in a file. -/
def loadFile (l : Loader) (files : Files) (path : Path) : Action Bus Nat := do
  let data ← .lift ((files.read path).mapError .file)
  .report (.readingRom path.toText)
  l.load data

end Loader

end Chip8
