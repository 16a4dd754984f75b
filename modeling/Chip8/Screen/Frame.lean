import Chip8.Action
import Chip8.Screen.Color

/-!
# Frames

A frame is the host's: a row of bytes, four for each cell of a screen. `Screen.render` paints a screen
into it in place.
-/

namespace Chip8.Screen

/-- How many bytes show one cell. -/
def bytesPerCell : Nat := 4

/-- A frame with a color in the place of the bytes of its cell `k`. A color of other than four bytes
moves the bytes behind it. -/
def paintCell (color : List UInt8) (k : Nat) (frame : List UInt8) : List UInt8 :=
  frame.take (bytesPerCell * k) ++ color ++ frame.drop (bytesPerCell * (k + 1))

/-- A frame with cells painted over it one by one, the first of them at the cell `k`. -/
def paint (on off : List UInt8) (k : Nat) : List Bool → List UInt8 → List UInt8
  | [], frame => frame
  | lit :: rest, frame => paint on off (k + 1) rest (paintCell (if lit then on else off) k frame)

/-- Paint the screen into the frame, lit cells in one color and dark ones in another. -/
def render (s : Screen) (on off : List Int) : Action (List UInt8) Unit := do
  let frame ← .get
  let expected := s.width * s.height * bytesPerCell
  if frame.length ≠ expected then .fail (.screen (.badFrame expected frame.length))
  else
    match Color.bytes? on, Color.bytes? off with
    | some on, some off => .modify (paint on off 0 s.pixels)
    | _, _ => .fail (.screen .badColor)

end Chip8.Screen
