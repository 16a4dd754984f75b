import Chip8.Bits
import Chip8.Room

/-!
# The screen

A grid of cells, dark or lit, row after row. A sprite is a list of rows of eight bits, the leftmost
first; it inverts the cells under its set bits. A screen both sides of which are given below zero has
cells too, but no place on it can be looked at, and sprites come upon it from its far end.
-/

namespace Chip8

structure Screen where
  width : Nat := 64
  height : Nat := 32
  /-- The sides were given below zero. -/
  backward : Bool := false
  cells : Vector Bool (width * height) := Vector.replicate (width * height) false
  /-- The screen may have changed since it was last presented. -/
  needsRedraw : Bool := false

namespace Screen

inductive Error where
  | outOfBounds (x y width height : Int)
  /-- No place on a screen without cells. -/
  | noCells
  /-- There is no room for the cells. -/
  | noRoom (e : Room.Error)
  | badFrame (expected got : Nat)
  | badColor
deriving DecidableEq, Repr

def Error.message : Error → String
  | outOfBounds x y width height =>
    "Pixel (" ++ toString x ++ ", " ++ toString y ++ ") out of bounds for " ++ toString width ++
      "x" ++ toString height ++ " framebuffer."
  | noCells => "integer modulo by zero"
  | noRoom e => e.message
  | badFrame expected got =>
    "Frame buffer must be " ++ toString expected ++ " bytes, got " ++ toString got ++ "."
  | badColor => "bytes must be in range(0, 256)"

def blank (width height : Nat) : Screen := { width, height }

/-- A side of a screen, as it was given. -/
def side (s : Screen) (n : Nat) : Int := if s.backward then -n else n

def blank? (width height : Int) : Except Error Screen :=
  ((Room.of? (width * height)).mapError .noRoom).map fun _ =>
    { width := width.natAbs, height := height.natAbs, backward := width < 0 ∨ height < 0 }

def clear (s : Screen) : Screen :=
  { s with cells := Vector.replicate _ false, needsRedraw := true }

def markPresented (s : Screen) : Screen := { s with needsRedraw := false }

/-- Cells outside the screen are dark. -/
def cell (s : Screen) (x y : Nat) : Bool :=
  if x < s.width then s.cells.getD (y * s.width + x) false else false

def pixel (s : Screen) (x y : Int) : Except Error Bool :=
  let width := s.side s.width
  let height := s.side s.height
  if 0 ≤ x ∧ x < width ∧ 0 ≤ y ∧ y < height then .ok (s.cell x.toNat y.toNat)
  else .error (.outOfBounds x y width height)

/-- The cells, row after row. -/
def pixels (s : Screen) : List Bool := s.cells.toList

def row (s : Screen) (y : Nat) : List Bool :=
  (List.range s.width).map fun x => s.cell x y

def rows (s : Screen) : List (List Bool) := (List.range (s.side s.height).toNat).map s.row

def isBlank (s : Screen) : Bool := s.cells.all (!·)

def isLit (s : Screen) (k : Nat) : Bool := s.cells.getD k false

def invert (s : Screen) (k : Nat) : Screen :=
  if h : k < s.width * s.height then { s with cells := s.cells.set k (!s.cells[k]) } else s

/-- The number of the cell at a place. One below zero counts backward from the end of the cells. -/
def number (s : Screen) (px py : Int) : Nat :=
  let k := py * s.side s.width + px
  (if k < 0 then k + s.width * s.height else k).toNat

/-- A distance beyond an edge, brought back. -/
def wrapped (side n : Int) : Int := if side ≤ n then n.fmod side else n

/-- Draw those of the bits of a row that are left, by their distances from the left one. The row ends
with the first set bit beyond the right edge, unless sprites wrap. `hit` tells of a lit cell met
before. -/
def drawBits (s : Screen) (hit : Bool) (left py bits : Int) (wrap : Bool) : List Nat → Screen × Bool
  | [] => (s, hit)
  | b :: rest =>
    if Bits.test bits (7 - b) then
      let px := left + b
      if s.side s.width ≤ px ∧ ¬ wrap then (s, hit)
      else
        let k := s.number (wrapped (s.side s.width) px) py
        (s.invert k).drawBits (hit || s.isLit k) left py bits wrap rest
    else s.drawBits hit left py bits wrap rest

/-- Draw the rows from the one of number `r` on. The sprite ends with the first row beyond the lower
edge, unless sprites wrap. -/
def drawRows (s : Screen) (hit : Bool) (left top : Int) (wrap : Bool) (r : Nat) :
    List Int → Screen × Bool
  | [] => (s, hit)
  | bits :: rest =>
    let py := top + r
    if s.side s.height ≤ py ∧ ¬ wrap then (s, hit)
    else
      let (s, hit) := s.drawBits hit left (wrapped (s.side s.height) py) bits wrap (List.range 8)
      s.drawRows hit left top wrap (r + 1) rest

/-- Draw a sprite with its upper left corner at `(x, y)`, brought back onto the screen. The answer
is whether a lit cell was met. -/
def draw (s : Screen) (x y : Int) (rows : List Int) (wrap : Bool) : Except Error (Screen × Bool) :=
  if s.width = 0 ∨ s.height = 0 then .error .noCells
  else
    let left := x.fmod (s.side s.width)
    let top := y.fmod (s.side s.height)
    let (t, hit) := s.drawRows false left top wrap 0 rows
    .ok ({ t with needsRedraw := true }, hit)

end Screen

end Chip8
