import Chip8.Bus

/-!
# The font

Sixteen glyphs of five rows, one for each hexadecimal digit, at the bottom of the memory. The upper
half of a byte is a row of four dots.
-/

namespace Chip8.Font

def start : Nat := 0

def glyphHeight : Nat := 5

def glyphs : List UInt8 :=
  [0xF0, 0x90, 0x90, 0x90, 0xF0,
   0x20, 0x60, 0x20, 0x20, 0x70,
   0xF0, 0x10, 0xF0, 0x80, 0xF0,
   0xF0, 0x10, 0xF0, 0x10, 0xF0,
   0x90, 0x90, 0xF0, 0x10, 0x10,
   0xF0, 0x80, 0xF0, 0x10, 0xF0,
   0xF0, 0x80, 0xF0, 0x90, 0xF0,
   0xF0, 0x10, 0x20, 0x40, 0x40,
   0xF0, 0x90, 0xF0, 0x90, 0xF0,
   0xF0, 0x90, 0xF0, 0x10, 0xF0,
   0xF0, 0x90, 0xF0, 0x90, 0x90,
   0xE0, 0x90, 0xE0, 0x90, 0xE0,
   0xF0, 0x80, 0x80, 0x80, 0xF0,
   0xE0, 0x90, 0x90, 0x90, 0xE0,
   0xF0, 0x80, 0xF0, 0x80, 0xF0,
   0xF0, 0x80, 0xF0, 0x80, 0x80]

theorem length_glyphs : glyphs.length = 16 * glyphHeight := rfl

/-- The first address behind the font. -/
def stop : Nat := start + glyphs.length

/-- Where the glyph of the last hexadecimal digit of a number begins. -/
def address (digit : Int) : Int := start + glyphHeight * (digit % 16)

def loadInto (b : Bus) : Bus × Except Bus.Error Unit := b.loadAll start glyphs

end Chip8.Font
