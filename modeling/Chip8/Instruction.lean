import Chip8.Opcode
import Chip8.Text.Hex

/-!
# Instructions

An instruction is a word of sixteen bits together with its kind. The operands sit at fixed places
in the word, whatever the kind. `Instruction.ofWord?` finds the kind, if there is one, and
`Instruction.text` writes the instruction as a listing does.
-/

namespace Chip8

abbrev Word := UInt16

namespace Word

/-- The register that `JP V0` names. -/
def v0 : Fin 16 := ⟨0, by decide⟩

/-- Two bytes as one word, the first of them the more significant. -/
def ofBytes (high low : UInt8) : Word :=
  UInt16.ofNat (256 * high.toNat + low.toNat)

def family (w : Word) : Nat := w.toNat / 4096
/-- The register named by the second digit. -/
def x (w : Word) : Fin 16 := ⟨w.toNat / 256 % 16, Nat.mod_lt _ (by decide)⟩
/-- The register named by the third digit. -/
def y (w : Word) : Fin 16 := ⟨w.toNat / 16 % 16, Nat.mod_lt _ (by decide)⟩
/-- The last digit. -/
def nibble (w : Word) : Nat := w.toNat % 16
/-- The last two digits. -/
def byte (w : Word) : Nat := w.toNat % 256
/-- The last three digits. -/
def address (w : Word) : Nat := w.toNat % 4096

def hex (w : Word) : String := Text.Hex.fixed 4 w.toNat

end Word

structure Instruction where
  opcode : Opcode
  word : Word
deriving DecidableEq, Repr

namespace Opcode

/-- The kinds of the family `8`, by the last digit. -/
def ofArithmetic? : Nat → Option Opcode
  | 0x0 => some copy
  | 0x1 => some or
  | 0x2 => some and
  | 0x3 => some xor
  | 0x4 => some add
  | 0x5 => some sub
  | 0x6 => some shiftRight
  | 0x7 => some subFrom
  | 0xE => some shiftLeft
  | _ => none

/-- The kinds of the family `E`, by the last two digits. -/
def ofKeys? : Nat → Option Opcode
  | 0x9E => some skipPressed
  | 0xA1 => some skipReleased
  | _ => none

/-- The kinds of the family `F`, by the last two digits. -/
def ofMisc? : Nat → Option Opcode
  | 0x07 => some readDelay
  | 0x0A => some waitKey
  | 0x15 => some setDelay
  | 0x18 => some setSound
  | 0x1E => some addIndex
  | 0x29 => some glyph
  | 0x33 => some decimal
  | 0x55 => some store
  | 0x65 => some load
  | _ => none

/-- The kind of a word. Every word of the family `0` has one. -/
def ofWord? (w : Word) : Option Opcode :=
  match w.family with
  | 0x0 => some (if w.address = 0x0E0 then cls else if w.address = 0x0EE then ret else sys)
  | 0x1 => some jump
  | 0x2 => some call
  | 0x3 => some skipEqualByte
  | 0x4 => some skipUnequalByte
  | 0x5 => if w.nibble = 0 then some skipEqual else none
  | 0x6 => some loadByte
  | 0x7 => some addByte
  | 0x8 => ofArithmetic? w.nibble
  | 0x9 => if w.nibble = 0 then some skipUnequal else none
  | 0xA => some loadIndex
  | 0xB => some jumpOffset
  | 0xC => some random
  | 0xD => some draw
  | 0xE => ofKeys? w.byte
  | _ => ofMisc? w.byte

end Opcode

/-- An operand as a listing shows it. -/
inductive Operand where
  | register (r : Fin 16)
  | address (a : Nat)
  | byte (b : Nat)
  | nibble (n : Nat)
  | index
  /-- The memory at the index. -/
  | atIndex
  | delay
  | sound
  | key
  /-- The glyph of a digit. -/
  | font
  /-- The decimal digits. -/
  | digits
deriving DecidableEq, Repr

def Operand.text : Operand → String
  | register r => "V" ++ Text.Hex.fixed 1 r
  | address a => "$" ++ Text.Hex.fixed 3 a
  | byte b => "#$" ++ Text.Hex.fixed 2 b
  | nibble n => "#" ++ Text.Hex.fixed 1 n
  | index => "I"
  | atIndex => "[I]"
  | delay => "DT"
  | sound => "ST"
  | key => "K"
  | font => "F"
  | digits => "B"

namespace Instruction

def ofWord? (w : Word) : Option Instruction :=
  (Opcode.ofWord? w).map fun op => ⟨op, w⟩

def x (i : Instruction) : Fin 16 := i.word.x
def y (i : Instruction) : Fin 16 := i.word.y
def nibble (i : Instruction) : Nat := i.word.nibble
def byte (i : Instruction) : Nat := i.word.byte
def address (i : Instruction) : Nat := i.word.address

/-- Every instruction takes two bytes. -/
def length (_ : Instruction) : Nat := 2

def operands (i : Instruction) : List Operand :=
  match i.opcode with
  | .cls | .ret => []
  | .sys | .jump | .call => [.address i.address]
  | .skipEqualByte | .skipUnequalByte | .loadByte | .addByte | .random =>
    [.register i.x, .byte i.byte]
  | .skipEqual | .skipUnequal | .copy | .or | .and | .xor | .add | .sub | .shiftRight | .subFrom
  | .shiftLeft => [.register i.x, .register i.y]
  | .loadIndex => [.index, .address i.address]
  | .jumpOffset => [.register Word.v0, .address i.address]
  | .draw => [.register i.x, .register i.y, .nibble i.nibble]
  | .skipPressed | .skipReleased => [.register i.x]
  | .readDelay => [.register i.x, .delay]
  | .waitKey => [.register i.x, .key]
  | .setDelay => [.delay, .register i.x]
  | .setSound => [.sound, .register i.x]
  | .addIndex => [.index, .register i.x]
  | .glyph => [.font, .register i.x]
  | .decimal => [.digits, .register i.x]
  | .store => [.atIndex, .register i.x]
  | .load => [.register i.x, .atIndex]

/-- The mnemonic, and after a blank the operands with commas between them. -/
def text (i : Instruction) : String :=
  match i.operands with
  | [] => i.opcode.mnemonic
  | ops => i.opcode.mnemonic ++ " " ++ ", ".intercalate (ops.map Operand.text)

/-- Whether the instruction changes the screen. -/
def draws (i : Instruction) : Bool :=
  i.opcode = .cls || i.opcode = .draw

theorem word_ofWord? {w : Word} {i : Instruction} (h : ofWord? w = some i) : i.word = w := by
  simp only [ofWord?, Option.map_eq_some_iff] at h
  obtain ⟨op, _, rfl⟩ := h
  rfl

end Instruction

end Chip8
