/-!
# The kinds of instruction

Thirty-five kinds, each with the name and the bit pattern it goes by. In a pattern a capital letter
other than a hexadecimal digit stands for an operand: `X` and `Y` for a register, `N` for a digit
of a number.
-/

namespace Chip8

inductive Opcode where
  /-- Call a routine in the host's own machine code. -/
  | sys
  | cls
  | ret
  | jump
  | call
  | skipEqualByte
  | skipUnequalByte
  | skipEqual
  | loadByte
  | addByte
  | copy
  | or
  | and
  | xor
  | add
  | sub
  | shiftRight
  /-- Subtract the other way round. -/
  | subFrom
  | shiftLeft
  | skipUnequal
  | loadIndex
  | jumpOffset
  | random
  | draw
  | skipPressed
  | skipReleased
  | readDelay
  | waitKey
  | setDelay
  | setSound
  | addIndex
  /-- Point the index at the glyph of a digit. -/
  | glyph
  /-- Store the three decimal digits of a register. -/
  | decimal
  /-- Store the registers up to one of them. -/
  | store
  /-- Load the registers up to one of them. -/
  | load
deriving DecidableEq, Repr, Inhabited

namespace Opcode

/-- The name by which records of a run call the kind. -/
def name : Opcode → String
  | sys => "SYS"
  | cls => "CLS"
  | ret => "RET"
  | jump => "JP"
  | call => "CALL"
  | skipEqualByte => "SE_VX_NN"
  | skipUnequalByte => "SNE_VX_NN"
  | skipEqual => "SE_VX_VY"
  | loadByte => "LD_VX_NN"
  | addByte => "ADD_VX_NN"
  | copy => "LD_VX_VY"
  | or => "OR"
  | and => "AND"
  | xor => "XOR"
  | add => "ADD_VX_VY"
  | sub => "SUB_VX_VY"
  | shiftRight => "SHR"
  | subFrom => "SUBN"
  | shiftLeft => "SHL"
  | skipUnequal => "SNE_VX_VY"
  | loadIndex => "LD_I"
  | jumpOffset => "JP_V0"
  | random => "RND"
  | draw => "DRW"
  | skipPressed => "SKP"
  | skipReleased => "SKNP"
  | readDelay => "LD_VX_DT"
  | waitKey => "LD_VX_K"
  | setDelay => "LD_DT_VX"
  | setSound => "LD_ST_VX"
  | addIndex => "ADD_I_VX"
  | glyph => "LD_F_VX"
  | decimal => "LD_B_VX"
  | store => "LD_MEM_VX"
  | load => "LD_VX_MEM"

def pattern : Opcode → String
  | sys => "0NNN"
  | cls => "00E0"
  | ret => "00EE"
  | jump => "1NNN"
  | call => "2NNN"
  | skipEqualByte => "3XNN"
  | skipUnequalByte => "4XNN"
  | skipEqual => "5XY0"
  | loadByte => "6XNN"
  | addByte => "7XNN"
  | copy => "8XY0"
  | or => "8XY1"
  | and => "8XY2"
  | xor => "8XY3"
  | add => "8XY4"
  | sub => "8XY5"
  | shiftRight => "8XY6"
  | subFrom => "8XY7"
  | shiftLeft => "8XYE"
  | skipUnequal => "9XY0"
  | loadIndex => "ANNN"
  | jumpOffset => "BNNN"
  | random => "CXNN"
  | draw => "DXYN"
  | skipPressed => "EX9E"
  | skipReleased => "EXA1"
  | readDelay => "FX07"
  | waitKey => "FX0A"
  | setDelay => "FX15"
  | setSound => "FX18"
  | addIndex => "FX1E"
  | glyph => "FX29"
  | decimal => "FX33"
  | store => "FX55"
  | load => "FX65"

/-- The word that a listing puts before the operands. Several kinds share one. -/
def mnemonic : Opcode → String
  | sys => "SYS"
  | cls => "CLS"
  | ret => "RET"
  | jump | jumpOffset => "JP"
  | call => "CALL"
  | skipEqualByte | skipEqual => "SE"
  | skipUnequalByte | skipUnequal => "SNE"
  | loadByte | copy | loadIndex | readDelay | waitKey | setDelay | setSound | glyph | decimal
  | store | load => "LD"
  | addByte | add | addIndex => "ADD"
  | or => "OR"
  | and => "AND"
  | xor => "XOR"
  | sub => "SUB"
  | shiftRight => "SHR"
  | subFrom => "SUBN"
  | shiftLeft => "SHL"
  | random => "RND"
  | draw => "DRW"
  | skipPressed => "SKP"
  | skipReleased => "SKNP"

end Opcode

end Chip8
