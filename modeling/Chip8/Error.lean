import Chip8.Bus
import Chip8.Fault
import Chip8.Files
import Chip8.Keypad
import Chip8.Screen
import Chip8.Text.Integer

/-!
# Errors

Why an action on a machine was refused. Only a `fault` stops the processor.
-/

namespace Chip8

inductive Error where
  | fault (f : Fault)
  | emptyRom
  | romTooLarge (size : Nat) (capacity : Int)
  | notAWord (word : Int)
  | bus (e : Bus.Error)
  | screen (e : Screen.Error)
  | keypad (e : Keypad.Error)
  | file (e : Files.Error)
  /-- The path of a program is something else than text. -/
  | badPath
  /-- A debugger that may not keep anything was asked to keep an instruction. -/
  | noHistory
  /-- A number is too long to be written. -/
  | unwritten
deriving DecidableEq, Repr

namespace Error

def message : Error → String
  | fault f => f.message
  | emptyRom => "ROM image is empty."
  | romTooLarge size capacity =>
    "ROM of " ++ toString size ++ " bytes does not fit in " ++ toString capacity ++
      " bytes of program memory."
  | notAWord word => "Instruction word " ++ toString word ++ " is not a 16-bit value."
  | bus e => e.message
  | screen e => e.message
  | keypad e => e.message
  | file e => e.message
  | badPath => "The path of a program must be text."
  | noHistory => "pop from an empty deque"
  | unwritten => Text.Integer.unwritten

end Error

/-- The instruction of a word, which may be any number. -/
def Instruction.decode (w : Int) : Except Error Instruction :=
  if 0 ≤ w ∧ w < 0x10000 then
    let word := UInt16.ofNat w.toNat
    match ofWord? word with
    | some i => .ok i
    | none => .error (.fault (.unknownInstruction word none))
  else
    .error (.notAWord w)

end Chip8
