import Chip8.Config.Basic
import Chip8.Machine.Cycle

/-!
# Machines from configurations
-/

namespace Chip8.Machine

/-- Load the program that a configuration names, if it names one. -/
def loadConfigured (c : Config) (files : Files) : Action Machine Unit :=
  if c.rom.isEmpty c.rom.root then return
  else
    match c.rom.root with
    | .text path => do
      let _ ← loadRomFile files (.ofText path)
    | _ => .fail .badPath

/-- A machine of the standard layout as a configuration wants it, and the notices of its making for a
reader of a level. There is no machine if that reader has to see a notice that cannot be written. -/
def build (c : Config) (files : Files) (entropy : Entropy) (least : Level) :
    Except Error (Machine × List Notice) := do
  let m ← boot standardBus {} c.dialect entropy
  let o := (loadConfigured c files).run m
  let _ ← o.result
  let last : Notice := .built c.cpuHz c.timerHz c.dialect
  if last.isSeen least && !last.isWritable then throw .unwritten
  return (o.state, o.notices ++ [last])

end Chip8.Machine
