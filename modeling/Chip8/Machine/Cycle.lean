import Chip8.Machine.Execute
import Chip8.Text.Upper

/-!
# The machine as a processor

A machine goes on only with a program loaded and not halted, and every fault halts it.
-/

namespace Chip8

namespace State

/-- The register of a name, in capital or small letters. The general registers are `V0` to `VF`,
where a line break may follow. -/
def register? (s : State) (name : Text) : Option Int :=
  match general? name.readable with
  | some x => some (s.reg x)
  | none =>
    match name.upper.string? with
    | some "DT" => some s.delay
    | some "ST" => some s.sound
    | _ =>
      match name.string?.map fun t => t.map Char.toLower with
      | some "pc" => some s.pc
      | some "i" => some s.index
      | some "sp" => some s.depth
      | some "delay_timer" => some s.delay
      | some "sound_timer" => some s.sound
      | _ => none
where
  /-- The number of a general register. -/
  general? : List Char → Option (Fin 16)
    | [v, d] | [v, d, '\n'] => if v = 'V' ∨ v = 'v' then digit? d else none
    | _ => none
  digit? (c : Char) : Option (Fin 16) :=
    ((List.finRange 16).find? fun k => Text.Hex.capital k = c.toUpper)

end State

namespace Machine

def refusal? (m : Machine) : Option Fault :=
  if !m.loaded then some .notLoaded
  else if m.state.halted then some .halted
  else none

/-- Both bytes of the word at the program counter lie below the end of the memory. -/
def canFetch (m : Machine) : Bool :=
  0 ≤ m.state.pc && m.state.pc + 1 < m.bus.size

def decode (m : Machine) (w : Word) : Except Fault Instruction :=
  match Instruction.ofWord? w with
  | some i => .ok i
  | none => .error (.unknownInstruction w (some m.state.pc))

instance : Processor Machine State where
  pc := State.pc
  advance := State.advance
  register? := State.register?
  refusal? := refusal?
  canFetch := canFetch
  decode := decode
  execute := execute
  halt s := { s with halted := true }
  draws := Instruction.draws

def step : Action Machine (Snapshot State) := Processor.step

/-- The registers by name, in the order in which they are shown. -/
def registers (m : Machine) : List (String × Int) :=
  ((List.finRange 16).map fun x => ((Operand.register x).text, m.state.reg x)) ++
    [("I", m.state.index), ("PC", m.state.pc), ("SP", m.state.depth), ("DT", m.state.delay),
      ("ST", m.state.sound)]

/-- The groups in which registers are shown, with the width of each in bits. -/
def layout : List (String × List (String × Nat)) :=
  [("General", (List.finRange 16).map fun x => ((Operand.register x).text, 8)),
    ("Pointers", [("I", 16), ("PC", 16), ("SP", 8)]),
    ("Timers", [("DT", 8), ("ST", 8)])]

end Machine

end Chip8
