import Chip8.Bits
import Chip8.Entropy
import Chip8.Font
import Chip8.Processor
import Chip8.Rom

/-!
# The machine

A processor with its memory, screen, keypad and source of random numbers. This module has what the
host does to it; `Chip8.Machine.Execute` has what programs do.
-/

namespace Chip8

structure Machine extends Core State where
  screen : Screen := {}
  keypad : Keypad := {}
  dialect : Dialect := {}
  entropy : Entropy := {}
  /-- A program was loaded since the power came on. -/
  loaded : Bool := false

instance : HasCore Machine State where
  core := Machine.toCore
  setCore m c := { m with toCore := c }

namespace Machine

/-- The font in read-only memory, and writable memory above it, 4096 bytes in all. -/
def standardBus : Bus :=
  { devices := [.blank .rom Font.glyphs.length, .blank .ram (0x1000 - Font.stop)]
    placements := [⟨Font.start, 0⟩, ⟨Font.stop, 1⟩] }

def onBus {α : Type} (a : Action Bus α) : Action Machine α :=
  a.onPart (·.bus) fun m b => { m with bus := b }

def modifyState (f : State → State) : Action Machine Unit :=
  .modify fun m => { m with state := f m.state }

def loadFont : Action Machine Unit :=
  onBus ⟨fun b =>
    let (b, r) := Font.loadInto b
    ⟨b, r.mapError .bus, []⟩⟩

/-- A machine as it is switched on, with the font in its memory. -/
def boot (bus : Bus) (screen : Screen) (dialect : Dialect) (entropy : Entropy) :
    Except Error Machine :=
  let o := loadFont.run { bus, state := {}, screen, dialect, entropy }
  o.result.map fun _ => o.state

/-- Registers and screen as in the beginning. The memory keeps the program. -/
def reset : Action Machine Unit :=
  .modify fun m => { m with state := {}, cycles := 0, screen := m.screen.clear }

/-- Switch off and on again. -/
def powerCycle : Action Machine Unit := do
  .modify fun m => { m with bus := m.bus.powerOff }
  loadFont
  .modify fun m => { m with loaded := false }
  reset

def loadRom (data : List UInt8) : Action Machine Nat := do
  let size ← onBus (({} : Loader).load data)
  .modify fun m => { m with loaded := true }
  return size

def loadRomFile (files : Files) (path : Path) : Action Machine Nat := do
  let size ← onBus (({} : Loader).loadFile files path)
  .modify fun m => { m with loaded := true }
  return size

def tickTimers : Action Machine Unit := modifyState State.tickTimers

/-- The host is to give a tone. -/
def sounding (m : Machine) : Bool := 0 < m.state.sound

def onKeypad (f : Keypad → Except Keypad.Error Keypad) : Action Machine Unit :=
  ⟨fun m =>
    match f m.keypad with
    | .ok p => ⟨{ m with keypad := p }, .ok (), []⟩
    | .error e => ⟨m, .error (.keypad e), []⟩⟩

def press (k : Int) : Action Machine Unit := onKeypad (·.press k)

def release (k : Int) : Action Machine Unit := onKeypad (·.release k)

def clearKeys : Action Machine Unit := .modify fun m => { m with keypad := {} }

/-- Draw a sprite on the screen and answer whether it met a lit cell. -/
def drawSprite (x y : Int) (rows : List Int) (wrap : Bool) : Action Machine Bool :=
  ⟨fun m =>
    match m.screen.draw x y rows wrap with
    | .ok (s, hit) => ⟨{ m with screen := s }, .ok hit, []⟩
    | .error e => ⟨m, .error (.screen e), []⟩⟩

def markPresented : Action Machine Unit :=
  .modify fun m => { m with screen := m.screen.markPresented }

end Machine

end Chip8
