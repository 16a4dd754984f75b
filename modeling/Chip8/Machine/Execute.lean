import Chip8.Machine.Basic
import Chip8.State.Arithmetic

/-!
# What instructions do

`Machine.execute` carries out an instruction whose word the program counter has already passed.
-/

namespace Chip8.Machine

/-- Step over the next instruction. -/
def skipIf (condition : Bool) : Action Machine Unit :=
  modifyState fun s => if condition then s.advance 2 else s

/-- Write numbers to memory from the index on. -/
def writeBlock (s : State) : Nat → List Int → Action Machine Unit
  | _, [] => return
  | offset, n :: rest => do
    HasCore.write (s.indexed offset) n
    writeBlock s (offset + 1) rest

/-- Load registers from memory at the index, each at the distance of its number. -/
def loadBlock (s : State) : List (Fin 16) → Action Machine Unit
  | [] => return
  | x :: rest => do
    let v ← HasCore.read (s.indexed x)
    modifyState (·.setReg x v.toNat)
    loadBlock s rest

/-- Read a sprite at the index. -/
def readSprite (s : State) : Nat → Nat → Action Machine (List Int)
  | _, 0 => return []
  | offset, n + 1 => do
    let v ← HasCore.read (s.indexed offset)
    let rest ← readSprite s (offset + 1) n
    return v.toNat :: rest

/-- The registers up to one of them. -/
def upTo (x : Fin 16) : List (Fin 16) := (List.finRange 16).filter (· ≤ x)

/-- A block transfer up to a register may leave the index behind the block. -/
def endBlock (x : Fin 16) : Action Machine Unit :=
  .modify fun m =>
    if m.dialect.loadStoreIncrementsI then
      { m with state := { m.state with index := m.state.indexed (x + 1) } }
    else m

def call (target : Nat) : Action Machine Unit := do
  let m ← .get
  let s := m.state
  if m.dialect.stackDepth ≤ s.depth then
    .fail (.fault (.stackOverflow target m.dialect.stackDepth))
  else
    modifyState fun s => { s with stack := s.pc :: s.stack, pc := target }

def ret : Action Machine Unit := do
  let s ← .gets (·.state)
  match s.stack with
  | [] => .fail (.fault (.stackUnderflow s.lastPc))
  | a :: rest => modifyState fun s => { s with stack := rest, pc := a }

/-- Draw at the place that two registers held before the flag is cleared. -/
def draw (x y : Fin 16) (height : Nat) : Action Machine Unit := do
  let m ← .get
  let s := m.state
  let rows ← readSprite s 0 height
  modifyState (·.setFlag 0)
  let hit ← drawSprite (s.reg x) (s.reg y) rows m.dialect.spriteWrap
  if hit then modifyState (·.setFlag 1)

/-- Wait by coming back to the instruction until a key is down. -/
def waitKey (x : Fin 16) : Action Machine Unit := do
  match (← .gets (·.keypad)).first? with
  | none => modifyState fun s => { s with waitingForKey := true, pc := s.lastPc }
  | some k => modifyState fun s => { s with waitingForKey := false }.setReg x k

def random (x : Fin 16) (mask : Nat) : Action Machine Unit :=
  .modify fun m =>
    let (n, entropy) := m.entropy.draw 256
    { m with entropy, state := m.state.setReg x (Bits.and n mask) }

/-- The key of the last digit of a number. -/
def key (n : Int) : Fin 16 := ⟨(n % 16).toNat, by omega⟩

def execute (i : Instruction) : Action Machine Unit := do
  let m ← .get
  let d := m.dialect
  let s := m.state
  let x := i.x
  let y := i.y
  match i.opcode with
  | .sys => if d.sysIsFatal then .fail (.fault (.unknownInstruction i.word (some s.lastPc)))
  | .cls => .modify fun m => { m with screen := m.screen.clear }
  | .ret => ret
  | .jump => modifyState fun s => { s with pc := i.address }
  | .call => call i.address
  | .skipEqualByte => skipIf (s.reg x = i.byte)
  | .skipUnequalByte => skipIf (s.reg x ≠ i.byte)
  | .skipEqual => skipIf (s.reg x = s.reg y)
  | .loadByte => modifyState (·.setReg x i.byte)
  | .addByte => modifyState (·.addByte x i.byte)
  | .copy => modifyState fun s => s.setReg x (s.reg y)
  | .or => modifyState (State.or d · x y)
  | .and => modifyState (State.and d · x y)
  | .xor => modifyState (State.xor d · x y)
  | .add => modifyState (·.add x y)
  | .sub => modifyState (·.sub x y)
  | .shiftRight => modifyState (State.shiftRight d · x y)
  | .subFrom => modifyState (·.subFrom x y)
  | .shiftLeft => modifyState (State.shiftLeft d · x y)
  | .skipUnequal => skipIf (s.reg x ≠ s.reg y)
  | .loadIndex => modifyState fun s => { s with index := i.address }
  | .jumpOffset =>
    let offset := s.reg (if d.jumpUsesVx then x else Word.v0)
    modifyState fun s => { s with pc := (i.address + offset) % 0x10000 }
  | .random => random x i.byte
  | .draw => draw x y i.nibble
  | .skipPressed => skipIf (m.keypad.isDown (key (s.reg x)))
  | .skipReleased => skipIf (!m.keypad.isDown (key (s.reg x)))
  | .readDelay => modifyState fun s => s.setReg x s.delay
  | .waitKey => waitKey x
  | .setDelay => modifyState fun s => { s with delay := s.reg x }
  | .setSound => modifyState fun s => { s with sound := s.reg x }
  | .addIndex => modifyState fun s => { s with index := (s.index + s.reg x) % 0x1000 }
  | .glyph => modifyState fun s => { s with index := Font.address (s.reg x) }
  | .decimal => writeBlock s 0 (State.decimalDigits (s.reg x))
  | .store => do
    writeBlock s 0 ((upTo x).map s.reg)
    endBlock x
  | .load => do
    loadBlock s (upTo x)
    endBlock x

/-- Carry out a word that was not fetched. -/
def executeWord (word : Int) : Action Machine Unit := do
  let i ← .lift (Instruction.decode word)
  execute i

end Chip8.Machine
