import Chip8.Debugger

/-!
# The smallest processor

A processor whose only register is the program counter. It knows a jump; a call leaves a mark where
it would go, a return fails, and all else does nothing. It fills in no more of the cycle than it has
to, so that it shows what the cycle does on its own.
-/

namespace Chip8

structure Minimal.State where
  pc : Int := 0
deriving DecidableEq, Repr, Inhabited

structure Minimal extends Core Minimal.State where
  /-- Where a reset puts the program counter. -/
  entry : Int := 0
  /-- How far each instruction moves the program counter. -/
  stride : Int := 2

namespace Minimal

instance : HasCore Minimal State where
  core := toCore
  setCore m c := { m with toCore := c }

/-- What a call leaves where it would go. -/
def mark : Int := 0xCC

def execute (i : Instruction) : Action Minimal Unit :=
  match i.opcode with
  | .jump => HasCore.modifyState fun _ => ⟨i.address⟩
  | .call => HasCore.write i.address mark
  | .ret => .fail (.fault (.noStack "toy"))
  | _ => return

instance : Processor Minimal State where
  pc := State.pc
  advance s n := ⟨(s.pc + n) % 0x10000⟩
  register? s name :=
    if (name.string?.map fun t => t.map Char.toLower) = some "pc" then some s.pc else none
  canFetch m := m.state.pc + 1 < m.bus.size
  decode _ w :=
    match Instruction.ofWord? w with
    | some i => .ok i
    | none => .error (.unknownInstruction w none)
  length m _ := m.stride
  execute := execute

def reset : Action Minimal Unit :=
  .modify fun m => { m with state := ⟨m.entry⟩, cycles := 0 }

/-- Registers that someone holds on to: those of the processor itself, as they change, or a copy. -/
inductive Held where
  | live
  | copy (s : State)
deriving DecidableEq, Repr

/-- A debugged processor, and registers held on to. -/
structure Bench where
  session : Session Minimal State
  held : Held

namespace Bench

def onSession {α : Type} (a : Action (Session Minimal State) α) : Action Bench α :=
  a.onPart (·.session) fun b s => { b with session := s }

def onMachine {α : Type} (a : Action Minimal α) : Action Bench α :=
  onSession (Session.onMachine a)

def start (m : Minimal) : Bench := ⟨.start m 1000, .copy m.state⟩

def hold : Action Bench Unit := .modify fun b => { b with held := .live }

/-- The processor is about to get new registers: what is held of the present ones stays as it is. -/
def detach : Action Bench Unit :=
  .modify fun b =>
    match b.held with
    | .live => { b with held := .copy b.session.machine.state }
    | .copy _ => b

/-- Give the processor a copy of the held registers, and answer whether it has the very registers
that are held. -/
def restore : Action Bench Bool := do
  detach
  let b ← .get
  match b.held with
  | .live => return true
  | .copy s =>
    onMachine (HasCore.modifyState fun _ => s)
    return false

def reset : Action Bench Unit := do
  detach
  onMachine Minimal.reset

def stepBack : Action Bench (Option (Snapshot State)) := do
  if (← .gets (·.session.debugger.history)).isEmpty then return none
  else
    detach
    onSession Session.stepBack

end Bench

end Minimal

end Chip8
