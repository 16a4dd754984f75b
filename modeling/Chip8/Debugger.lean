import Chip8.Breakpoint

/-!
# The debugger

A debugger drives a processor one instruction at a time or until a breakpoint is met. It keeps the
latest instructions, up to a limit, and can take them back: `stepBack` puts the bytes that an
instruction overwrote back into place and the registers back to where they were. The screen stays.
-/

namespace Chip8

structure Debugger (S : Type) where
  breakpoints : List Breakpoint := []
  running : Bool := false
  /-- The registers before the latest step. -/
  before : S
  last : Option (Snapshot S) := none
  /-- The kept instructions, the latest first. -/
  history : List (Snapshot S) := []
  limit : Int := 1000
  /-- The registers to which taking everything back leads. -/
  base : S
deriving DecidableEq, Repr

/-- A debugger and the processor that it drives. -/
structure Session (M S : Type) where
  machine : M
  debugger : Debugger S

namespace Debugger

variable {S : Type}

def start (s : S) (limit : Int) : Debugger S := { before := s, base := s, limit }

def addBreakpoint (d : Debugger S) (b : Breakpoint) : Debugger S :=
  if b ∈ d.breakpoints then d else { d with breakpoints := d.breakpoints ++ [b] }

/-- Put a breakpoint in the place of the first that equals another. -/
def updateBreakpoint (d : Debugger S) (old new : Breakpoint) : Debugger S :=
  { d with breakpoints := d.breakpoints.replace old new }

def removeBreakpoint (d : Debugger S) (b : Breakpoint) : Debugger S :=
  { d with breakpoints := d.breakpoints.erase b }

def stop (d : Debugger S) : Debugger S := { d with running := false }

/-- Keep an instruction, and forget the oldest beyond the limit. Taking everything back then leads
to the registers behind the latest forgotten one. -/
def keep (d : Debugger S) (s : Snapshot S) : Debugger S :=
  let kept := s :: d.history
  { d with
    last := some s
    history := kept.take d.limit.toNat
    base := (kept[d.limit.toNat]?.map (·.state)).getD d.base }

def stopsAt (d : Debugger S) (pc : Int) : Bool := d.breakpoints.any (·.stopsAt pc)

def stopsAfter {M : Type} [Processor M S] (d : Debugger S) (s : Snapshot S) : Bool :=
  d.breakpoints.any fun b => b.stopsAfter (M := M) s d.before

end Debugger

namespace Session

variable {M S : Type} [Processor M S]

open HasCore

def start (m : M) (limit : Int) : Session M S := ⟨m, .start (state m) limit⟩

def onMachine {α : Type} (a : Action M α) : Action (Session M S) α :=
  a.onPart (·.machine) fun s m => { s with machine := m }

def modifyDebugger (f : Debugger S → Debugger S) : Action (Session M S) Unit :=
  .modify fun s => { s with debugger := f s.debugger }

/-- Execute an instruction and keep it. A limit below zero is found out afterwards. -/
def step : Action (Session M S) (Snapshot S) := do
  .modify fun s => { s with debugger := { s.debugger with before := state s.machine } }
  let snapshot ← onMachine Processor.step
  modifyDebugger (·.keep snapshot)
  if (← .gets (·.debugger.limit)) < 0 then .fail .noHistory
  return snapshot

/-- Put back the bytes that accesses overwrote, the latest access first. -/
def undoWrites : List Access → Action M Unit
  | [] => return
  | a :: rest => do
    undoWrites rest
    match a with
    | .read .. => return
    | .write address _ previous => load address previous.toNat

/-- Take the latest kept instruction back and answer the one before it. -/
def stepBack : Action (Session M S) (Option (Snapshot S)) := do
  let d ← .gets (·.debugger)
  match d.history with
  | [] => return none
  | undone :: rest =>
    modifyDebugger fun d => { d with history := rest }
    onMachine (undoWrites undone.accesses)
    let previous := rest.head?
    onMachine (modifyState fun _ => (previous.map (·.state)).getD d.base)
    modifyDebugger fun d => { d with last := previous }
    return previous

/-- Execute instructions until a breakpoint, a stop, or the end of the budget. A fault ends the run
with a notice of how many instructions had been executed. -/
def advance : Nat → Nat → Action (Session M S) Unit
  | 0, _ => return
  | budget + 1, executed => do
    let s ← .get
    let pc := Processor.pcOf s.machine
    if !s.debugger.running then return
    else if s.debugger.stopsAt pc then .report (.stoppedAt pc)
    else
      let snapshot ← step.onFault id fun _ => .stoppedByFault executed
      if (← .gets (·.debugger.stopsAfter (M := M) snapshot)) then
        .report (.stoppedAfter (Processor.pc M snapshot.state))
      else
        advance budget (executed + 1)

/-- Execute instructions as `advance` does, but do not stop where the run begins. The instruction
there is executed whatever the budget is. -/
def resume (budget : Nat) : Action (Session M S) Unit := do
  let s ← .get
  if s.debugger.stopsAt (Processor.pcOf s.machine) then
    let _ ← step.onFault id fun _ => .stoppedByFault 0
    advance (budget - 1) 1
  else
    advance budget 0

/-- The budget that stands for none, of more instructions than any run executes. -/
def unlimited : Nat := 0x10000000000000000

/-- Run for at most so many instructions, and answer the latest one that is kept. -/
def run (budget : Option Int) : Action (Session M S) (Option (Snapshot S)) := do
  modifyDebugger fun d => { d with running := true }
  (resume ((budget.map Int.toNat).getD unlimited)).atEnd fun s =>
    { s with debugger := s.debugger.stop }
  .gets (·.debugger.last)

end Session

end Chip8
