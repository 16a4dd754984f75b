import Chip8.Debugger
import Chip8.Machine.Cycle

/-!
# The host

A host holds a machine and a debugger attached to it. When the host takes another machine, the
debugger stays with the one it is attached to.
-/

namespace Chip8

structure Host where
  machine : Machine
  debugger : Debugger State
  /-- The machine of the debugger, where it is not the one in use. -/
  former : Option Machine := none

namespace Host

def start (m : Machine) : Host := { machine := m, debugger := .start m.state 1000 }

/-- Work on the machine in use. -/
def access {α : Type} (a : Action Machine α) : Action Host α :=
  a.onPart (·.machine) fun h m => { h with machine := m }

/-- Work on the debugger and its machine. -/
def debug {α : Type} (a : Action (Session Machine State) α) : Action Host α :=
  a.onPart (fun h => ⟨h.former.getD h.machine, h.debugger⟩) fun h s =>
    match h.former with
    | none => { h with machine := s.machine, debugger := s.debugger }
    | some _ => { h with former := some s.machine, debugger := s.debugger }

/-- Take another machine. -/
def replace (m : Machine) : Action Host Unit :=
  .modify fun h => { h with machine := m, former := some (h.former.getD h.machine) }

/-- Attach a new debugger to the machine in use. -/
def attach (limit : Int) : Action Host Unit :=
  .modify fun h => { machine := h.machine, debugger := .start h.machine.state limit }

end Host

end Chip8
