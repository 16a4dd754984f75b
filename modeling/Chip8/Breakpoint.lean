import Chip8.Processor

/-!
# Breakpoints

What a run stops at. A breakpoint on the program counter looks at where the next instruction stands,
the others at what an instruction has done.
-/

namespace Chip8

inductive Breakpoint.Kind where
  | pc
  | memoryRead
  | memoryWrite
  /-- A register has the wanted value. -/
  | registerValue
  /-- A register has another value than before. -/
  | registerChange
  | draw
deriving DecidableEq, Repr

structure Breakpoint where
  kind : Breakpoint.Kind
  value : Option Int := none
  address : Option Int := none
  register : Option Text := none
  enabled : Bool := true
deriving DecidableEq, Repr

namespace Breakpoint

def Kind.text : Kind → String
  | pc => "PC_MATCH"
  | memoryRead => "MEMORY_READ"
  | memoryWrite => "MEMORY_WRITE"
  | registerValue => "REGISTER_VALUE"
  | registerChange => "REGISTER_CHANGE"
  | draw => "DRAW"

def Kind.all : List Kind := [pc, memoryRead, memoryWrite, registerValue, registerChange, draw]

def Kind.ofText? (s : String) : Option Kind := all.find? fun k => k.text = s

/-- The breakpoint stops a run before the instruction at an address. -/
def stopsAt (b : Breakpoint) (pc : Int) : Bool :=
  b.enabled && b.kind = .pc && b.value = some pc

/-- The name of the register, unless it is empty. -/
def named? (b : Breakpoint) : Option Text := b.register.filter (!·.isEmpty)

/-- The breakpoint stops a run behind an instruction, given the registers before it. -/
def stopsAfter {M S : Type} [Processor M S] (b : Breakpoint) (s : Snapshot S) (before : S) : Bool :=
  b.enabled &&
    match b.kind with
    | .pc => false
    | .memoryRead => s.accesses.any fun
      | .read a _ => b.address = some a
      | .write .. => false
    | .memoryWrite => s.accesses.any fun
      | .read .. => false
      | .write a _ _ => b.address = some a
    | .registerValue => b.named?.any fun name => Processor.register? M s.state name = b.value
    | .registerChange => b.named?.any fun name =>
      Processor.register? M before name ≠ Processor.register? M s.state name
    | .draw => s.drew

end Breakpoint

end Chip8
