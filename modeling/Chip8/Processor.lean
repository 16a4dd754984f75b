import Chip8.Action
import Chip8.Snapshot

/-!
# Processors

A processor of type `M` has registers of type `S`, a bus, and a count of the instructions it has
executed. `Processor.step` is the cycle that all processors share: look whether one may go on, fetch
a word, decode it, move the program counter past it, execute it, and record what it did. An
instance fills in the stages. What an instance leaves out is the behaviour of a processor that
always goes on, cannot be halted and has no screen.
-/

namespace Chip8

structure Core (S : Type) where
  bus : Bus
  state : S
  /-- How many instructions were executed since the last reset. -/
  cycles : Nat := 0
deriving DecidableEq, Repr

/-- A type of which a core is a part. -/
class HasCore (M : Type) (S : outParam Type) where
  core : M → Core S
  setCore : M → Core S → M

namespace HasCore

variable {M S : Type} [HasCore M S]

def state (m : M) : S := (core m).state

def setState (m : M) (s : S) : M := setCore m { core m with state := s }

def bus (m : M) : Bus := (core m).bus

def setBus (m : M) (b : Bus) : M := setCore m { core m with bus := b }

def cycles (m : M) : Nat := (core m).cycles

def modifyState (f : S → S) : Action M Unit :=
  .modify fun m => setState m (f (state m))

/-- The byte at an address, read by the program. -/
def read (a : Int) : Action M UInt8 :=
  ⟨fun m =>
    match (bus m).read a with
    | .ok (v, b) => ⟨setBus m b, .ok v, []⟩
    | .error e => ⟨m, .error (.bus e), []⟩⟩

/-- A write by the program. One that is lost is reported. -/
def write (a data : Int) : Action M Unit :=
  ⟨fun m =>
    match (bus m).write a data with
    | .ok b =>
      ⟨setBus m b, .ok (), ((bus m).lostWrite? a).toList.map (.ignoredWrite data ·)⟩
    | .error e => ⟨m, .error (.bus e), []⟩⟩

/-- A byte put by the host. -/
def load (a data : Int) : Action M Unit :=
  ⟨fun m =>
    match (bus m).load a data with
    | .ok b => ⟨setBus m b, .ok (), []⟩
    | .error e => ⟨m, .error (.bus e), []⟩⟩

def loadAll (start : Int) (data : List UInt8) : Action M Unit :=
  ⟨fun m =>
    let (b, r) := (bus m).loadAll start data
    ⟨setBus m b, r.mapError .bus, []⟩⟩

/-- The accesses so far, which are forgotten. -/
def takeAccesses : Action M (List Access) :=
  ⟨fun m =>
    let (accesses, b) := (bus m).takeAccesses
    ⟨setBus m b, .ok accesses, []⟩⟩

end HasCore

class Processor (M : Type) (S : outParam Type) extends HasCore M S where
  pc : S → Int
  /-- Move the program counter. -/
  advance : S → Int → S
  /-- The number in the register of a name. -/
  register? : S → Text → Option Int
  /-- What keeps the processor from trying. -/
  refusal? : M → Option Fault := fun _ => none
  /-- The word at the program counter lies within the memory. -/
  canFetch : M → Bool
  decode : M → Word → Except Fault Instruction
  /-- How far an instruction moves the program counter. -/
  length : M → Instruction → Int := fun _ i => i.length
  execute : Instruction → Action M Unit
  /-- What a fault does to the registers. -/
  halt : S → S := id
  draws : Instruction → Bool := fun _ => false

namespace Processor

open HasCore

variable {M S : Type} [Processor M S]

def pcOf (m : M) : Int := pc M (state m)

def fetch : Action M Word := do
  let m ← .get
  let pc := pcOf m
  if canFetch m then
    let high ← read pc
    let low ← read (pc + 1)
    return .ofBytes high low
  else
    .fail (.fault (.fetchOutOfBounds pc))

/-- Fetch, decode and execute. -/
def perform : Action M Instruction := do
  let word ← fetch
  let m ← .get
  let i ← .lift ((decode m word).mapError .fault)
  modifyState fun s => advance M s (length m i)
  execute i
  return i

/-- Count an instruction and take down what it did. -/
def record (start : Int) (i : Instruction) : Action M (Snapshot S) := do
  .modify fun m => setCore m { core m with cycles := cycles m + 1 }
  .report (.executed (traceText start i))
  let accesses ← takeAccesses
  let m ← .get
  return {
    address := start
    instruction := i
    cycle := cycles m
    drew := draws M i
    state := state m
    accesses }

/-- Execute the instruction at the program counter. Accesses made before do not count. -/
def step : Action M (Snapshot S) := do
  let _ ← takeAccesses
  let m ← .get
  match refusal? m with
  | some f => .fail (.fault f)
  | none =>
    let start := pcOf m
    let i ← perform.onFault (fun m => setState m (halt M (state m))) (.failed start)
    record start i

end Processor

end Chip8
