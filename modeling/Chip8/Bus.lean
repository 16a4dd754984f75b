import Chip8.Device
import Chip8.Text.Hex
import Chip8.Text.Integer

/-!
# The bus

A bus maps addresses to devices. `Bus.read` and `Bus.write` are the ways of a running program and
leave an entry in the list of accesses; `Bus.peek`, `Bus.dump` and `Bus.load` are those of its
host and leave none. Regions may overlap, in which case the first one answers, and may leave gaps.
One device may stand in several places, and then has the same bytes in each of them.
-/

namespace Chip8

/-- A device in its place, as the host is shown it. It covers as many addresses as it has bytes. -/
structure Region where
  start : Nat
  device : Device
deriving DecidableEq, Repr

namespace Region

/-- The first address behind the region. -/
def stop (r : Region) : Nat := r.start + r.device.size

def Contains (r : Region) (a : Int) : Prop := r.start ≤ a ∧ a < r.stop

instance (r : Region) (a : Int) : Decidable (r.Contains a) :=
  inferInstanceAs (Decidable (_ ∧ _))

end Region

/-- The place of a device, which goes by its number among the devices of the bus. -/
structure Placement where
  start : Nat
  device : Nat
deriving DecidableEq, Repr

/-- An access by a running program. A write also holds the byte that it found. -/
inductive Access where
  | read (address : Int) (data : UInt8)
  | write (address data : Int) (previous : UInt8)
deriving DecidableEq, Repr

structure Bus where
  devices : List Device := []
  /-- In the order of their first addresses; those with one first address in the order of their
  registration. -/
  placements : List Placement := []
  /-- The accesses since they were last taken, oldest first. -/
  accesses : List Access := []
deriving DecidableEq, Repr

namespace Bus

inductive Error where
  | unmapped (address : Int)
  | device (e : Device.Error)
  | badRange (first last : Int)
  | notADevice
  | sizeMismatch (kind : Device.Kind) (size : String) (span first : Int)
  /-- There is no region of this number. -/
  | noRegion
  /-- The number of a region is further from zero than lists can be. -/
  | uncountable
deriving DecidableEq, Repr

def Error.message : Error → String
  | unmapped address => "Address " ++ Text.Hex.padded 6 address ++ " not mapped to any device."
  | device e => e.message
  | badRange first last =>
    "Invalid address range " ++ Text.Hex.padded 6 first ++ "-" ++ Text.Hex.padded 6 last ++ "."
  | notADevice => "Only a device can be placed on the bus."
  | sizeMismatch kind size span first =>
    match Text.Integer.decimal? span with
    | some span =>
      kind.text ++ " of " ++ size ++ " bytes does not match a " ++ span ++ "-byte range at " ++
        Text.Hex.padded 6 first ++ "."
    | none => Text.Integer.unwritten
  | noRegion => "list index out of range"
  | uncountable => Room.Error.uncountable.message

/-- The device of a number. A number that no device has stands for one without bytes. -/
def device (b : Bus) (k : Nat) : Device := b.devices.getD k (.blank .ram 0)

def region (b : Bus) (p : Placement) : Region := ⟨p.start, b.device p.device⟩

def regions (b : Bus) : List Region := b.placements.map b.region

/-- Put a placement behind those that start no later. -/
def insertPlacement (p : Placement) : List Placement → List Placement
  | [] => [p]
  | q :: rest => if p.start < q.start then p :: q :: rest else q :: insertPlacement p rest

/-- Place the device of a number at the addresses from `first` to `last`. -/
def place (b : Bus) (first last : Int) (k : Nat) : Except Error Bus :=
  if first < 0 ∨ last < first then
    .error (.badRange first last)
  else
    match b.devices[k]? with
    | none => .error .notADevice
    | some d =>
      if last - first + 1 = d.size then
        .ok { b with placements := insertPlacement ⟨first.toNat, k⟩ b.placements }
      else
        .error (.sizeMismatch d.kind d.sizeText (last - first + 1) first)

/-- One more device, which is in no place yet. -/
def addDevice (b : Bus) (device : Option Device) : Bus :=
  { b with devices := b.devices ++ device.toList }

/-- Place a device that was not on the bus before. -/
def register (b : Bus) (first last : Int) (device : Option Device) : Except Error Bus :=
  (b.addDevice device).place first last b.devices.length

/-- The first address behind all regions. -/
def size (b : Bus) : Nat :=
  b.regions.foldl (fun n r => max n r.stop) 0

def Mapped (b : Bus) (a : Int) : Prop := ∃ r ∈ b.regions, r.Contains a

instance (b : Bus) (a : Int) : Decidable (b.Mapped a) :=
  inferInstanceAs (Decidable (∃ r ∈ _, _))

def placement? (b : Bus) (a : Int) : Option Placement :=
  b.placements.find? fun p => (b.region p).Contains a

/-- The number of the device that answers for an address, and the place of the address within it. -/
def resolve (b : Bus) (a : Int) : Except Error (Nat × Int) :=
  match b.placement? a with
  | some p => .ok (p.device, a - p.start)
  | none => .error (.unmapped a)

def peek (b : Bus) (a : Int) : Except Error UInt8 := do
  let (k, offset) ← b.resolve a
  ((b.device k).read offset).mapError .device

def read (b : Bus) (a : Int) : Except Error (UInt8 × Bus) := do
  let v ← b.peek a
  return (v, { b with accesses := b.accesses ++ [.read a v] })

/-- Change the device that answers for an address. -/
def update (b : Bus) (a : Int) (f : Device → Int → Except Device.Error Device) : Except Error Bus := do
  let (k, offset) ← b.resolve a
  let d ← (f (b.device k) offset).mapError .device
  return { b with devices := b.devices.set k d }

def write (b : Bus) (a data : Int) : Except Error Bus := do
  let previous ← b.peek a
  let b ← b.update a fun d offset => d.write offset data
  return { b with accesses := b.accesses ++ [.write a data previous] }

/-- The place within a read-only device where a write to the address would be lost. -/
def lostWrite? (b : Bus) (a : Int) : Option Int :=
  match b.resolve a with
  | .ok (k, offset) => if (b.device k).kind = .rom then some offset else none
  | .error _ => none

/-- Put a byte at an address, also into a read-only device. -/
def load (b : Bus) (a data : Int) : Except Error Bus :=
  b.update a fun d offset => d.put offset data

/-- The `n` bytes from an address on. -/
def dump (b : Bus) (start : Int) : Nat → Except Error (List UInt8)
  | 0 => .ok []
  | n + 1 => do
    let v ← b.peek start
    let rest ← b.dump (start + 1) n
    return v :: rest

/-- Load bytes from an address on, until one is refused. What was loaded before stays. -/
def loadAll (b : Bus) (start : Int) : List UInt8 → Bus × Except Error Unit
  | [] => (b, .ok ())
  | v :: rest =>
    match b.load start v.toNat with
    | .ok b => b.loadAll (start + 1) rest
    | .error e => (b, .error e)

/-- The accesses so far, which are forgotten. -/
def takeAccesses (b : Bus) : List Access × Bus :=
  (b.accesses, { b with accesses := [] })

def clearDevice (b : Bus) (k : Nat) : Bus := { b with devices := b.devices.modify k Device.clear }

/-- Clear the memory that does not outlast a loss of power, region by region. -/
def powerOff (b : Bus) : Bus := b.placements.foldl (fun b p => b.clearDevice p.device) b

/-- Clear the device of one region. Regions are numbered from zero on, and backward from the last one
by the numbers below zero. -/
def clearRegion (b : Bus) (k : Int) : Except Error Bus :=
  let n := if k < 0 then k + b.placements.length else k
  if ¬ Room.Countable k then
    .error .uncountable
  else if n < 0 then
    .error .noRegion
  else
    match b.placements[n.toNat]? with
    | some p => .ok (b.clearDevice p.device)
    | none => .error .noRegion

/-- The byte that the host sees at an address. -/
def byte? (b : Bus) (a : Int) : Option UInt8 := (b.peek a).toOption

end Bus

end Chip8
