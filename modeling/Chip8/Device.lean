import Chip8.Room

/-!
# Memory devices

A device is a row of bytes. A readable and writable one takes every write; a read-only one takes
writes without effect and is filled by `Device.program` alone. The size of a device may be given as a
truth value; it is one then, and is shown as it was given.
-/

namespace Chip8

inductive Device.Kind where
  | ram
  | rom
deriving DecidableEq, Repr

def Device.Kind.text : Device.Kind → String
  | ram => "RAM"
  | rom => "ROM"

structure Device where
  kind : Device.Kind
  cells : Array UInt8
  /-- The size was given as a truth value. -/
  sizedByTruth : Bool := false
deriving DecidableEq, Repr

namespace Device

inductive Error where
  | badSize (kind : Kind)
  /-- There is no room for so many bytes. -/
  | noRoom (e : Room.Error)
  | outOfBounds (offset : Int) (kind : Kind) (size : String)
  | notAByte (data : Int)
  /-- The device cannot be filled by `Device.program`. -/
  | notProgrammable
deriving DecidableEq, Repr

def Error.message : Error → String
  | badSize kind => kind.text ++ " size must be a positive integer."
  | noRoom e => e.message
  | outOfBounds offset kind size =>
    "Address " ++ toString offset ++ " out of bounds for " ++ kind.text ++ " of size " ++ size ++
      "."
  | notAByte data => "Data " ++ toString data ++ " is not an 8-bit value."
  | notProgrammable => "The device is not programmable."

/-- A device of `size` bytes, all zero. -/
def blank (kind : Kind) (size : Nat) : Device :=
  { kind, cells := Array.replicate size 0 }

def blank? (kind : Kind) (size : Int) : Except Error Device :=
  if 0 < size then ((Room.of? size).mapError .noRoom).map (blank kind) else .error (.badSize kind)

/-- A device of the size that a truth value counts as. -/
def ofTruth? (kind : Kind) (b : Bool) : Except Error Device :=
  (blank? kind (if b then 1 else 0)).map fun d => { d with sizedByTruth := true }

def size (d : Device) : Nat := d.cells.size

def sizeText (d : Device) : String := if d.sizedByTruth then "True" else toString d.size

def checkOffset (d : Device) (offset : Int) : Except Error Unit :=
  if 0 ≤ offset ∧ offset < d.size then .ok () else .error (.outOfBounds offset d.kind d.sizeText)

def read (d : Device) (offset : Int) : Except Error UInt8 := do
  d.checkOffset offset
  return d.cells.getD offset.toNat 0

/-- Put a byte into a cell, whatever the kind of the device. -/
def put (d : Device) (offset data : Int) : Except Error Device := do
  d.checkOffset offset
  if 0 ≤ data ∧ data ≤ 0xFF then
    return { d with cells := d.cells.setIfInBounds offset.toNat (UInt8.ofNat data.toNat) }
  else
    throw (.notAByte data)

/-- The write of a running program. A read-only device is left as it is. -/
def write (d : Device) (offset data : Int) : Except Error Device :=
  match d.kind with
  | .ram => d.put offset data
  | .rom => (d.checkOffset offset).map fun _ => d

/-- The way by which a read-only device is filled. -/
def program (d : Device) (offset data : Int) : Except Error Device :=
  match d.kind with
  | .ram => throw .notProgrammable
  | .rom => d.put offset data

/-- What is left when the power goes off: read-only devices keep their bytes. -/
def clear (d : Device) : Device :=
  match d.kind with
  | .ram => { d with cells := Array.replicate d.size 0 }
  | .rom => d

end Device

end Chip8
