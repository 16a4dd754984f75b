/-!
# The keypad

Sixteen keys, each up or down.
-/

namespace Chip8

structure Keypad where
  down : Vector Bool 16 := Vector.replicate 16 false
deriving DecidableEq, Repr

namespace Keypad

/-- There is no key of this number. -/
structure Error where
  key : Int
deriving DecidableEq, Repr

def Error.message (e : Error) : String :=
  "Key " ++ toString e.key ++ " is not a valid CHIP-8 key (0x0-0xF)."

def key? (k : Int) : Except Error (Fin 16) :=
  if h : 0 ≤ k ∧ k < 16 then .ok ⟨k.toNat, by omega⟩ else .error ⟨k⟩

def put (p : Keypad) (k : Fin 16) (isDown : Bool) : Keypad :=
  ⟨p.down.set k isDown⟩

def press (p : Keypad) (k : Int) : Except Error Keypad :=
  (key? k).map fun k => p.put k true

def release (p : Keypad) (k : Int) : Except Error Keypad :=
  (key? k).map fun k => p.put k false

def isDown (p : Keypad) (k : Fin 16) : Bool := p.down[k]

def isPressed (p : Keypad) (k : Int) : Except Error Bool :=
  (key? k).map p.isDown

/-- The keys that are down, in order. -/
def pressed (p : Keypad) : List (Fin 16) :=
  (List.finRange 16).filter p.isDown

/-- The least key that is down. -/
def first? (p : Keypad) : Option (Fin 16) :=
  (List.finRange 16).find? p.isDown

end Keypad

end Chip8
