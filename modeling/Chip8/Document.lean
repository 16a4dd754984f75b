import Chip8.Document.Calendar
import Chip8.Text

/-!
# Documents

What a document says: plain values, lists, and mappings whose entries have an order. The collections
of a document are its parts, which have numbers; a value refers to a part by its number. So a part
may be a part of several others, and of itself.
-/

namespace Chip8

namespace Document

inductive Value where
  | null
  | bool (b : Bool)
  | int (n : Int)
  | float (x : Float)
  /-- The result of arithmetic that has none. Each one is told apart by where it comes from. -/
  | nan (origin : Nat)
  | text (t : Text)
  | bytes (bs : List UInt8)
  | date (d : Date)
  | moment (m : Moment)
  | part (n : Nat)
deriving Inhabited

inductive Part where
  | list (items : List Value)
  /-- A key and its value, as an item of a list. -/
  | pair (key value : Value)
  | set (items : List Value)
  | map (entries : List (Value × Value))
deriving Inhabited

end Document

open Document (Value Part)

/-- A value with the parts that it refers to, directly or through others. -/
structure Document where
  root : Value := .null
  parts : Array Part := #[]
deriving Inhabited

namespace Document

/-- The part that a value refers to. -/
def part? (d : Document) : Value → Option Part
  | .part n => d.parts[n]?
  | _ => none

/-- The entries of a mapping. -/
def entries? (d : Document) (v : Value) : Option (List (Value × Value)) :=
  match d.part? v with
  | some (.map entries) => some entries
  | _ => none

def Part.isEmpty : Part → Bool
  | list items | set items => items.isEmpty
  | pair .. => false
  | map entries => entries.isEmpty

/-- A value that says nothing: no value, no, zero, or one without content. -/
def isEmpty (d : Document) : Value → Bool
  | .null => true
  | .bool b => !b
  | .int n => n = 0
  | .float x => x == 0.0
  | .text t => t.isEmpty
  | .bytes bs => bs.isEmpty
  | .part n => (d.parts[n]?).any Part.isEmpty
  | .nan _ | .date _ | .moment _ => false

def Part.typeName : Part → String
  | list _ => "list"
  | pair .. => "tuple"
  | set _ => "set"
  | map _ => "dict"

/-- The name of a value's type in messages. -/
def typeName (d : Document) : Value → String
  | .null => "NoneType"
  | .bool _ => "bool"
  | .int _ => "int"
  | .float _ | .nan _ => "float"
  | .text _ => "str"
  | .bytes _ => "bytes"
  | .date _ => "date"
  | .moment _ => "datetime"
  | .part n => ((d.parts[n]?).map Part.typeName).getD "NoneType"

end Document

end Chip8
