import Chip8.Text

/-!
# Nodes

What a text says before its scalars are read: scalars, sequences and mappings, each with a tag that
says what kind of value it is to become. Nodes have numbers, and collections refer to their parts by
number. A name for a node stands for its number, so that a node may stand at several places, and
within itself.
-/

namespace Chip8.Yaml

inductive Tag where
  | null
  | bool
  | int
  | float
  | binary
  | timestamp
  | str
  | seq
  | map
  | set
  | omap
  | pairs
  /-- The key whose value is a mapping with further entries. -/
  | merge
  /-- The key whose value stands for the whole mapping where a scalar is wanted. -/
  | value
  | other
deriving DecidableEq, Repr

namespace Tag

/-- The beginning of the tags that are known without a declaration. -/
def standardStem : String := "tag:yaml.org,2002:"

def ofName : String → Tag
  | "null" => null
  | "bool" => bool
  | "int" => int
  | "float" => float
  | "binary" => binary
  | "timestamp" => timestamp
  | "str" => str
  | "seq" => seq
  | "map" => map
  | "set" => set
  | "omap" => omap
  | "pairs" => pairs
  | "merge" => merge
  | "value" => value
  | _ => other

def ofText (s : String) : Tag :=
  if s.startsWith standardStem then ofName (s.drop standardStem.length).toString else other

/-- Values of this kind have parts. -/
def hasParts : Tag → Bool
  | seq | map | set | omap | pairs => true
  | _ => false

end Tag

inductive Node where
  | scalar (tag : Tag) (text : Text)
  | sequence (tag : Tag) (items : List Nat)
  | mapping (tag : Tag) (entries : List (Nat × Nat))

namespace Node

def tag : Node → Tag
  | scalar tag _ | sequence tag _ | mapping tag _ => tag

def retag (tag : Tag) : Node → Node
  | scalar _ text => scalar tag text
  | sequence _ items => sequence tag items
  | mapping _ entries => mapping tag entries

end Node

/-- The nodes of a text by their numbers. -/
structure Nodes where
  all : Array Node := #[]

namespace Nodes

def size (ns : Nodes) : Nat := ns.all.size

def get? (ns : Nodes) (n : Nat) : Option Node := ns.all[n]?

def tag? (ns : Nodes) (n : Nat) : Option Tag := (ns.get? n).map Node.tag

/-- The entries of a mapping; other nodes have none. -/
def entries (ns : Nodes) (n : Nat) : List (Nat × Nat) :=
  match ns.get? n with
  | some (.mapping _ entries) => entries
  | _ => []

/-- Add a node. Its number is the next one. -/
def push (ns : Nodes) (node : Node) : Nat × Nodes := (ns.size, ⟨ns.all.push node⟩)

def set (ns : Nodes) (n : Nat) (node : Node) : Nodes := ⟨ns.all.setIfInBounds n node⟩

def setEntries (ns : Nodes) (n : Nat) (entries : List (Nat × Nat)) : Nodes :=
  match ns.get? n with
  | some (.mapping tag _) => ns.set n (.mapping tag entries)
  | _ => ns

def retag (ns : Nodes) (tag : Tag) (n : Nat) : Nodes :=
  match ns.get? n with
  | some node => ns.set n (node.retag tag)
  | none => ns

end Nodes

end Chip8.Yaml
