import Chip8.Document

/-!
# Documents as trees

A tree is a document whose parts are each within one other at most, written in one piece.
`Tree.document` gives the parts their numbers.
-/

namespace Chip8.Document

inductive Tree where
  | null
  | bool (b : Bool)
  | int (n : Int)
  | float (x : Float)
  | text (t : Text)
  | list (items : List Tree)
  | map (entries : List (Text × Tree))
deriving Inhabited

namespace Tree

mutual

/-- The value of a tree, put behind the parts that there are. -/
def place : Tree → Array Part → Value × Array Part
  | null, parts => (.null, parts)
  | bool b, parts => (.bool b, parts)
  | int n, parts => (.int n, parts)
  | float x, parts => (.float x, parts)
  | text t, parts => (.text t, parts)
  | list items, parts =>
    let (vs, parts) := placeItems items parts
    (.part parts.size, parts.push (.list vs))
  | map entries, parts =>
    let (es, parts) := placeEntries entries parts
    (.part parts.size, parts.push (.map es))

def placeItems : List Tree → Array Part → List Value × Array Part
  | [], parts => ([], parts)
  | t :: rest, parts =>
    let (v, parts) := place t parts
    let (vs, parts) := placeItems rest parts
    (v :: vs, parts)

def placeEntries : List (Text × Tree) → Array Part → List (Value × Value) × Array Part
  | [], parts => ([], parts)
  | (k, t) :: rest, parts =>
    let (v, parts) := place t parts
    let (es, parts) := placeEntries rest parts
    ((.text k, v) :: es, parts)

end

def document (t : Tree) : Document :=
  let (root, parts) := t.place #[]
  { root, parts }

end Tree

end Chip8.Document
