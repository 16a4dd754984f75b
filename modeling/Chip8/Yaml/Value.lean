import Chip8.Document.Order
import Chip8.Yaml.Node.Merge
import Chip8.Yaml.Scalar

/-!
# What nodes say

`Nodes.document` reads nodes as a document. Each node becomes one value, wherever it stands, and a
collection one part of the document. Parts are filled one after the other, in the order in which
they were met, and what a part consists of is met when it is filled; so of several faults the one
with the fewest collections around it is found, and of those the first.
-/

namespace Chip8.Yaml

open Document (Value Part setEntry)

/-- A document in the making. -/
structure Builder where
  nodes : Nodes
  /-- The values of the nodes that were met. -/
  values : Array (Option Value)
  parts : Array Part := #[]
  /-- The collections that were met, with the numbers of their nodes and their parts. -/
  met : Array (Nat × Nat) := #[]

namespace Builder

abbrev Build := StateT Builder (Except Error)

/-- The text that stands for a node where a scalar is wanted. The count bounds the mappings around
it; where it is used up, some mapping stands for itself. -/
def content (ns : Nodes) : Nat → Nat → Except Error Text
  | 0, _ => .error .endless
  | fuel + 1, n =>
    match ns.get? n with
    | some (.scalar _ text) => .ok text
    | some (.mapping _ entries) =>
      match entries.find? fun (k, _) => ns.tag? k = some .value with
      | some (_, v) => content ns fuel v
      | none => .error .malformed
    | _ => .error .malformed

/-- The value of a node as a scalar. -/
def scalar (ns : Nodes) (n : Nat) (tag : Tag) : Except Error Value := do
  let text ← content ns (ns.size + 1) n
  if tag = .timestamp ∧ ns.isMapping n then throw .timeInParts
  Scalar.value tag text n

/-- Add a part that is still to be filled. -/
def begin (n : Nat) (empty : Part) : Build Value :=
  modifyGet fun b =>
    (.part b.parts.size,
      { b with parts := b.parts.push empty, met := b.met.push (n, b.parts.size) })

/-- The value of a node. -/
def valueOf (n : Nat) : Build Value := do
  let b ← get
  match b.values.getD n none with
  | some v => return v
  | none =>
    let tag := (b.nodes.tag? n).getD .other
    let v ← match tag with
      | .seq | .omap | .pairs => begin n (.list [])
      | .set => begin n (.set [])
      | .map => begin n (.map [])
      | tag => scalar b.nodes n tag
    modify fun b => { b with values := b.values.setIfInBounds n (some v) }
    return v

def keyOf (n : Nat) : Build Value := do
  let k ← valueOf n
  if k.canBeKey then return k else throw .malformed

/-- The entries of a mapping, each key once. -/
def entriesOf (n : Nat) : Build (List (Value × Value)) := do
  let b ← get
  if !b.nodes.isMapping n then throw .malformed
  let nodes ← b.nodes.flatten n
  set { b with nodes }
  (nodes.entries n).foldlM (fun es (k, v) => do
    let k ← keyOf k
    let v ← valueOf v
    return setEntry k v es) []

def itemsOf (n : Nat) : Build (List Nat) := do
  match (← get).nodes.get? n with
  | some (.sequence _ items) => return items
  | _ => throw .malformed

/-- A mapping of one entry, as a pair. -/
def pairOf (n : Nat) : Build Value := do
  match (← get).nodes.entries n with
  | [(k, v)] =>
    let k ← valueOf k
    let v ← valueOf v
    modifyGet fun b => (.part b.parts.size, { b with parts := b.parts.push (.pair k v) })
  | _ => throw .malformed

/-- What a collection consists of. -/
def contents (n : Nat) : Build Part := do
  match (← get).nodes.tag? n with
  | some .seq => return .list (← (← itemsOf n).mapM valueOf)
  | some .omap | some .pairs => return .list (← (← itemsOf n).mapM pairOf)
  | some .set => return .set (Document.inOrder ((← entriesOf n).map (·.1)))
  | _ => return .map (← entriesOf n)

/-- Fill the collections that were met, from a number on. Each node is met once, so that the count
of the nodes bounds them. -/
def fillFrom (k : Nat) : Nat → Build Unit
  | 0 => return
  | fuel + 1 => do
    match (← get).met[k]? with
    | none => return
    | some (n, part) =>
      let p ← contents n
      modify fun b => { b with parts := b.parts.setIfInBounds part p }
      fillFrom (k + 1) fuel

end Builder

/-- The document that a node and those within it make. -/
def Nodes.document (ns : Nodes) (n : Nat) : Except Error Document := do
  let build : Builder.Build Value := do
    let v ← Builder.valueOf n
    Builder.fillFrom 0 (ns.size + 1)
    return v
  let (root, b) ← build.run { nodes := ns, values := Array.replicate ns.size none }
  return { root, parts := b.parts }

end Chip8.Yaml
