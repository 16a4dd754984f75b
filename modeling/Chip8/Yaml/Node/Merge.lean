import Chip8.Yaml.Node
import Chip8.Yaml.Place

/-!
# Merge keys

The value of a merge key brings the entries of a mapping, or of several mappings in a sequence, into
the mapping that the key stands in: they come before that mapping's own entries, and those of the
last mapping come first. `Nodes.flatten` puts the entries in the place of the merge keys. A mapping
that brings entries is flattened before it does; since its merge keys are taken out one by one as
they are looked at, a mapping may bring entries into itself.
-/

namespace Chip8.Yaml.Nodes

/-- How many entries stand under merge keys. -/
def mergeCount (ns : Nodes) : Nat :=
  (ns.all.toList.map fun
    | .mapping _ entries => (entries.filter fun (k, _) => ns.tag? k = some .merge).length
    | _ => 0).foldl (· + ·) 0

/-- Take the first entry under a merge key out of a mapping. The answer is its value. -/
def takeMerge? (ns : Nodes) (n : Nat) : Option (Nat × Nodes) := do
  let entries := ns.entries n
  let k ← entries.findIdx? fun (k, _) => ns.tag? k = some .merge
  let (_, source) ← entries[k]?
  return (source, ns.setEntries n (entries.eraseIdx k))

/-- The keys of a mapping that would stand for a scalar become plain texts. -/
def settleKeys (ns : Nodes) (n : Nat) : Nodes :=
  ((ns.entries n).map (·.1)).foldl
    (fun ns k => if ns.tag? k = some .value then ns.retag .str k else ns) ns

def isMapping (ns : Nodes) (n : Nat) : Bool :=
  match ns.get? n with
  | some (.mapping ..) => true
  | _ => false

/-- Flatten a mapping, given the entries that were brought into it so far. Each call takes a merge
key out, so that their count bounds the calls. -/
def flattenWith (n : Nat) (brought : List (Nat × Nat)) : Nat → Nodes → Except Error Nodes
  | 0, ns => .ok (settleKeys (ns.setEntries n (brought ++ ns.entries n)) n)
  | fuel + 1, ns =>
    match ns.takeMerge? n with
    | none => .ok (settleKeys (ns.setEntries n (brought ++ ns.entries n)) n)
    | some (source, ns) => do
      let (more, ns) ← (match ns.get? source with
        | some (.mapping ..) => do
          let ns ← flattenWith source [] fuel ns
          return (ns.entries source, ns)
        | some (.sequence _ items) =>
          items.foldlM (fun (more, ns) item => do
            if !ns.isMapping item then throw .malformed
            let ns ← flattenWith item [] fuel ns
            return (ns.entries item ++ more, ns)) ([], ns)
        | _ => throw .malformed
        : Except Error (List (Nat × Nat) × Nodes))
      flattenWith n (brought ++ more) fuel ns

/-- Put what merge keys bring into a mapping in their place. -/
def flatten (n : Nat) (ns : Nodes) : Except Error Nodes := flattenWith n [] ns.mergeCount ns

end Chip8.Yaml.Nodes
