import Chip8.Yaml.Node
import Chip8.Yaml.Scalar
import Chip8.Yaml.Token

/-!
# Nodes from tokens

A text holds one document, which is a node. Block collections are closed by a token of their own;
a sequence that is the key or the value of a block mapping may also stand without indentation, and
ends where something else than an item follows. A part that is left out is an empty scalar. The
parsers answer the numbers of nodes; those of collections count down a bound on the calls that the
tokens left can lead to.
-/

namespace Chip8.Yaml

structure Parser where
  tokens : List Token
  /-- What is wrong behind the last token. -/
  fault : Error := .malformed
  /-- What the abbreviations of tags stand for. -/
  handles : List (String × String) := []
  /-- The nodes that have names. -/
  anchors : List (String × Nat) := []
  nodes : Nodes := {}

namespace Parser

abbrev Parse := StateT Parser (Except Error)

/-- The next token. Where a fault follows, it has no next one. -/
def peek : Parse Token := do
  match (← get).tokens with
  | t :: _ => return t
  | [] => throw (← get).fault

def skip : Parse Unit := modify fun p => { p with tokens := p.tokens.drop 1 }

/-- Step over a token, if it is the next one. -/
def accept (t : Token) : Parse Bool := do
  if (← peek) = t then
    skip
    return true
  else return false

def expect (t : Token) : Parse Unit := do
  if !(← accept t) then throw .malformed

/-! ## Names and tags -/

def add (n : Node) : Parse Nat :=
  modifyGet fun p =>
    let (k, nodes) := p.nodes.push n
    (k, { p with nodes })

def named (name : String) : Parse Nat := do
  match (← get).anchors.lookup name with
  | some n => return n
  | none => throw .malformed

/-- Names are given once. -/
def checkNew : Option String → Parse Unit
  | none => return
  | some name => do
    if ((← get).anchors.lookup name).isSome then throw .malformed

/-- Add a node that may have a name. -/
def addNamed (anchor : Option String) (node : Node) : Parse Nat := do
  checkNew anchor
  let n ← add node
  if let some name := anchor then
    modify fun p => { p with anchors := (name, n) :: p.anchors }
  return n

def anchor? : Parse (Option String) := do
  match ← peek with
  | .anchor name =>
    skip
    return some name
  | _ => return none

def tag? : Parse (Option (Option String × String)) := do
  match ← peek with
  | .tag handle suffix =>
    skip
    return some (handle, suffix)
  | _ => return none

/-- A tag written out. -/
def wholeTag : Option String × String → Parse String
  | (none, suffix) => return suffix
  | (some handle, suffix) => do
    match (← get).handles.lookup handle with
    | some stem => return stem ++ suffix
    | none => throw .malformed

/-- The name and the tag of a node, in either order. -/
def properties : Parse (Option String × Option String) := do
  let (name, tag) ← (do
    match ← anchor? with
    | some name => return (some name, ← tag?)
    | none =>
      match ← tag? with
      | some tag => return (← anchor?, some tag)
      | none => return (none, none)
    : Parse (Option String × Option (Option String × String)))
  match tag with
  | none => return (name, none)
  | some tag => return (name, some (← wholeTag tag))

/-- The tag of a scalar. A mark alone asks for what a plain scalar would be. -/
def scalarTag (tag : Option String) (text : Text) (isPlain : Bool) : Tag :=
  match tag with
  | none => if isPlain then .ofPlain text else .str
  | some "!" => .ofPlain text
  | some tag => .ofText tag

def collectionTag (tag : Option String) (otherwise : Tag) : Tag :=
  match tag with
  | none | some "!" => otherwise
  | some tag => .ofText tag

def emptyNode : Parse Nat := add (.scalar (.ofPlain "") "")

/-! ## Nodes -/

/-- A node, unless one of some tokens is next. -/
def nodeUnless (stops : List Token) (read : Parse Nat) : Parse Nat := do
  if (← peek) ∈ stops then emptyNode else read

/-- A collection. Its number and its name stand for it already within it. -/
def collection {α : Type} (anchor : Option String) (make : List α → Node)
    (read : Parse (List α)) : Parse Nat := do
  let n ← addNamed anchor (make [])
  let node := make (← read)
  modify fun p => { p with nodes := p.nodes.set n node }
  return n

/-- A comma, but not before the first part of a flow collection. -/
def separator (isFirst : Bool) : Parse Unit := do
  if !isFirst then expect .flowEntry

mutual

/-- A node, where block collections may stand or not, and sequences without indentation or not. -/
def node (inBlock hanging : Bool) : Nat → Parse Nat
  | 0 => throw .malformed
  | fuel + 1 => do
    if let .alias name ← peek then
      skip
      named name
    else
      let (anchor, tag) ← properties
      let sequenceOf := collection anchor (.sequence (collectionTag tag .seq))
      let mappingOf := collection anchor (.mapping (collectionTag tag .map))
      let t ← peek
      if t = .blockEntry ∧ hanging then sequenceOf (hangingItems fuel)
      else
        match t with
        | .scalar text isPlain => do
          skip
          addNamed anchor (.scalar (scalarTag tag text isPlain) text)
        | .flowSequenceStart => do
          skip
          sequenceOf (flowItems true fuel)
        | .flowMappingStart => do
          skip
          mappingOf (flowEntries true fuel)
        | t =>
          if t = .blockSequenceStart ∧ inBlock then
            skip
            sequenceOf (blockItems fuel)
          else if t = .blockMappingStart ∧ inBlock then
            skip
            mappingOf (blockEntries fuel)
          else if anchor.isNone ∧ tag.isNone then throw .malformed
          else addNamed anchor (.scalar (scalarTag tag "" true) "")

def blockItems : Nat → Parse (List Nat)
  | 0 => throw .malformed
  | fuel + 1 => do
    if ← accept .blockEntry then
      let item ← nodeUnless [.blockEntry, .blockEnd] (node true false fuel)
      return item :: (← blockItems fuel)
    else
      expect .blockEnd
      return []

/-- The items of a sequence without indentation. -/
def hangingItems : Nat → Parse (List Nat)
  | 0 => throw .malformed
  | fuel + 1 => do
    if ← accept .blockEntry then
      let item ← nodeUnless [.blockEntry, .key, .value, .blockEnd] (node true false fuel)
      return item :: (← hangingItems fuel)
    else return []

def blockEntries : Nat → Parse (List (Nat × Nat))
  | 0 => throw .malformed
  | fuel + 1 => do
    let stops := [Token.key, .value, .blockEnd]
    if ← accept .key then
      let k ← nodeUnless stops (node true true fuel)
      let v ← if ← accept .value then nodeUnless stops (node true true fuel) else emptyNode
      return (k, v) :: (← blockEntries fuel)
    else
      expect .blockEnd
      return []

/-- The items of a sequence in brackets. A key among them begins a mapping of one entry. -/
def flowItems (isFirst : Bool) : Nat → Parse (List Nat)
  | 0 => throw .malformed
  | fuel + 1 => do
    if ← accept .flowSequenceEnd then return []
    else
      separator isFirst
      if ← accept .key then
        let k ← nodeUnless [.value, .flowEntry, .flowSequenceEnd] (node false false fuel)
        let v ←
          if ← accept .value then
            nodeUnless [.flowEntry, .flowSequenceEnd] (node false false fuel)
          else emptyNode
        let item ← add (.mapping .map [(k, v)])
        return item :: (← flowItems false fuel)
      else if ← accept .flowSequenceEnd then return []
      else
        let item ← node false false fuel
        return item :: (← flowItems false fuel)

/-- The entries of a mapping in braces. A node without the mark of a key is a key without a
value. -/
def flowEntries (isFirst : Bool) : Nat → Parse (List (Nat × Nat))
  | 0 => throw .malformed
  | fuel + 1 => do
    if ← accept .flowMappingEnd then return []
    else
      separator isFirst
      if ← accept .key then
        let k ← nodeUnless [.value, .flowEntry, .flowMappingEnd] (node false false fuel)
        let v ←
          if ← accept .value then
            nodeUnless [.flowEntry, .flowMappingEnd] (node false false fuel)
          else emptyNode
        return (k, v) :: (← flowEntries false fuel)
      else if ← accept .flowMappingEnd then return []
      else
        let k ← node false false fuel
        let v ← emptyNode
        return (k, v) :: (← flowEntries false fuel)

end

/-! ## Documents -/

/-- What the abbreviations stand for that need no declaration. -/
def defaultHandles : List (String × String) := [("!", "!"), ("!!", Tag.standardStem)]

/-- The directives before a document. A version is given once and has to be 1 before the point; an
abbreviation is declared once. -/
def directives (hasVersion : Bool) (handles : List (String × String)) :
    Nat → Parse (List (String × String))
  | 0 => throw .malformed
  | fuel + 1 => do
    match ← peek with
    | .directive (.version major) => do
      skip
      if hasVersion ∨ major ≠ 1 then throw .malformed
      directives true handles fuel
    | .directive (.tag handle stem) => do
      skip
      if (handles.lookup handle).isSome then throw .malformed
      directives hasVersion ((handle, stem) :: handles) fuel
    | .directive .other => do
      skip
      directives hasVersion handles fuel
    | _ => return handles

/-- The beginning of a document that is marked as one. -/
def documentStart (fuel : Nat) : Parse Unit := do
  let handles ← directives false [] fuel
  modify fun p => { p with handles := handles ++ defaultHandles }
  expect .documentStart

def isDirective : Token → Bool
  | .directive _ => true
  | _ => false

/-- The node of a document, if there is one. -/
def document (fuel : Nat) : Parse (Option Nat) := do
  let t ← peek
  if t = .streamEnd then return none
  else if isDirective t ∨ t = .documentStart then
    documentStart fuel
    let t ← peek
    if isDirective t ∨ t ∈ [.documentStart, .documentEnd, .streamEnd] then return some (← emptyNode)
    else return some (← node true false fuel)
  else
    modify fun p => { p with handles := defaultHandles }
    return some (← node true false fuel)

def documentEnds : Nat → Parse Unit
  | 0 => return
  | fuel + 1 => do
    if ← accept .documentEnd then documentEnds fuel

/-- The node of a text that holds one document at most. -/
def stream (fuel : Nat) : Parse (Option Nat) := do
  let n ← document fuel
  if n.isNone then return none
  documentEnds fuel
  if (← peek) = .streamEnd then return n
  else
    documentStart fuel
    throw .malformed

end Parser

/-- The nodes that tokens make, and the number of the one that all others are within. The fault stands
behind the tokens, if they are not enough. There is no node in an empty text. -/
def Nodes.ofTokens (ts : List Token) (fault : Option Error) : Except Error (Option Nat × Nodes) := do
  let (n, p) ← (Parser.stream (2 * ts.length + 4)).run
    { tokens := ts, fault := fault.getD .malformed }
  return (n, p.nodes)

end Chip8.Yaml
