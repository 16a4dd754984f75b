import Chip8.Config.Basic
import Chip8.Config.Error
import Chip8.Document.Key
import Chip8.Screen.Color
import Chip8.Text.Upper

/-!
# Reading a configuration

`Config.ofDocument` reads a configuration from a document. Sections are checked one after the other,
and the entries of a section in their order; the first fault found is the answer.
-/

namespace Chip8.Config

open Document (Value lookup?)

/-- An integer, also as text in base ten or, after `0x`, in base sixteen. -/
def readInt : Value → Except Error Int
  | .int n => .ok n
  | .text t =>
    let base := match t.letters with
      | .char '0' :: .char c :: _ => if c = 'x' ∨ c = 'X' then 16 else 10
      | _ => 10
    (Text.Integer.parse base t).mapError .badLiteral
  | v => .error (.notAnInteger v)

/-- The integer of a name, if it is there. -/
def readIntOr (entries : List (Value × Value)) (name : String) (otherwise : Int) :
    Except Error Int :=
  match lookup? name entries with
  | none => .ok otherwise
  | some v => readInt v

/-- The points on which dialects differ, by name. -/
def choiceNames : List Text :=
  ["sprite_wrap", "stack_depth", "shift_uses_vy", "load_store_increments_i", "jump_uses_vx",
    "logic_resets_vf", "sys_is_fatal"]

/-- The choices between yes and no, by name. -/
def flags (d : Dialect) : List (String × Bool) :=
  [("sprite_wrap", d.spriteWrap), ("shift_uses_vy", d.shiftUsesVy),
    ("load_store_increments_i", d.loadStoreIncrementsI), ("jump_uses_vx", d.jumpUsesVx),
    ("logic_resets_vf", d.logicResetsVf), ("sys_is_fatal", d.sysIsFatal)]

def setFlag (d : Dialect) (name : String) (b : Bool) : Dialect :=
  match name with
  | "sprite_wrap" => { d with spriteWrap := b }
  | "shift_uses_vy" => { d with shiftUsesVy := b }
  | "load_store_increments_i" => { d with loadStoreIncrementsI := b }
  | "jump_uses_vx" => { d with jumpUsesVx := b }
  | "logic_resets_vf" => { d with logicResetsVf := b }
  | "sys_is_fatal" => { d with sysIsFatal := b }
  | _ => d

theorem flags_setFlag (d : Dialect) (name : String) (b : Bool) :
    flags (setFlag d name b) = (flags d).map fun (n, c) => (n, if n = name then b else c) := by
  unfold setFlag
  split <;> simp_all [flags, eq_comm]

/-- Make one choice of a dialect. -/
def readChoice (d : Dialect) (name : Text) (v : Value) : Except Error Dialect :=
  if name = "stack_depth" then do
    let n ← readInt v
    if n ≤ 0 then throw .depthNotPositive
    return { d with stackDepth := n }
  else
    match v with
    | .bool b => .ok (setFlag d (name.string?.getD "") b)
    | v => .error (.choiceNotBoolean name v)

def readChoices (d : Dialect) : List (Value × Value) → Except Error Dialect
  | [] => .ok d
  | (k, v) :: rest => do
    let name := match k with
      | .text t => t
      | _ => ""
    let d ← readChoice d name v
    readChoices d rest

/-- Each text once, in the order of the letters' numbers. -/
def sorted (names : List Text) : List Text := names.eraseDups.mergeSort Text.le

/-- The names among the values that are no names of choices. Values that cannot be names are a fault
of their own, but for the one kind of value that cannot even be compared. -/
def checkNames (names : List Value) : Except Error Unit := do
  if names.any (!·.canBeKey) then throw .noParts
  let unknown := names.filter fun
    | .text t => t ∉ choiceNames
    | _ => true
  let texts := unknown.filterMap fun
    | .text t => some t
    | _ => none
  if texts.length ≠ unknown.length then throw .noParts
  if texts ≠ [] then throw (.unknownChoices (sorted texts))

/-- The dialect of a section. A text counts as the row of its letters. -/
def readDialect (d : Document) (v : Value) : Except Error Dialect :=
  match v, d.part? v with
  | _, some (.map entries) => do
    checkNames (entries.map (·.1))
    readChoices {} entries
  | _, some (.list items) | _, some (.set items) => do
    checkNames items
    throw .noEntries
  | .text t, _ => do
    checkNames (t.letters.map fun l => .text ⟨[l]⟩)
    throw .noEntries
  | _, _ => throw .noParts

/-- Some text of the list is the name. -/
def hasItem (name : String) (items : List Value) : Bool :=
  items.any fun v => v.sameKey (.text name)

def isInfix (needle : List Letter) : List Letter → Bool
  | [] => needle.isEmpty
  | l :: rest => needle.isPrefixOf (l :: rest) || isInfix needle rest

/-- A color as text. Lists and mappings are none. -/
def readColor (entries : List (Value × Value)) (name : String) (otherwise : Text) :
    Except Error Text :=
  match lookup? name entries with
  | none => .ok otherwise
  | some v =>
    match v.plain? with
    | some t => if (Color.parse? t).isSome then .ok t else .error (.badColor v)
    | none => .error (.badColor v)

def displayNames : List String := ["on_color", "off_color", "scale"]

/-- The display of a section. A list or a text that does not speak of the display says nothing. -/
def readDisplay (d : Document) (v : Value) : Except Error Display :=
  match v, d.part? v with
  | _, some (.map entries) => do
    let onColor ← readColor entries "on_color" ({} : Display).onColor
    let offColor ← readColor entries "off_color" ({} : Display).offColor
    let scale ← readIntOr entries "scale" ({} : Display).scale
    if scale ≤ 0 then throw .scaleNotPositive
    return { onColor, offColor, scale }
  | _, some (.list items) | _, some (.set items) =>
    if displayNames.any (hasItem · items) then throw .noParts else return {}
  | .text t, _ =>
    if displayNames.any fun name => isInfix (Text.ofString name).letters t.letters then throw .noParts
    else return {}
  | _, _ => throw .noParts

/-- Give a name a key. A name that is there keeps its place. -/
def setKey (name : Text) (key : Int) : List (Text × Int) → List (Text × Int)
  | [] => [(name, key)]
  | (n, k) :: rest => if n = name then (n, key) :: rest else (n, k) :: setKey name key rest

def readKeys (keys : List (Text × Int)) : List (Value × Value) → Except Error (List (Text × Int))
  | [] => .ok keys
  | (k, v) :: rest => do
    let key ← readInt v
    if key < 0 ∨ 0xF < key then throw (.keyOutOfRange k v)
    let some name := k.plain? | throw .endlessName
    readKeys (setKey name.upper key keys) rest

def readKeyMap (d : Document) (v : Value) : Except Error (List (Text × Int)) :=
  match v, d.entries? v with
  | .null, _ => .ok defaultKeys
  | _, some entries => readKeys [] entries
  | _, none => throw .keyMapNotAMapping

/-- The value of a name, or no value. -/
def valueOf (entries : List (Value × Value)) (name : String) : Value :=
  (lookup? name entries).getD .null

/-- Read a section. One that says nothing counts as missing. -/
def readSection {α : Type} (d : Document) (v : Value) (missing : α)
    (read : Document → Value → Except Error α) : Except Error α :=
  if d.isEmpty v then .ok missing else read d v

def ofEntries (d : Document) (entries : List (Value × Value)) : Except Error Config := do
  let cpuHz ← readIntOr entries "cpu_hz" 700
  let timerHz ← readIntOr entries "timer_hz" 60
  if cpuHz ≤ 0 ∨ timerHz ≤ 0 then throw .ratesNotPositive
  let dialect ← readSection d (valueOf entries "quirks") {} readDialect
  let display ← readSection d (valueOf entries "display") {} readDisplay
  let keys ← readKeyMap d (valueOf entries "key_map")
  return { cpuHz, timerHz, dialect, display, keys, rom := { d with root := valueOf entries "rom_path" } }

/-- The configuration of a document that is a mapping. -/
def ofMapping (d : Document) : Except Error Config :=
  match d.entries? d.root with
  | some entries => ofEntries d entries
  | none => .error (.notAMapping d.root)

/-- The configuration of a document, which may be empty. -/
def ofDocument (d : Document) : Except Error Config :=
  if d.isEmpty d.root then ofEntries d [] else ofMapping d

end Chip8.Config
