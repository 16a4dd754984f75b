import Chip8.Document.Quoted

/-!
# What a configuration can be wrong about

The values at fault may refer to parts of the document, so that a message needs the document too.
-/

namespace Chip8.Config

open Document (Value)

inductive Error where
  | notAMapping (v : Value)
  | notAnInteger (v : Value)
  | badLiteral (e : Text.Integer.Error)
  | ratesNotPositive
  | unknownChoices (names : List Text)
  | choiceNotBoolean (name : Text) (v : Value)
  | depthNotPositive
  | badColor (v : Value)
  | scaleNotPositive
  | keyMapNotAMapping
  | keyOutOfRange (name v : Value)
  /-- The name of a key is a number that is too long to be written. -/
  | endlessName
  /-- A section is of a type that has no parts, or of one that has no names. -/
  | noParts
  /-- A section is a list of the right names without values. -/
  | noEntries

/-- A number too long to be written has the message be about itself. -/
def Error.message (d : Document) (e : Error) : Text :=
  let said : Option Text := match e with
    | notAMapping v => some ("System config must be a mapping, got " ++ d.typeName v ++ ".")
    | notAnInteger v => (d.plain? v).map ("Invalid integer format: " ++ ·)
    | badLiteral e => some e.message
    | ratesNotPositive => some "cpu_hz and timer_hz must be positive."
    | unknownChoices names => some ("Unknown quirk(s): " ++ Text.intercalate ", " names)
    | choiceNotBoolean name v =>
      (d.quoted? v).map fun s => "Quirk '" ++ name ++ "' must be a boolean, got " ++ s ++ "."
    | depthNotPositive => some "stack_depth must be positive."
    | badColor v => (d.plain? v).map ("Invalid color format: " ++ ·)
    | scaleNotPositive => some "display.scale must be positive."
    | keyMapNotAMapping => some "key_map must be a mapping of key names to 0x0-0xF."
    | keyOutOfRange name v => do
      return "Key map entry '" ++ (← d.plain? name) ++ "' must be in 0x0-0xF, got " ++
        (← d.quoted? v) ++ "."
    | endlessName => none
    | noParts => some "The section has no named parts."
    | noEntries => some "The section has no entries."
  said.getD Text.Integer.unwritten

end Chip8.Config
