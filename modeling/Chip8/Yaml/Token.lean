import Chip8.Text

/-!
# Tokens

The units into which a text is cut: marks, names and scalars, and between them the marks that stand
for a change of indentation.
-/

namespace Chip8.Yaml

inductive Directive where
  | version (major : Int)
  /-- An abbreviation for the beginning of tags. -/
  | tag (handle stem : String)
  | other
deriving DecidableEq, Repr

inductive Token where
  | directive (d : Directive)
  | documentStart
  | documentEnd
  | streamEnd
  | blockSequenceStart
  | blockMappingStart
  | blockEnd
  | flowSequenceStart
  | flowSequenceEnd
  | flowMappingStart
  | flowMappingEnd
  | blockEntry
  | flowEntry
  | key
  | value
  | alias (name : String)
  | anchor (name : String)
  /-- A tag, with the abbreviation that it begins with. -/
  | tag (handle : Option String) (suffix : String)
  /-- A scalar, and whether it stands without quotes and marks. -/
  | scalar (text : Text) (isPlain : Bool)
deriving DecidableEq, Repr

end Chip8.Yaml
