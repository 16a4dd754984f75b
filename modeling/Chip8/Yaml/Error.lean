import Chip8.Document.Calendar
import Chip8.Text.Integer

/-!
# What a text can be wrong about
-/

namespace Chip8.Yaml

inductive Error where
  /-- The text is not in the format. -/
  | malformed
  /-- The bytes are no text. -/
  | notText
  | badInteger (e : Text.Integer.Error)
  | badCalendar (e : Document.Calendar.Error)
  /-- A text that is said to be a number with a fraction and is none. -/
  | badFraction (text : Text)
  /-- A text that is said to be a yes or a no and is neither. -/
  | badBool (text : Text)
  /-- A text that is said to be a number and is empty. -/
  | emptyNumber
  /-- A place of a number that is worth more than any number with a fraction. -/
  | hugePlace
  /-- A text that is said to be a time and is none. -/
  | badTime
  /-- A mapping that is said to be a time. -/
  | timeInParts
  /-- A mapping that is said to be a scalar, for which it stands itself. -/
  | endless
  /-- The number of a character beyond the last one. -/
  | badCharacter
  /-- The number of a character that does not fit into thirty-one bits. -/
  | hugeCharacter

def Error.message : Error → String
  | malformed => "The text is not in the format."
  | notText => "The bytes are no text."
  | badInteger e => e.message
  | badCalendar e => e.message
  | badFraction text => "could not convert string to float: " ++ text.quoted
  | badBool text => text.quoted
  | emptyNumber => "string index out of range"
  | hugePlace => "int too large to convert to float"
  | badTime => "The text is no time."
  | timeInParts => "A mapping is no time."
  | endless => "maximum recursion depth exceeded"
  | badCharacter => "chr() arg not in range(0x110000)"
  | hugeCharacter => "The number of a character has more than thirty-one bits."

end Chip8.Yaml
