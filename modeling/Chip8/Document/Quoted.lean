import Chip8.Decimal.Text
import Chip8.Document
import Chip8.Text.Integer

/-!
# Values in messages

`Document.plain?` is a value as it stands alone in a message and `Document.quoted?` as it stands
within another one. A part that the shown value is within itself is cut short. There is no answer
where a number would be too long to be written.
-/

namespace Chip8.Document

def boolText (b : Bool) : String := if b then "True" else "False"

/-- A value that is no part, as it stands within another one. -/
def Value.quoted? : Value → Option String
  | null => some "None"
  | bool b => some (boolText b)
  | int n => Text.Integer.decimal? n
  | float x => some (Decimal.floatText x)
  | nan _ => some "nan"
  | text t => some t.quoted
  | bytes bs => some (Text.quotedBytes bs)
  | date d => some d.quoted
  | moment m => some m.quoted
  | part _ => none

/-- A value that is no part, on its own: text stands without quotes. -/
def Value.plain? : Value → Option Text
  | text t => some t
  | date d => some d.text
  | moment m => some m.text
  | v => v.quoted?.map .ofString

/-- A part in short. -/
def Part.short : Part → String
  | list _ => "[...]"
  | pair .. => "(...)"
  | set _ => "set(...)"
  | map _ => "\x7b...\x7d"

def inBraces (items : List String) : String := "\x7b" ++ ", ".intercalate items ++ "\x7d"

/-- A value within some parts, which are not shown again. The count bounds the values around it. -/
def quotedWithin (d : Document) : Nat → List Nat → Value → Option String
  | 0, _, _ => none
  | fuel + 1, around, .part n => do
    let p ← d.parts[n]?
    if n ∈ around then return p.short
    let within := quotedWithin d fuel (n :: around)
    match p with
    | .list items => return "[" ++ ", ".intercalate (← items.mapM within) ++ "]"
    | .pair k v => return "(" ++ (← within k) ++ ", " ++ (← within v) ++ ")"
    | .set [] => return "set()"
    | .set items => return inBraces (← items.mapM within)
    | .map entries =>
      return inBraces (← entries.mapM fun (k, v) => return (← within k) ++ ": " ++ (← within v))
  | _ + 1, _, v => v.quoted?

/-- A value as a part of another one. -/
def quoted? (d : Document) (v : Value) : Option String := d.quotedWithin (d.parts.size + 2) [] v

/-- A value on its own. -/
def plain? (d : Document) : Value → Option Text
  | .part n => (d.quoted? (.part n)).map .ofString
  | v => v.plain?

end Chip8.Document
