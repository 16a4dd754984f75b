import Chip8.Document.Calendar
import Chip8.Text.Integer

/-!
# Dates and times in a text

A date is three numbers between dashes. A time may follow it behind a letter or blanks, and behind
the time its distance from universal time. The numbers are not yet checked against the calendar.
-/

namespace Chip8.Yaml

open Document (Date Moment)

inductive Timestamp where
  | date (d : Date)
  | moment (m : Moment)
deriving DecidableEq, Repr

namespace Timestamp

/-- A number with a least and a greatest count of digits, and the rest. -/
def number? (least most : Nat) (cs : List Char) : Option (Nat × List Char) :=
  let run := (cs.take most).takeWhile Char.isDigit
  if run.length < least then none
  else some (Text.Integer.ofDigits 10 (run.filterMap Text.decimalValue?), cs.drop run.length)

/-- What follows a character that has to be there. -/
def behind? (c : Char) : List Char → Option (List Char)
  | [] => none
  | d :: cs => if d = c then some cs else none

def isGap (c : Char) : Bool := c = ' ' || c = '\t'

/-- What follows the mark between date and time. -/
def behindGap? : List Char → Option (List Char)
  | [] => none
  | c :: cs =>
    if c = 'T' ∨ c = 't' then some cs
    else if isGap c then some (cs.dropWhile isGap)
    else none

/-- The millionths of a second behind a point, cut off after six digits, and the rest. -/
def fraction (cs : List Char) : Nat × List Char :=
  match behind? '.' cs with
  | none => (0, cs)
  | some cs =>
    let ds := ((cs.takeWhile Char.isDigit).filterMap Text.decimalValue?).take 6
    (Text.Integer.ofDigits 10 (ds ++ List.replicate (6 - ds.length) 0), cs.dropWhile Char.isDigit)

/-- The distance from universal time in minutes, at the end of a text. -/
def offset? (cs : List Char) : Option (Option Int) :=
  match cs.dropWhile isGap with
  | [] => if cs.isEmpty then some none else none
  | 'Z' :: rest => if rest.isEmpty then some (some 0) else none
  | c :: rest => do
    if c ≠ '+' ∧ c ≠ '-' then none
    let (hours, rest) ← number? 1 2 rest
    let (minutes, rest) ← if rest.isEmpty then some (0, rest) else behind? ':' rest >>= number? 2 2
    if !rest.isEmpty then none
    let n : Int := 60 * hours + minutes
    return some (if c = '-' then -n else n)

def parse? (cs : List Char) : Option Timestamp := do
  let (year, cs) ← number? 4 4 cs
  let (month, cs) ← behind? '-' cs >>= number? 1 2
  let (day, cs) ← behind? '-' cs >>= number? 1 2
  let date : Date := ⟨year, month, day⟩
  if cs.isEmpty then return .date date
  let (hour, cs) ← behindGap? cs >>= number? 1 2
  let (minute, cs) ← behind? ':' cs >>= number? 2 2
  let (second, cs) ← behind? ':' cs >>= number? 2 2
  let (micro, cs) := fraction cs
  let offset ← offset? cs
  return .moment { date, hour, minute, second, micro, offset }

end Timestamp

end Chip8.Yaml
