/-!
# Text

A text is a row of letters. A letter is a character or half of a surrogate pair, which stands for no
character of its own; texts that come from outside may hold such halves. Readers of numbers and names
look at `Text.readable`, in which a replacement stands for each half.
-/

namespace Chip8

inductive Letter where
  | char (c : Char)
  /-- Half of a surrogate pair, by its distance from the first one. -/
  | half (n : Fin 0x800)
deriving DecidableEq, Repr, Inhabited

namespace Letter

/-- The number of a letter among the code points of Unicode. -/
def code : Letter → Nat
  | char c => c.toNat
  | half n => 0xD800 + n

/-- The letter of a code point below `0x110000`. -/
def ofCode (n : Nat) : Letter :=
  if h : 0xD800 ≤ n ∧ n < 0xE000 then half ⟨n - 0xD800, by omega⟩ else char (Char.ofNat n)

def char? : Letter → Option Char
  | char c => some c
  | half _ => none

/-- The character, or the one that replaces what is none. -/
def readable (l : Letter) : Char := l.char?.getD '\ufffd'

end Letter

structure Text where
  letters : List Letter
deriving DecidableEq, Repr, Inhabited

namespace Text

def ofChars (cs : List Char) : Text := ⟨cs.map .char⟩

def ofString (s : String) : Text := ofChars s.toList

instance : Coe String Text := ⟨ofString⟩

instance : Append Text := ⟨fun s t => ⟨s.letters ++ t.letters⟩⟩

def isEmpty (t : Text) : Bool := t.letters.isEmpty

/-- The characters, unless the text holds halves of surrogate pairs. -/
def chars? (t : Text) : Option (List Char) := t.letters.mapM Letter.char?

def string? (t : Text) : Option String := t.chars?.map String.ofList

def readable (t : Text) : List Char := t.letters.map Letter.readable

/-- Texts one after the other, with another one between them. -/
def intercalate (separator : Text) (ts : List Text) : Text :=
  ⟨separator.letters.intercalate (ts.map letters)⟩

/-- The order of texts by the numbers of their letters. -/
def le (s t : Text) : Bool := !(t.letters.map Letter.code).lex (s.letters.map Letter.code) fun a b => a < b

/-- The pieces between the letters that separate. -/
def splitOn (separator : Char) (t : Text) : List Text :=
  (t.letters.splitOn (.char separator)).map Text.mk

@[simp] theorem readable_ofChars (cs : List Char) : (ofChars cs).readable = cs := by
  simp [readable, ofChars, Function.comp_def, Letter.readable, Letter.char?]

@[simp] theorem chars?_ofChars (cs : List Char) : (ofChars cs).chars? = some cs := by
  induction cs with
  | nil => rfl
  | cons c cs ih =>
    simp only [chars?, ofChars, List.map_cons, List.mapM_cons] at ih ⊢
    simp [ih, Letter.char?]

theorem chars?_eq_some_iff {t : Text} {cs : List Char} : t.chars? = some cs ↔ t = ofChars cs := by
  refine ⟨fun h => ?_, fun h => h ▸ chars?_ofChars cs⟩
  obtain ⟨ls⟩ := t
  induction ls generalizing cs with
  | nil =>
    cases h
    rfl
  | cons l ls ih =>
    cases l with
    | half n => cases h
    | char c =>
      obtain ⟨cs', hcs, rfl⟩ : ∃ cs', (⟨ls⟩ : Text).chars? = some cs' ∧ c :: cs' = cs := by
        simpa [chars?, List.mapM_cons, Letter.char?, Option.bind_eq_some_iff] using h
      simpa [ofChars] using ih hcs

theorem string?_ofString (s : String) : (ofString s).string? = some s := by
  simp [string?, ofString]

theorem string?_eq_some_iff {t : Text} {s : String} : t.string? = some s ↔ t = s := by
  refine ⟨fun h => ?_, fun h => h ▸ string?_ofString s⟩
  obtain ⟨cs, hcs, rfl⟩ := Option.map_eq_some_iff.1 h
  rw [ofString, String.toList_ofList]
  exact chars?_eq_some_iff.1 hcs

theorem ofString_inj {s t : String} : ofString s = ofString t ↔ s = t := by
  refine ⟨fun h => ?_, congrArg _⟩
  simpa [string?_ofString] using congrArg string? h

end Text

end Chip8
