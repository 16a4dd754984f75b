import Chip8.Proofs.Config.Faults
import Chip8.Proofs.Text.Numeral

/-!
# Integers of a configuration

An integer may be written as it is, as text in base ten, and, unless it is negative, as text in base sixteen
behind `0x` (`Writes`). Whichever way is taken, it is read back, but for text of too many decimal digits;
what is neither an integer nor text is reported (`integers_parse_back`).
-/

namespace Chip8.Config

open Document (Value)
open Text.Integer (Spells maxDigits)

/-- A value stands for an integer, and takes so many decimal digits for it. -/
inductive Writes : Value → Int → Nat → Prop
  | int (n : Int) : Writes (.int n) n 0
  | decimal {cs : List Char} {n : Nat} (h : Spells 10 cs n) :
    Writes (.text (.ofChars cs)) n cs.length
  | negative {cs : List Char} {n : Nat} (h : Spells 10 cs n) :
    Writes (.text (.ofChars ('-' :: cs))) (-n) cs.length
  | hex {x : Char} {cs : List Char} {n : Nat} (hx : x = 'x' ∨ x = 'X') (h : Spells 16 cs n) :
    Writes (.text (.ofChars ('0' :: x :: cs))) n 0

variable {v : Value} {n : Int} {k : Nat} {cs : List Char} {x : Char}

/-- The usual text of an integer is one of its spellings. -/
theorem writes_toString (n : Int) :
    Writes (.text (toString n)) n (Nat.toDigits 10 n.natAbs).length := by
  have hspells : Spells 10 (Nat.toDigits 10 n.natAbs) n.natAbs :=
    Text.Integer.spells_toDigits (by decide) (by decide) n.natAbs
  unfold Text.ofString
  rw [Int.toString_eq_repr, Int.repr_eq_if]
  by_cases hn : 0 ≤ n
  · have hwrites := Writes.decimal hspells
    rw [show (n.natAbs : Int) = n by omega] at hwrites
    rw [if_pos hn, show n.toNat = n.natAbs by omega, Nat.toList_repr]
    exact hwrites
  · have hwrites := Writes.negative hspells
    rw [show -(n.natAbs : Int) = n by omega] at hwrites
    rw [if_neg hn, show (-n).toNat = n.natAbs by omega, String.toList_append, Nat.toList_repr]
    exact hwrites

theorem readInt_of_unmarked (h : ∀ x, x = 'x' ∨ x = 'X' → x ∉ cs) : readInt (.text (.ofChars cs)) =
    (Text.Integer.parse 10 (.ofChars cs)).mapError .badLiteral := by
  unfold readInt
  dsimp only
  split
  · rename_i c rest hletters
    have hc : Letter.char c ∈ (Text.ofChars cs).letters := by simp [hletters]
    rw [if_neg fun hx => h c hx (by simpa [Text.ofChars] using hc)]
  · rfl

theorem readInt_of_marked (hx : x = 'x' ∨ x = 'X') : readInt (.text (.ofChars ('0' :: x :: cs))) =
    (Text.Integer.parse 16 (.ofChars ('0' :: x :: cs))).mapError .badLiteral := by
  rcases hx with rfl | rfl <;> rfl

theorem not_mem_of_spells {m : Nat} (h : Spells 10 cs m) (hx : x = 'x' ∨ x = 'X') : x ∉ cs :=
  h.not_mem (by decide) (by decide) (by rcases hx with rfl | rfl <;> decide)

theorem mapError_limited (n : Int) (k : Nat) :
    (if maxDigits < k then .error (.tooLong k) else .ok n : Except Text.Integer.Error Int).mapError
        Error.badLiteral =
      if maxDigits < k then .error (.badLiteral (.tooLong k)) else .ok n := by
  split <;> rfl

theorem readInt_of_writes (h : Writes v n k) :
    readInt v = if maxDigits < k then .error (.badLiteral (.tooLong k)) else .ok n := by
  cases h with
  | int => rfl
  | decimal h =>
    rw [readInt_of_unmarked fun x hx => not_mem_of_spells h hx, Text.Integer.parse_decimal h,
      mapError_limited]
  | negative h =>
    have hno : ∀ x, x = 'x' ∨ x = 'X' → x ∉ '-' :: _ := fun x hx =>
      List.not_mem_cons_of_ne_of_not_mem (by rcases hx with rfl | rfl <;> decide)
        (not_mem_of_spells h hx)
    rw [readInt_of_unmarked hno, Text.Integer.parse_negative h, mapError_limited]
  | hex hx h =>
    rw [readInt_of_marked hx, Text.Integer.parse_hex hx h]
    rfl

/-- Every spelling of an integer is read as the integer, unless it takes more decimal digits than are read.
No other kind of value is taken for an integer. -/
theorem integers_parse_back (v : Value) :
    (∀ n k, Writes v n k →
      readInt v = if maxDigits < k then .error (.badLiteral (.tooLong k)) else .ok n) ∧
    ((∀ n, v ≠ .int n) → ¬ v.IsText →
      readInt v = .error (.notAnInteger v) ∧ (Error.notAnInteger v).Reported) := by
  refine ⟨fun n k h => readInt_of_writes h, fun hi ht => ⟨?_, trivial⟩⟩
  cases v with
  | int n => exact absurd rfl (hi n)
  | text t => exact absurd ⟨t, rfl⟩ ht
  | _ => rfl

theorem integers_parse_back_in_mixed_case :
    Writes (.text "0X00fF") 255 0 ∧ readInt (.text "0X00fF") = .ok 255 ∧
      readInt (.float 1) = .error (.notAnInteger (.float 1)) := by
  have hspells : Spells 16 ['0', '0', 'f', 'F'] 255 := ⟨2, by decide⟩
  have hwrites : Writes (.text "0X00fF") 255 0 := .hex (.inr rfl) hspells
  obtain ⟨hread, -⟩ := integers_parse_back (.text "0X00fF")
  obtain ⟨-, hother⟩ := integers_parse_back (.float 1)
  exact ⟨hwrites, hread 255 0 hwrites, (hother nofun nofun).1⟩

end Chip8.Config
