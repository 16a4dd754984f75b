import Chip8.Text.Hex
import Mathlib.Data.Nat.Digits.Defs
import Mathlib.Tactic.IntervalCases

/-!
# The two ways of writing a number in base sixteen

Where a mark and the digits of a number fill the width of `padded`, it writes the digits that `fixed`
writes, in small letters. What `fixed` writes can be read back (`value_fixedChars`).
-/

namespace Chip8.Text.Hex

/-! ### Reading digits back -/

/-- What a capital digit is worth. -/
def digit (c : Char) : Nat := if c ≤ '9' then c.toNat - '0'.toNat else c.toNat - 'A'.toNat + 10

/-- The number that capital digits stand for. -/
def value (cs : List Char) : Nat := cs.foldl (fun n c => 16 * n + digit c) 0

theorem digit_capital {d : Nat} (h : d < 16) : digit (capital d) = d := by
  interval_cases d <;> rfl

theorem value_fixedChars {k n : Nat} (h : n < 16 ^ k) : value (fixedChars k n) = n := by
  induction k generalizing n with
  | zero => exact (Nat.lt_one_iff.1 h).symm
  | succ k ih =>
    have hlast : digit (capital (n % 16)) = n % 16 := digit_capital (Nat.mod_lt n (by decide))
    have hinit : value (fixedChars k (n / 16)) = n / 16 :=
      ih (Nat.div_lt_of_lt_mul (by rwa [pow_succ'] at h))
    unfold value at hinit ⊢
    rw [fixedChars, List.foldl_append, hinit, List.foldl_cons, List.foldl_nil, hlast]
    omega

theorem exists_capital_of_mem {c : Char} {k n : Nat} (h : c ∈ fixedChars k n) :
    ∃ d < 16, c = capital d := by
  induction k generalizing n with
  | zero => cases h
  | succ k ih =>
    rcases List.mem_append.1 h with h | h
    · exact ih h
    · exact ⟨n % 16, Nat.mod_lt n (by decide), List.mem_singleton.1 h⟩

/-! ### The same digits with a mark -/

theorem toLower_capital {d : Nat} (h : d < 16) : (capital d).toLower = Nat.digitChar d := by
  interval_cases d <;> rfl

theorem map_toLower_fixedChars {k n : Nat} (h : n < 16 ^ (k + 1)) :
    (fixedChars (k + 1) n).map Char.toLower =
      List.replicate (k + 1 - (Nat.toDigits 16 n).length) '0' ++ Nat.toDigits 16 n := by
  have hlast : (capital (n % 16)).toLower = Nat.digitChar (n % 16) :=
    toLower_capital (Nat.mod_lt n (by decide))
  induction k generalizing n with
  | zero =>
    have hn : n < 16 := h
    rw [Nat.toDigits_of_lt_base hn]
    show [(capital (n % 16)).toLower] = [Nat.digitChar n]
    rw [hlast, Nat.mod_eq_of_lt hn]
  | succ k ih =>
    have hquot : n / 16 < 16 ^ (k + 1) := Nat.div_lt_of_lt_mul (by rwa [pow_succ'] at h)
    rw [fixedChars, List.map_append, ih hquot (toLower_capital (Nat.mod_lt _ (by decide)))]
    show _ ++ [(capital (n % 16)).toLower] = _
    rw [hlast]
    by_cases hn : n < 16
    · -- the quotient is written as one more zero
      rw [Nat.div_eq_of_lt hn, Nat.mod_eq_of_lt hn, Nat.toDigits_of_lt_base hn]
      show (List.replicate k '0' ++ ['0']) ++ _ = List.replicate (k + 1) '0' ++ _
      rw [← List.replicate_succ']
    · have hsplit : Nat.toDigits 16 n = Nat.toDigits 16 (n / 16) ++ [Nat.digitChar (n % 16)] := by
        rw [Nat.toDigits_eq_if (by decide), if_neg hn]
      have hlen : k + 1 + 1 - ((Nat.toDigits 16 (n / 16)).length + 1) =
          k + 1 - (Nat.toDigits 16 (n / 16)).length := by omega
      rw [hsplit, List.length_append, List.length_singleton, hlen, List.append_assoc]

theorem padded_eq {k : Nat} {a : Int} (h : 0 ≤ a) (ha : a.toNat < 16 ^ (k + 1)) :
    padded (k + 3) a = "0x" ++ (fixed (k + 1) a.toNat).map Char.toLower := by
  have habs : a.natAbs = a.toNat := by omega
  have hmap : (fixed (k + 1) a.toNat).map Char.toLower =
      String.ofList (List.replicate (k + 1 - (Nat.toDigits 16 a.toNat).length) '0' ++
        Nat.toDigits 16 a.toNat) := by
    rw [← map_toLower_fixedChars ha, ← String.toList_inj, String.toList_map]
    unfold fixed
    rw [String.toList_ofList, String.toList_ofList]
  have hwidth (l : Nat) : k + 3 - (0 + 2 + l) = k + 1 - l := by omega
  unfold padded
  rw [if_neg (by omega), habs, hmap]
  dsimp only
  rw [String.length_empty, hwidth, String.empty_append]

end Chip8.Text.Hex
