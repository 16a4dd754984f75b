import Mathlib.Algebra.Group.Nat.Defs
import Chip8.Text.Integer

/-!
# What is read as an integer

A literal that is read is a sign, if any, and digits of the base (`exists_digits_of_parse`). So few
letters make a small number (`ofDigits_lt`, `length_digits?_le`).
-/

namespace Chip8.Text.Integer

variable {base d : Nat} {c : Char} {cs left : List Char} {ds : List Nat} {t : Text} {n : Int}

theorem lt_of_digitBelow? (h : digitBelow? base c = some d) : d < base := by
  obtain ⟨-, hd⟩ := Option.filter_eq_some_iff.1 h
  simpa using hd

theorem foldl_digits_lt (h : ∀ d ∈ ds, d < base) (n : Nat) :
    ds.foldl (fun n d => base * n + d) n < (n + 1) * base ^ ds.length := by
  induction ds generalizing n with
  | nil => simp
  | cons d ds ih =>
    obtain ⟨hd, hds⟩ := List.forall_mem_cons.1 h
    have hstep : base * n + d + 1 ≤ (n + 1) * base := by
      rw [Nat.add_mul, Nat.one_mul, Nat.mul_comm n]
      omega
    calc ds.foldl (fun n d => base * n + d) (base * n + d)
        < (base * n + d + 1) * base ^ ds.length := ih hds _
      _ ≤ (n + 1) * base * base ^ ds.length := Nat.mul_le_mul_right _ hstep
      _ = (n + 1) * base ^ (ds.length + 1) := by rw [Nat.pow_succ, Nat.mul_assoc, Nat.mul_comm base]

theorem ofDigits_lt (h : ∀ d ∈ ds, d < base) : ofDigits base ds < base ^ ds.length := by
  simpa [ofDigits] using foldl_digits_lt h 0

theorem lt_of_digits? (h : digits? base cs = some (ds, left)) : ∀ d ∈ ds, d < base := by
  unfold digits? at h
  dsimp only at h
  split at h
  · cases h
    intro d hd
    obtain ⟨c, -, hc⟩ := List.mem_filterMap.1 hd
    exact lt_of_digitBelow? hc
  · cases h

theorem length_digits?_le (h : digits? base cs = some (ds, left)) : ds.length ≤ cs.length := by
  unfold digits? at h
  dsimp only at h
  split at h
  · cases h
    exact Nat.le_trans (List.length_filterMap_le _ _) (List.takeWhile_sublist _).length_le
  · cases h

theorem digits?_singleton (base : Nat) (c : Char) :
    digits? base [c] = (digitBelow? base c).map fun d => ([d], []) := by
  cases h : digitBelow? base c with
  | some d =>
    have hne : c ≠ '_' := by
      rintro rfl
      simp [digitBelow?, show digitValue? '_' = none by decide] at h
    simp [digits?, wellSpaced, h, hne]
  | none => by_cases hc : c = '_' <;> simp [digits?, wellSpaced, h, hc]

theorem length_dropMark_le (base : Nat) (cs : List Char) : (dropMark base cs).length ≤ cs.length := by
  unfold dropMark
  split
  · split
    · split <;> simp <;> omega
    · exact Nat.le_refl _
  · exact Nat.le_refl _

/-- A minus is taken off, or there is none. -/
theorem dropSign_cases (cs : List Char) :
    (∃ rest, cs = '-' :: rest ∧ dropSign cs = (true, rest)) ∨
      ((dropSign cs).1 = false ∧ (dropSign cs).2.length ≤ cs.length) := by
  unfold dropSign
  split
  · exact .inl ⟨_, rfl, rfl⟩
  · exact .inr ⟨rfl, by simp⟩
  · exact .inr ⟨rfl, Nat.le_refl _⟩

theorem exists_digits_of_parse (h : parse base t = .ok n) :
    ∃ negative cs ds left, dropSign (t.readable.dropWhile isBlank) = (negative, cs) ∧
      digits? base (dropMark base cs) = some (ds, left) ∧
      n = if negative then -(ofDigits base ds : Int) else ofDigits base ds := by
  unfold parse at h
  rcases hs : dropSign (t.readable.dropWhile isBlank) with ⟨negative, cs⟩
  rw [hs] at h
  cases hd : digits? base (dropMark base cs) with
  | none => simp [hd] at h
  | some p =>
    obtain ⟨ds, left⟩ := p
    refine ⟨negative, cs, ds, left, rfl, hd, ?_⟩
    simp only [hd] at h
    split at h
    · cases h
    · split at h
      · cases h
        rfl
      · cases h

end Chip8.Text.Integer
