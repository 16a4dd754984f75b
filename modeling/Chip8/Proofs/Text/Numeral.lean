import Mathlib.Data.List.Basic
import Mathlib.Data.List.TakeWhile
import Chip8.Proofs.Text.Integer

/-!
# Written numbers are read back

The digits of a number may have zeros in front of them and letters of either case (`Spells`). In bases up to
sixteen they are read as the number (`digits?_of_spells`), and so are the literals made of them: one in base
ten, with a minus or without, up to the limit on its digits (`parse_decimal`, `parse_negative`), and one in
base sixteen behind its mark, of any length (`parse_hex`).
-/

namespace Chip8.Text.Integer

/-- Characters are the digits of a number in a base, with zeros in front and letters of either case. -/
def Spells (base : Nat) (cs : List Char) (n : Nat) : Prop :=
  ∃ zeros, cs.map Char.toLower = List.replicate zeros '0' ++ Nat.toDigits base n

/-- The characters that have a meaning of their own in a literal. -/
def marks : List Char := ['-', '+', '_', 'x', 'X']

variable {base d n : Nat} {c x : Char} {cs rest : List Char} {ds : List Nat} {t : Text}

/-! ### One digit -/

/-- What does not tell capitals from small letters tells no letter from its small one. -/
theorem apply_toLower {α : Type} (f : Char → α)
    (h : ∀ k ∈ List.range' 65 26, f (Char.ofNat k).toLower = f (Char.ofNat k)) (c : Char) :
    f c.toLower = f c := by
  by_cases hc : c.val ≥ 'A'.val ∧ c.val ≤ 'Z'.val
  · have hle : 65 ≤ c.toNat ∧ c.toNat ≤ 90 := hc
    simpa only [Char.ofNat_toNat] using h c.toNat (List.mem_range'_1.2 (by omega))
  · have hsame : c.toLower = c := dif_neg hc
    rw [hsame]

theorem digitBelow?_toLower (base : Nat) (c : Char) :
    digitBelow? base c.toLower = digitBelow? base c := by
  unfold digitBelow?
  rw [apply_toLower digitValue? (by decide)]

theorem isBlank_toLower (c : Char) : isBlank c.toLower = isBlank c :=
  apply_toLower isBlank (by decide) c

theorem digitBelow?_digitChar (hd : d < base) (hb : base ≤ 16) :
    digitBelow? base (Nat.digitChar d) = some d := by
  have hvalue : ∀ d < 16, digitValue? (Nat.digitChar d) = some d := by decide
  unfold digitBelow?
  rw [hvalue d (by omega)]
  simpa [Option.filter] using hd

theorem plain_of_toLower (hd : d < 16) (h : c.toLower = Nat.digitChar d) :
    isBlank c = false ∧ c ∉ marks := by
  have hblank : ∀ d < 16, isBlank (Nat.digitChar d) = false := by decide
  have hmarks : marks.all fun m => digitBelow? 16 m = none := by decide
  refine ⟨by rw [← isBlank_toLower, h, hblank d hd], fun hm => ?_⟩
  have hnone : digitBelow? 16 c = none := by simpa using List.all_eq_true.1 hmarks c hm
  rw [← digitBelow?_toLower, h, digitBelow?_digitChar hd (Nat.le_refl 16)] at hnone
  cases hnone

/-! ### All digits -/

theorem ofDigits_append_singleton (base : Nat) (ds : List Nat) (d : Nat) :
    ofDigits base (ds ++ [d]) = base * ofDigits base ds + d := by
  simp [ofDigits]

theorem ofDigits_zeros_append (zeros : Nat) (ds : List Nat) :
    ofDigits base (List.replicate zeros 0 ++ ds) = ofDigits base ds := by
  induction zeros with
  | zero => rfl
  | succ zeros ih => simpa [ofDigits, List.replicate_succ] using ih

theorem exists_toDigits (hb : 1 < base) (n : Nat) :
    ∃ ds, Nat.toDigits base n = ds.map Nat.digitChar ∧ (∀ d ∈ ds, d < base) ∧
      ofDigits base ds = n := by
  induction n using Nat.base_induction base hb with
  | single m hm =>
    exact ⟨[m], Nat.toDigits_of_lt_base hm, by simpa using hm, by simp [ofDigits]⟩
  | digit m k hk hm ih =>
    obtain ⟨ds, hds, hlt, rfl⟩ := ih
    refine ⟨ds ++ [k], ?_, ?_, ofDigits_append_singleton base ds k⟩
    · rw [← Nat.toDigits_append_toDigits hb hm hk, hds, Nat.toDigits_of_lt_base hk, List.map_append]
      rfl
    · exact List.forall_mem_append.2 ⟨hlt, by simpa using hk⟩

/-- A number is spelled by its digits alone. -/
theorem spells_toDigits (hb : 1 < base) (hb' : base ≤ 16) (n : Nat) :
    Spells base (Nat.toDigits base n) n := by
  have hlower : ∀ d < 16, (Nat.digitChar d).toLower = Nat.digitChar d := by decide
  obtain ⟨ds, hds, hlt, -⟩ := exists_toDigits hb n
  refine ⟨0, ?_⟩
  rw [hds, List.map_map]
  exact List.map_congr_left fun d hd => hlower d (Nat.lt_of_lt_of_le (hlt d hd) hb')

namespace Spells

theorem ne_nil (h : Spells base cs n) : cs ≠ [] := by
  obtain ⟨zeros, hcs⟩ := h
  rintro rfl
  simp at hcs

theorem exists_digits (hb : 1 < base) (h : Spells base cs n) :
    ∃ ds, cs.map Char.toLower = ds.map Nat.digitChar ∧ (∀ d ∈ ds, d < base) ∧
      ofDigits base ds = n := by
  obtain ⟨zeros, hcs⟩ := h
  obtain ⟨ds, hds, hlt, hval⟩ := exists_toDigits hb n
  refine ⟨List.replicate zeros 0 ++ ds, ?_, ?_, (ofDigits_zeros_append zeros ds).trans hval⟩
  · rw [hcs, hds, List.map_append, List.map_replicate]
    rfl
  · intro d hd
    rcases List.mem_append.1 hd with hd | hd
    · rw [List.eq_of_mem_replicate hd]
      omega
    · exact hlt d hd

theorem exists_digit (hb : 1 < base) (h : Spells base cs n) (hc : c ∈ cs) :
    ∃ d < base, c.toLower = Nat.digitChar d := by
  obtain ⟨ds, hds, hlt, -⟩ := h.exists_digits hb
  have hmem : c.toLower ∈ ds.map Nat.digitChar := hds ▸ List.mem_map_of_mem hc
  obtain ⟨d, hd, hcd⟩ := List.mem_map.1 hmem
  exact ⟨d, hlt d hd, hcd.symm⟩

theorem plain (hb : 1 < base) (hb' : base ≤ 16) (h : Spells base cs n) (hc : c ∈ cs) :
    isBlank c = false ∧ c ∉ marks := by
  obtain ⟨d, hd, hcd⟩ := h.exists_digit hb hc
  exact plain_of_toLower (by omega) hcd

theorem not_mem (hb : 1 < base) (hb' : base ≤ 16) (h : Spells base cs n) (hm : c ∈ marks) : c ∉ cs :=
  fun hc => (h.plain hb hb' hc).2 hm

theorem filterMap_digitBelow? (hb : 1 < base) (hb' : base ≤ 16) (h : Spells base cs n) :
    (cs.filterMap (digitBelow? base)).length = cs.length ∧
      ofDigits base (cs.filterMap (digitBelow? base)) = n := by
  obtain ⟨ds, hds, hlt, hval⟩ := h.exists_digits hb
  have hread : cs.filterMap (digitBelow? base) = ds := calc
    cs.filterMap (digitBelow? base) = (cs.map Char.toLower).filterMap (digitBelow? base) := by
      simp [List.filterMap_map, digitBelow?_toLower]
    _ = ds.filterMap fun d => digitBelow? base (Nat.digitChar d) := by
      rw [hds, List.filterMap_map]
      rfl
    _ = ds.map id := List.filterMap_eq_map_iff_forall_eq_some.2 fun d hd =>
      digitBelow?_digitChar (hlt d hd) hb'
    _ = ds := List.map_id ds
  rw [hread]
  exact ⟨by simpa using (congrArg List.length hds).symm, hval⟩

end Spells

theorem wellSpaced_of_not_mem (hne : cs ≠ []) (h : '_' ∉ cs) : wellSpaced cs = true := by
  have hmem : ∀ c ∈ cs, c ≠ '_' := fun c hc hu => h (hu ▸ hc)
  unfold wellSpaced
  rw [List.head?_eq_some_head hne, List.getLast?_eq_some_getLast hne]
  simp only [Option.any_some, Bool.and_eq_true, decide_eq_true_eq, List.all_eq_true]
  refine ⟨⟨hmem _ (List.head_mem hne), hmem _ (List.getLast_mem hne)⟩, fun p hp => ?_⟩
  simpa using .inl (hmem _ (List.of_mem_zip hp).1)

theorem digits?_of_spells (hb : 1 < base) (hb' : base ≤ 16) (h : Spells base cs n) :
    digits? base cs = some (cs.filterMap (digitBelow? base), []) := by
  have hbelongs : ∀ c ∈ cs, (c = '_' || (digitBelow? base c).isSome) = true := by
    intro c hc
    obtain ⟨d, hd, hcd⟩ := h.exists_digit hb hc
    rw [← digitBelow?_toLower, hcd, digitBelow?_digitChar hd hb']
    simp
  have hspaced : wellSpaced cs = true :=
    wellSpaced_of_not_mem h.ne_nil (h.not_mem hb hb' (by decide))
  unfold digits?
  dsimp only
  rw [List.takeWhile_eq_self_iff.2 hbelongs, List.dropWhile_eq_nil_iff.2 hbelongs, if_pos hspaced]

/-! ### The literal around the digits -/

theorem dropSign_of_spells (hb : 1 < base) (hb' : base ≤ 16) (h : Spells base cs n) :
    dropSign (cs.dropWhile isBlank) = (false, cs) := by
  cases cs with
  | nil => exact absurd rfl h.ne_nil
  | cons c rest =>
    obtain ⟨hblank, hmarks⟩ := h.plain hb hb' List.mem_cons_self
    rw [List.dropWhile_cons_of_neg (by simp [hblank])]
    unfold dropSign
    split
    · exact absurd (by simp_all [marks]) hmarks
    · exact absurd (by simp_all [marks]) hmarks
    · rfl

theorem dropMark_ten (cs : List Char) : dropMark 10 cs = cs := by
  unfold dropMark
  split
  · cases ‹baseMark? 10 = some _›
  · rfl

theorem dropMark_sixteen (hx : x = 'x' ∨ x = 'X') (h : '_' ∉ cs) :
    dropMark 16 ('0' :: x :: cs) = cs := by
  have hmark : decimalValue? '0' = some 0 ∧ x.toLower = 'x' := by
    rcases hx with rfl | rfl <;> decide
  unfold dropMark
  simp only [baseMark?, if_pos hmark]
  split
  · simp at h
  · rfl

theorem parse_of_spells {negative : Bool} (hb : 1 < base) (hb' : base ≤ 16) (h : Spells base cs n)
    (hs : dropSign (t.readable.dropWhile isBlank) = (negative, rest)) (hm : dropMark base rest = cs) :
    parse base t =
      if base = 10 ∧ maxDigits < cs.length then .error (.tooLong cs.length)
      else .ok (if negative then -n else n) := by
  obtain ⟨hlen, hval⟩ := h.filterMap_digitBelow? hb hb'
  unfold parse
  rw [hs]
  dsimp only
  rw [hm, digits?_of_spells hb hb' h]
  dsimp only
  rw [hlen, hval]
  rfl

theorem parse_decimal (h : Spells 10 cs n) : parse 10 (ofChars cs) =
    if maxDigits < cs.length then .error (.tooLong cs.length) else .ok n := by
  have hs : dropSign ((ofChars cs).readable.dropWhile isBlank) = (false, cs) := by
    rw [readable_ofChars, dropSign_of_spells (by decide) (by decide) h]
  simpa using parse_of_spells (by decide) (by decide) h hs (dropMark_ten cs)

theorem parse_negative (h : Spells 10 cs n) : parse 10 (ofChars ('-' :: cs)) =
    if maxDigits < cs.length then .error (.tooLong cs.length) else .ok (-n) := by
  have hs : dropSign ((ofChars ('-' :: cs)).readable.dropWhile isBlank) = (true, cs) := by
    rw [readable_ofChars]
    rfl
  simpa using parse_of_spells (by decide) (by decide) h hs (dropMark_ten cs)

theorem parse_hex (hx : x = 'x' ∨ x = 'X') (h : Spells 16 cs n) :
    parse 16 (ofChars ('0' :: x :: cs)) = .ok n := by
  have hs : dropSign ((ofChars ('0' :: x :: cs)).readable.dropWhile isBlank) =
      (false, '0' :: x :: cs) := by
    rw [readable_ofChars]
    rfl
  have hm : dropMark 16 ('0' :: x :: cs) = cs :=
    dropMark_sixteen hx (h.not_mem (by decide) (by decide) (by decide))
  simpa using parse_of_spells (by decide) (by decide) h hs hm

end Chip8.Text.Integer
