import Chip8.Proofs.Screen.Strokes
import Chip8.Proofs.Screen.Overhang
import Mathlib.Data.Finset.Card
import Mathlib.Data.Finset.Prod
import Mathlib.Data.Int.Bitwise
import Mathlib.Data.List.Nodup
import Mathlib.Data.Nat.ModEq

/-!
# The cells under a sprite

Each bit of a sprite has a place of its own (`landing?`), and the set bits that fall on one cell can be
counted (`bitsOn`). Drawing inverts the cells with an odd count (`draw_inverts_odd_cells`).

No lit cell is met if the cells under the sprite are dark and distinct (`hit_flipAll_eq_false_iff`).
Where they are distinct, a lit one goes dark.
-/

namespace Chip8

theorem Bits.test_eq_testBit (a : Int) (k : Nat) : Bits.test a k = a.testBit k := by
  have hpow : (0 : Int) < (2 ^ k : Nat) := by
    have := Nat.two_pow_pos k
    omega
  show decide (a / ((2 ^ k : Nat) : Int) % 2 = 1) = a.testBit k
  cases a with
  | ofNat m =>
    show decide ((m : Int) / ((2 ^ k : Nat) : Int) % 2 = 1) = m.testBit k
    rw [Nat.testBit_eq_decide_div_mod_eq, ← Int.natCast_ediv]
    exact decide_eq_decide.2 (by omega)
  | negSucc m =>
    show _ = !m.testBit k
    rw [Nat.testBit_eq_decide_div_mod_eq, Int.negSucc_ediv _ hpow, ← decide_not]
    have hdiv : (m : Int).ediv (2 ^ k : Nat) = (m / 2 ^ k : Nat) := rfl
    rw [hdiv]
    exact decide_eq_decide.2 (by omega)

namespace Screen

/-- The cell that a bit of a sprite at `(x, y)` falls on, `b` columns and `r` rows away from the upper
left corner. A cell beyond the edges is brought back if sprites wrap, and is none if they do not. -/
def landing? (s : Screen) (x y : Int) (wrap : Bool) (b r : Nat) : Option (Int × Int) :=
  let width := s.side s.width
  let height := s.side s.height
  let column := x % width + b
  let row := y % height + r
  if column < width ∧ row < height then some (column, row)
  else if wrap then some (column % width, row % height)
  else none

/-- The set bits of a sprite that fall on a cell, by their columns and rows. -/
def bitsOn (s : Screen) (x y : Int) (rows : List Int) (wrap : Bool) (p : Nat × Nat) :
    Finset (Nat × Nat) :=
  (Finset.range 8 ×ˢ Finset.range rows.length).filter fun (b, r) =>
    (rows.getD r 0).testBit (7 - b) ∧ s.landing? x y wrap b r = some ((p.1 : Int), (p.2 : Int))

variable {s : Screen} {x y : Int} {rows : List Int} {wrap : Bool}

theorem mem_spritePlaces_iff {b r : Nat} :
    (b, r) ∈ spritePlaces rows ↔
      b < 8 ∧ r < rows.length ∧ (rows.getD r 0).testBit (7 - b) = true := by
  unfold spritePlaces
  constructor
  · intro h
    obtain ⟨⟨bits, k⟩, hk, hb⟩ := List.mem_flatMap.1 h
    obtain ⟨c, hc, hcb⟩ := List.mem_map.1 hb
    obtain ⟨hc, hbit⟩ := List.mem_filter.1 hc
    cases hcb
    have hrow : rows[r]? = some bits := List.mem_zipIdx_iff_getElem?.1 hk
    obtain ⟨hr, hbits⟩ := List.getElem?_eq_some_iff.1 hrow
    refine ⟨List.mem_range.1 hc, hr, ?_⟩
    rw [List.getD_eq_getElem?_getD, hrow, ← Bits.test_eq_testBit]
    exact hbit
  · rintro ⟨hb, hr, hbit⟩
    have hrow : rows[r]? = some rows[r] := List.getElem?_eq_getElem hr
    rw [List.getD_eq_getElem?_getD, hrow, ← Bits.test_eq_testBit] at hbit
    refine List.mem_flatMap.2 ⟨(rows[r], r), List.mem_zipIdx_iff_getElem?.2 hrow, ?_⟩
    exact List.mem_map.2 ⟨b, List.mem_filter.2 ⟨List.mem_range.2 hb, hbit⟩, rfl⟩

theorem nodup_spritePlaces (rows : List Int) : (spritePlaces rows).Nodup := by
  refine List.nodup_flatMap.2 ⟨fun ⟨bits, r⟩ _ => ?_, ?_⟩
  · refine (List.nodup_range.filter _).map fun b c h => ?_
    exact congrArg Prod.fst h
  · have hrows : (rows.zipIdx.map Prod.snd).Nodup := by
      rw [List.zipIdx_map_snd]
      exact List.nodup_range'
    refine (List.pairwise_map.1 hrows).imp fun {p q} hne => ?_
    intro a ha ha'
    obtain ⟨b, -, rfl⟩ := List.mem_map.1 ha
    obtain ⟨c, -, h⟩ := List.mem_map.1 ha'
    exact hne (congrArg Prod.snd h).symm

theorem forward_of_side_pos {n : Nat} (h : 0 < s.side n) :
    s.backward = false ∧ 0 < n ∧ ∀ m, s.side m = m := by
  unfold side at h ⊢
  cases hb : s.backward with
  | false =>
    rw [hb, if_neg (by decide)] at h
    exact ⟨rfl, by omega, fun m => if_neg (by decide)⟩
  | true =>
    rw [hb, if_pos rfl] at h
    omega

theorem landing?_eq (hw : 0 < s.side s.width) (hh : 0 < s.side s.height) (b r : Nat) :
    s.landing? x y wrap b r =
      (s.target? wrap ((x % s.width).toNat + b) ((y % s.height).toNat + r)).map
        fun p => ((p.1 : Int), (p.2 : Int)) := by
  obtain ⟨-, hwidth, hside⟩ := forward_of_side_pos hw
  obtain ⟨-, hheight, -⟩ := forward_of_side_pos hh
  have hleft : 0 ≤ x % s.width := Int.emod_nonneg x (by omega)
  have htop : 0 ≤ y % s.height := Int.emod_nonneg y (by omega)
  obtain ⟨left, hx⟩ := Int.eq_ofNat_of_zero_le hleft
  obtain ⟨top, hy⟩ := Int.eq_ofNat_of_zero_le htop
  unfold landing? target?
  simp only [hside, hx, hy, Int.toNat_natCast]
  by_cases hin : left + b < s.width ∧ top + r < s.height
  · have hin' : (left : Int) + b < s.width ∧ (top : Int) + r < s.height := by omega
    rw [if_pos hin', if_pos hin, Nat.mod_eq_of_lt hin.1, Nat.mod_eq_of_lt hin.2, ite_self]
    rfl
  · have hin' : ¬ ((left : Int) + b < s.width ∧ (top : Int) + r < s.height) := by omega
    rw [if_neg hin', if_neg hin]
    cases wrap with
    | true => rfl
    | false => rfl

theorem landing?_eq_some_iff (hw : 0 < s.side s.width) (hh : 0 < s.side s.height) {b r : Nat}
    {p : Nat × Nat} :
    s.landing? x y wrap b r = some ((p.1 : Int), (p.2 : Int)) ↔
      s.target? wrap ((x % s.width).toNat + b) ((y % s.height).toNat + r) = some p := by
  rw [landing?_eq hw hh, Option.map_eq_some_iff]
  constructor
  · rintro ⟨q, hq, hqp⟩
    obtain ⟨h₁, h₂⟩ := Prod.mk.inj hqp
    rw [hq, Prod.ext (Int.ofNat.inj h₁) (Int.ofNat.inj h₂)]
  · intro h
    exact ⟨p, h, rfl⟩

theorem spriteCells_eq_filterMap (hforward : s.backward = false) :
    s.spriteCells x y rows wrap = (spritePlaces rows).filterMap fun p =>
      s.target? wrap ((x % s.width).toNat + p.1) ((y % s.height).toNat + p.2) := by
  unfold spriteCells
  rw [hforward, if_neg (by decide)]

theorem count_spriteCells (hw : 0 < s.side s.width) (hh : 0 < s.side s.height) (p : Nat × Nat) :
    (s.spriteCells x y rows wrap).count p = (s.bitsOn x y rows wrap p).card := by
  rw [spriteCells_eq_filterMap (forward_of_side_pos hw).1, List.count_filterMap,
    List.countP_eq_length_filter,
    ← List.toFinset_card_of_nodup ((nodup_spritePlaces rows).filter _)]
  refine congrArg Finset.card (Finset.ext fun ⟨b, r⟩ => ?_)
  rw [List.mem_toFinset, List.mem_filter, mem_spritePlaces_iff, beq_iff_eq,
    ← landing?_eq_some_iff hw hh]
  unfold bitsOn
  rw [Finset.mem_filter, Finset.mem_product, Finset.mem_range, Finset.mem_range]
  simp only [and_assoc]

/-! ### Cells that are met twice -/

/-- Where sprites are cut off, or the screen has room for the whole sprite, a cell is met by one set
bit at most. -/
theorem place_unique (h : wrap = false ∨ 8 ≤ s.width ∧ rows.length ≤ s.height) {left top : Nat}
    {p q c : Nat × Nat} (hp : p ∈ spritePlaces rows) (hq : q ∈ spritePlaces rows)
    (hpc : s.target? wrap (left + p.1) (top + p.2) = some c)
    (hqc : s.target? wrap (left + q.1) (top + q.2) = some c) : p = q := by
  obtain ⟨hp₁, hp₂⟩ := lt_of_mem_spritePlaces hp
  obtain ⟨hq₁, hq₂⟩ := lt_of_mem_spritePlaces hq
  unfold target? at hpc hqc
  cases wrap with
  | false =>
    simp only [Bool.false_eq_true, if_false, Option.ite_none_right_eq_some, Option.some.injEq]
      at hpc hqc
    obtain ⟨h₁, h₂⟩ := Prod.mk.inj (hpc.2.trans hqc.2.symm)
    exact Prod.ext (by omega) (by omega)
  | true =>
    obtain ⟨hwidth, hheight⟩ := h.resolve_left (by decide)
    rw [if_pos rfl] at hpc hqc
    obtain ⟨h₁, h₂⟩ := Prod.mk.inj (Option.some.inj (hpc.trans hqc.symm))
    have hcolumn := Nat.ModEq.add_left_cancel' left h₁
    have hrow := Nat.ModEq.add_left_cancel' top h₂
    exact Prod.ext (hcolumn.eq_of_lt_of_lt (by omega) (by omega))
      (hrow.eq_of_lt_of_lt (by omega) (by omega))

theorem nodup_spriteCells (hforward : s.backward = false)
    (h : wrap = false ∨ 8 ≤ s.width ∧ rows.length ≤ s.height) :
    (s.spriteCells x y rows wrap).Nodup := by
  rw [spriteCells_eq_filterMap hforward]
  refine List.pairwise_filterMap.2 ((nodup_spritePlaces rows).imp_of_mem ?_)
  intro p q hp hq hne c hpc d hqd hcd
  subst hcd
  exact hne (place_unique h hp hq hpc hqd)

/-- No lit cell is met if all cells under the sprite are dark and none is met twice: the first bit
lights a dark cell, and the second one finds it lit. -/
theorem hit_flipAll_eq_false_iff {l : List (Nat × Nat)} (hl : ∀ p ∈ l, s.Inside p) :
    (s.flipAll l).2 = false ↔ l.Nodup ∧ ∀ p ∈ l, s.cell p.1 p.2 = false := by
  induction l generalizing s with
  | nil => simp [flipAll]
  | cons p l ih =>
    obtain ⟨hp, hl⟩ := List.forall_mem_cons.1 hl
    have hsides := SameSides.flip s p.1 p.2
    have hrest := ih fun q hq => (hsides.inside_iff q).2 (hl q hq)
    have hcell (q : Nat × Nat) (hq : q ∈ l) : (s.flip p.1 p.2).cell q.1 q.2 =
        if p = q then !s.cell q.1 q.2 else s.cell q.1 q.2 := cell_flip (hl q hq) hp
    show (s.cell p.1 p.2 || ((s.flip p.1 p.2).flipAll l).2) = false ↔ _
    rw [Bool.or_eq_false_iff, hrest, List.nodup_cons, List.forall_mem_cons]
    constructor
    · rintro ⟨hdark, hnodup, hdarks⟩
      have hnew : p ∉ l := fun hmem => by
        have hlit := hdarks p hmem
        rw [hcell p hmem, if_pos rfl, hdark] at hlit
        cases hlit
      refine ⟨⟨hnew, hnodup⟩, hdark, fun q hq => ?_⟩
      have hne : p ≠ q := fun hpq => hnew (hpq ▸ hq)
      have hflipped := hdarks q hq
      rw [hcell q hq, if_neg hne] at hflipped
      exact hflipped
    · rintro ⟨⟨hnew, hnodup⟩, hdark, hdarks⟩
      refine ⟨hdark, hnodup, fun q hq => ?_⟩
      have hne : p ≠ q := fun hpq => hnew (hpq ▸ hq)
      rw [hcell q hq, if_neg hne]
      exact hdarks q hq

example : ((blank 4 1).draw 0 0 [0x88] true).map (·.2) = .ok true := rfl

/-- Where no cell is met twice, a lit cell is met if and only if one goes dark. -/
theorem hit_flipAll_iff_of_nodup {l : List (Nat × Nat)} (hl : ∀ p ∈ l, s.Inside p) (hd : l.Nodup) :
    (s.flipAll l).2 = true ↔
      ∃ p, s.Inside p ∧ s.cell p.1 p.2 = true ∧ (s.flipAll l).1.cell p.1 p.2 = false := by
  rw [← Bool.not_eq_false, hit_flipAll_eq_false_iff hl]
  constructor
  · intro hhit
    obtain ⟨p, hp, hlit⟩ : ∃ p ∈ l, s.cell p.1 p.2 = true := by
      by_contra hnone
      refine hhit ⟨hd, fun p hp => Bool.eq_false_iff.2 fun hlit => hnone ⟨p, hp, hlit⟩⟩
    refine ⟨p, hl p hp, hlit, ?_⟩
    rw [cell_flipAll (hl p hp) hl, hlit, List.count_eq_one_of_mem hd hp]
    rfl
  · rintro ⟨p, hin, hlit, hdark⟩ ⟨-, hdarks⟩
    by_cases hp : p ∈ l
    · exact Bool.false_ne_true ((hdarks p hp).symm.trans hlit)
    · rw [cell_flipAll hin hl, List.count_eq_zero_of_not_mem hp, hlit] at hdark
      cases hdark

/-! ### Drawing -/

/-- A sprite can be drawn on every screen with sides above zero. Each cell is inverted once for every
set bit that falls on it, and a repaint is asked for. Where no cell can be met twice, a lit cell is
met if and only if one goes dark. -/
theorem draw_inverts_odd_cells (hw : 0 < s.side s.width) (hh : 0 < s.side s.height) (x y : Int)
    (rows : List Int) (wrap : Bool) :
    ∃ t hit, s.draw x y rows wrap = .ok (t, hit) ∧ s.SameSides t ∧ t.needsRedraw = true ∧
      (∀ p, s.Inside p → t.cell p.1 p.2 =
        (s.cell p.1 p.2 ^^ (s.bitsOn x y rows wrap p).card.bodd)) ∧
      (wrap = false ∨ 8 ≤ s.width ∧ rows.length ≤ s.height →
        (hit = true ↔ ∃ p, s.Inside p ∧ s.cell p.1 p.2 = true ∧ t.cell p.1 p.2 = false)) := by
  obtain ⟨hforward, hwidth, -⟩ := forward_of_side_pos hw
  obtain ⟨-, hheight, -⟩ := forward_of_side_pos hh
  have hcells := inside_spriteCells hwidth hheight x y rows wrap
  obtain ⟨hw', hh', hb'⟩ := SameSides.flipAll s (s.spriteCells x y rows wrap)
  refine ⟨_, _, draw_eq hwidth hheight x y rows wrap, ⟨hw', hh', hb'⟩, rfl, ?_, ?_⟩
  · intro p hp
    rw [← count_spriteCells hw hh]
    exact cell_flipAll hp hcells
  · intro h
    exact hit_flipAll_iff_of_nodup hcells (nodup_spriteCells hforward h)

/-- Three set bits around a corner, the first of them on a lit cell. The rows are no bytes. -/
theorem draw_inverts_around_corner :
    let s : Screen := ({} : Screen).flip 63 31
    0 < s.side s.width ∧ 0 < s.side s.height ∧ 8 ≤ s.width ∧ 2 ≤ s.height ∧
      ∃ t, s.draw (-1) 63 [-128, 0x1C0] true = .ok (t, true) ∧ t.needsRedraw = true ∧
        t.cell 63 31 = false ∧ t.cell 63 0 = true ∧ t.cell 0 0 = true ∧ t.cell 0 31 = false := by
  intro s
  have hw : 0 < s.side s.width := by decide +kernel
  have hh : 0 < s.side s.height := by decide +kernel
  have hroom : 8 ≤ s.width ∧ 2 ≤ s.height := by decide +kernel
  obtain ⟨t, hit, hdraw, -, hredraw, hcell, hhit⟩ :=
    draw_inverts_odd_cells hw hh (-1) 63 [-128, 0x1C0] true
  have hcorner : t.cell 63 31 = false := by
    rw [hcell (63, 31) (by decide +kernel)]
    decide +kernel
  have hlit : s.cell 63 31 = true := by decide +kernel
  have : hit = true := (hhit (.inr hroom)).2 ⟨(63, 31), by decide +kernel, hlit, hcorner⟩
  subst this
  refine ⟨hw, hh, hroom.1, hroom.2, t, hdraw, hredraw, hcorner, ?_, ?_, ?_⟩
  · rw [hcell (63, 0) (by decide +kernel)]
    decide +kernel
  · rw [hcell (0, 0) (by decide +kernel)]
    decide +kernel
  · rw [hcell (0, 31) (by decide +kernel)]
    decide +kernel

end Screen

end Chip8
