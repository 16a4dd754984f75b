import Chip8.Proofs.Screen
import Mathlib.Data.Nat.Bits

/-!
# Sprites upon sprites

Drawing inverts cells, and that is all it does to them: a cell of a screen on which many sprites were
drawn is what it was, inverted as often as one of their set bits fell on it (`cell_drawAll`). The
order of the sprites plays no part, and drawing all of them again undoes them (`draws_commute`).
-/

namespace Chip8

/-- A sprite and where it is drawn. -/
structure Stroke where
  x : Int
  y : Int
  rows : List Int
  wrap : Bool
deriving DecidableEq, Repr

namespace Screen

def Inside (s : Screen) (p : Nat × Nat) : Prop := p.1 < s.width ∧ p.2 < s.height

instance (s : Screen) (p : Nat × Nat) : Decidable (s.Inside p) := inferInstanceAs (Decidable (_ ∧ _))

/-- Draw one sprite after the other. -/
def drawAll (s : Screen) : List Stroke → Except Error Screen
  | [] => .ok s
  | c :: cs => do
    let (t, _) ← s.draw c.x c.y c.rows c.wrap
    t.drawAll cs

/-- The cells that the set bits of sprites fall on, each as often as it is met. -/
def met (s : Screen) (cs : List Stroke) : List (Nat × Nat) :=
  cs.flatMap fun c => s.spriteCells c.x c.y c.rows c.wrap

variable {s t u : Screen}

namespace SameSides

theorem spriteCells_eq (h : s.SameSides t) (x y : Int) (rows : List Int) (wrap : Bool) :
    t.spriteCells x y rows wrap = s.spriteCells x y rows wrap := by
  unfold spriteCells backwardTarget target?
  simp only [h.width, h.height, h.backward]

theorem met_eq (h : s.SameSides t) (cs : List Stroke) : t.met cs = s.met cs := by
  unfold met
  simp only [h.spriteCells_eq]

theorem inside_iff (h : s.SameSides t) (p : Nat × Nat) : t.Inside p ↔ s.Inside p := by
  unfold Inside
  rw [h.width, h.height]

end SameSides

/-! ### Cells and their numbers -/

theorem number_lt {x y : Nat} (h : s.Inside (x, y)) : y * s.width + x < s.width * s.height := by
  have hx : x < s.width := h.1
  have hy : y + 1 ≤ s.height := h.2
  calc y * s.width + x < y * s.width + s.width := by omega
    _ = (y + 1) * s.width := (Nat.succ_mul ..).symm
    _ ≤ s.height * s.width := Nat.mul_le_mul_right _ hy
    _ = s.width * s.height := Nat.mul_comm ..

theorem number_inj {w x y a b : Nat} (hx : x < w) (ha : a < w) :
    y * w + x = b * w + a ↔ x = a ∧ y = b := by
  constructor
  · intro h
    have hw : 0 < w := by omega
    have hmod := congrArg (· % w) h
    have hdiv := congrArg (· / w) h
    simp only [Nat.mul_comm _ w, Nat.mul_add_mod, Nat.mul_add_div hw, Nat.mod_eq_of_lt hx,
      Nat.mod_eq_of_lt ha, Nat.div_eq_of_lt hx, Nat.div_eq_of_lt ha, Nat.add_zero] at hmod hdiv
    exact ⟨hmod, hdiv⟩
  · rintro ⟨rfl, rfl⟩
    rfl

theorem cell_eq_getElem {x y : Nat} (hx : x < s.width)
    (hk : y * s.width + x < s.width * s.height) : s.cell x y = s.cells[y * s.width + x] := by
  have hk' : y * s.width + x < s.cells.toArray.size := by
    rw [Vector.size_toArray]
    exact hk
  unfold cell
  rw [if_pos hx, Vector.getD, Array.getD_eq_getD_getElem?, Array.getElem?_eq_getElem hk']
  rfl

/-- The cells make up the screen. -/
theorem pixels_ext (h : s.SameSides t) (hc : ∀ x y, s.Inside (x, y) → t.cell x y = s.cell x y) :
    t.pixels = s.pixels := by
  have hlen : t.width * t.height = s.width * s.height := by rw [h.width, h.height]
  refine List.ext_getElem (by simp [pixels, hlen]) fun k hk hk' => ?_
  have hk' : k < s.width * s.height := by simpa [pixels] using hk'
  have hw : 0 < s.width := Nat.pos_of_mul_pos_right (Nat.lt_of_le_of_lt (Nat.zero_le k) hk')
  have hin : s.Inside (k % s.width, k / s.width) :=
    ⟨Nat.mod_lt _ hw, Nat.div_lt_of_lt_mul hk'⟩
  have hnumber : k / s.width * s.width + k % s.width = k := by
    rw [Nat.mul_comm]
    exact Nat.div_add_mod ..
  have hin' := (h.inside_iff _).2 hin
  have hcell := hc _ _ hin
  rw [cell_eq_getElem hin.1 (number_lt hin), cell_eq_getElem hin'.1 (number_lt hin')] at hcell
  simp only [h.width, hnumber] at hcell
  simpa [pixels] using hcell

/-! ### Cells that are inverted -/

theorem cell_flip {x y a b : Nat} (h : s.Inside (x, y)) (ha : s.Inside (a, b)) :
    (s.flip a b).cell x y = if (a, b) = (x, y) then !s.cell x y else s.cell x y := by
  have hlt := number_lt ha
  have hflip : s.flip a b =
      { s with cells := s.cells.set (b * s.width + a) (!s.cells[b * s.width + a]) } := dif_pos hlt
  have hin : (s.flip a b).Inside (x, y) := ((SameSides.flip s a b).inside_iff _).2 h
  rw [cell_eq_getElem h.1 (number_lt h)]
  rw [hflip] at hin ⊢
  rw [cell_eq_getElem hin.1 (number_lt hin)]
  by_cases he : (a, b) = (x, y)
  · cases he
    simp
  · have hne : ¬ (b * s.width + a = y * s.width + x) := fun hk => by
      obtain ⟨rfl, rfl⟩ := (number_inj ha.1 h.1).1 hk
      exact he rfl
    rw [if_neg he]
    simp [hne]

theorem cell_flipAll {x y : Nat} {l : List (Nat × Nat)} (h : s.Inside (x, y))
    (hl : ∀ p ∈ l, s.Inside p) :
    (s.flipAll l).1.cell x y = (s.cell x y ^^ (l.count (x, y)).bodd) := by
  induction l generalizing s with
  | nil => simp [flipAll]
  | cons p l ih =>
    obtain ⟨hp, hl⟩ := List.forall_mem_cons.1 hl
    have hs := SameSides.flip s p.1 p.2
    have hrest := ih ((hs.inside_iff _).2 h) fun q hq => (hs.inside_iff q).2 (hl q hq)
    show ((s.flip p.1 p.2).flipAll l).1.cell x y = _
    rw [hrest, cell_flip h hp, List.count_cons]
    by_cases he : p = (x, y)
    · subst he
      simp [Nat.bodd_succ]
    · simp [he]

/-! ### Sprites -/

theorem inside_target? {wrap : Bool} {x y : Nat} {p : Nat × Nat} (hw : 0 < s.width)
    (hh : 0 < s.height) (h : s.target? wrap x y = some p) : s.Inside p := by
  unfold target? at h
  cases wrap with
  | true =>
    cases h
    exact ⟨Nat.mod_lt _ hw, Nat.mod_lt _ hh⟩
  | false =>
    rw [if_neg (by simp)] at h
    split at h
    · cases h
      assumption
    · cases h

theorem inside_backwardTarget (hw : 0 < s.width) (hh : 0 < s.height) (x y : Int) :
    s.Inside (s.backwardTarget x y) := by
  have hcolumn : (-x % s.width).toNat < s.width := by
    have := Int.emod_lt_of_pos (-x) (b := s.width) (by omega)
    omega
  have hrow : (-y % s.height).toNat < s.height := by
    have := Int.emod_lt_of_pos (-y) (b := s.height) (by omega)
    omega
  unfold backwardTarget
  dsimp only
  split
  · exact ⟨hw, hrow⟩
  · refine ⟨?_, Nat.mod_lt _ hh⟩
    show s.width - _ < s.width
    omega

theorem inside_spriteCells (hw : 0 < s.width) (hh : 0 < s.height) (x y : Int) (rows : List Int)
    (wrap : Bool) : ∀ p ∈ s.spriteCells x y rows wrap, s.Inside p := by
  intro p hp
  unfold spriteCells at hp
  split at hp
  · split at hp
    · obtain ⟨q, -, rfl⟩ := List.mem_map.1 hp
      exact inside_backwardTarget hw hh ..
    · cases hp
  · obtain ⟨q, -, hq⟩ := List.mem_filterMap.1 hp
    exact inside_target? hw hh hq

theorem draw_eq (hw : 0 < s.width) (hh : 0 < s.height) (x y : Int) (rows : List Int)
    (wrap : Bool) :
    s.draw x y rows wrap =
      .ok ({ (s.flipAll (s.spriteCells x y rows wrap)).1 with needsRedraw := true },
        (s.flipAll (s.spriteCells x y rows wrap)).2) := by
  rw [draw_eq_flipAll, if_neg (by omega)]

/-- A sprite can be drawn on any screen that has cells, and inverts those that it falls on. -/
theorem exists_draw (hw : 0 < s.width) (hh : 0 < s.height) (x y : Int) (rows : List Int)
    (wrap : Bool) :
    ∃ t hit, s.draw x y rows wrap = .ok (t, hit) ∧ s.SameSides t ∧
      ∀ a b, s.Inside (a, b) →
        t.cell a b = (s.cell a b ^^ ((s.spriteCells x y rows wrap).count (a, b)).bodd) := by
  obtain ⟨hwidth, hheight, hbackward⟩ := SameSides.flipAll s (s.spriteCells x y rows wrap)
  refine ⟨_, _, draw_eq hw hh x y rows wrap, ⟨hwidth, hheight, hbackward⟩, fun a b h => ?_⟩
  exact cell_flipAll h (inside_spriteCells hw hh x y rows wrap)

/-- A cell is what it was, inverted once for each set bit that fell on it. -/
theorem cell_drawAll (hw : 0 < s.width) (hh : 0 < s.height) (cs : List Stroke) :
    ∃ t, s.drawAll cs = .ok t ∧ s.SameSides t ∧
      ∀ x y, s.Inside (x, y) → t.cell x y = (s.cell x y ^^ ((s.met cs).count (x, y)).bodd) := by
  induction cs generalizing s with
  | nil =>
    refine ⟨s, rfl, .refl s, fun x y _ => ?_⟩
    simp [met]
  | cons c cs ih =>
    obtain ⟨t, hit, hdraw, hst, hcell⟩ := exists_draw hw hh c.x c.y c.rows c.wrap
    obtain ⟨u, hrest, htu, hcells⟩ := ih (s := t) (hst.width ▸ hw) (hst.height ▸ hh)
    refine ⟨u, ?_, hst.trans htu, fun x y h => ?_⟩
    · show (s.draw c.x c.y c.rows c.wrap >>= fun r => r.1.drawAll cs) = _
      rw [hdraw]
      exact hrest
    · have hmet : s.met (c :: cs) = s.spriteCells c.x c.y c.rows c.wrap ++ s.met cs := rfl
      rw [hcells x y ((hst.inside_iff _).2 h), hcell x y h, hst.met_eq, hmet, List.count_append,
        Nat.bodd_add, Bool.xor_assoc]

/-- The same sprites in another order leave the same pixels, and when all of them are drawn once
more, in any order, the pixels are what they were before. In between, each cell is inverted if an
odd number of set bits fell on it. -/
theorem draws_commute (hw : 0 < s.width) (hh : 0 < s.height) {cs ds : List Stroke}
    (h : cs.Perm ds) :
    ∃ t u v, s.drawAll cs = .ok t ∧ s.drawAll ds = .ok u ∧ t.drawAll ds = .ok v ∧
      s.SameSides t ∧ u.pixels = t.pixels ∧ v.pixels = s.pixels ∧
      ∀ x y, s.Inside (x, y) → t.cell x y = (s.cell x y ^^ ((s.met cs).count (x, y)).bodd) := by
  obtain ⟨t, ht, hst, htcell⟩ := cell_drawAll hw hh cs
  obtain ⟨u, hu, hsu, hucell⟩ := cell_drawAll hw hh ds
  obtain ⟨v, hv, htv, hvcell⟩ := cell_drawAll (s := t) (hst.width ▸ hw) (hst.height ▸ hh) ds
  have hcount (p : Nat × Nat) : (s.met ds).count p = (s.met cs).count p :=
    ((h.flatMap_right _).count_eq p).symm
  have htu : t.SameSides u :=
    ⟨hsu.width.trans hst.width.symm, hsu.height.trans hst.height.symm,
      hsu.backward.trans hst.backward.symm⟩
  refine ⟨t, u, v, ht, hu, hv, hst, pixels_ext htu fun x y hin => ?_,
    pixels_ext (hst.trans htv) fun x y hin => ?_, htcell⟩
  · have hin := (hst.inside_iff _).1 hin
    rw [hucell x y hin, htcell x y hin, hcount]
  · rw [hvcell x y ((hst.inside_iff _).2 hin), htcell x y hin, hst.met_eq, hcount, Bool.xor_assoc,
      Bool.xor_self, Bool.xor_false]

/-- Two sprites that overlap, one of them across the corner and the other cut off there. -/
theorem draws_commute_in_corner :
    let s : Screen := {}
    let c : Stroke := ⟨62, 31, [0xF0, 0x81], true⟩
    let d : Stroke := ⟨-1, -1, [0xFF], false⟩
    0 < s.width ∧ 0 < s.height ∧ [c, d, c, c].Perm [d, c, c, c] ∧
      ∃ t u v, s.drawAll [c, d, c, c] = .ok t ∧ s.drawAll [d, c, c, c] = .ok u ∧
        t.drawAll [d, c, c, c] = .ok v ∧ u.pixels = t.pixels ∧ v.pixels = s.pixels ∧
        t.cell 62 31 = true ∧ t.cell 63 31 = false ∧ t.cell 1 31 = true := by
  intro s c d
  have hw : 0 < s.width := by decide
  have hh : 0 < s.height := by decide
  have hperm : [c, d, c, c].Perm [d, c, c, c] := List.Perm.swap d c [c, c]
  obtain ⟨t, u, v, ht, hu, hv, -, htu, hvs, hcell⟩ := draws_commute hw hh hperm
  refine ⟨hw, hh, hperm, t, u, v, ht, hu, hv, htu, hvs, ?_, ?_, ?_⟩
  · rw [hcell 62 31 ⟨by decide, by decide⟩]
    decide +kernel
  · rw [hcell 63 31 ⟨by decide, by decide⟩]
    decide +kernel
  · rw [hcell 1 31 ⟨by decide, by decide⟩]
    decide +kernel

end Screen

end Chip8
