import Chip8.Screen

/-!
# The loops of drawing

Drawing goes through the rows of a sprite and through the bits of each row, and leaves a loop at the
first place beyond an edge. What it inverts are the cells of one list, in the order of that list:
those under the set bits that are on the screen (`spriteCells`). `draw_eq_flipAll` says so, and nothing
else about drawing looks at the loops.
-/

namespace Chip8.Screen

/-- Invert the cell at a place. -/
def flip (s : Screen) (x y : Nat) : Screen := s.invert (y * s.width + x)

/-- The cell under a place given by its distances from the left and upper edges. A place beyond the
other edges is brought back if sprites wrap, and is on no cell if they do not. -/
def target? (s : Screen) (wrap : Bool) (x y : Nat) : Option (Nat × Nat) :=
  if wrap then some (x % s.width, y % s.height)
  else if x < s.width ∧ y < s.height then some (x, y)
  else none

/-- The places of the set bits of a sprite, from its upper left corner: row after row, and in a row
from the left. -/
def spritePlaces (rows : List Int) : List (Nat × Nat) :=
  rows.zipIdx.flatMap fun (bits, r) =>
    ((List.range 8).filter fun b => Bits.test bits (7 - b)).map fun b => (b, r)

/-- The cell of a screen with sides below zero that a place falls on, given by its distances from
the last column and the first row, counted backward. -/
def backwardTarget (s : Screen) (x y : Int) : Nat × Nat :=
  let column := (-x % s.width).toNat
  let row := (-y % s.height).toNat
  if column = 0 then (0, row) else (s.width - column, (row + s.height - 1) % s.height)

/-- The cells that a sprite inverts, one for each of its set bits that is on the screen. -/
def spriteCells (s : Screen) (x y : Int) (rows : List Int) (wrap : Bool) : List (Nat × Nat) :=
  if s.backward then
    if wrap then (spritePlaces rows).map fun (b, r) => s.backwardTarget (x + b) (y + r) else []
  else
    let left := (x % s.width).toNat
    let top := (y % s.height).toNat
    (spritePlaces rows).filterMap fun (b, r) => s.target? wrap (left + b) (top + r)

/-- Invert the cells one by one. The answer is whether one of them was lit when its turn came. -/
def flipAll (s : Screen) : List (Nat × Nat) → Screen × Bool
  | [] => (s, false)
  | (x, y) :: rest =>
    let lit := s.cell x y
    let (s, hit) := (s.flip x y).flipAll rest
    (s, lit || hit)

/-- Screens of the same shape. Where the bits of a sprite fall depends on nothing else. -/
structure SameSides (s t : Screen) : Prop where
  width : t.width = s.width
  height : t.height = s.height
  backward : t.backward = s.backward

variable {s t u : Screen} {wrap hit : Bool} {left top py : Int} {p : Nat × Nat}

namespace SameSides

theorem refl (s : Screen) : s.SameSides s := ⟨rfl, rfl, rfl⟩

theorem trans (h : s.SameSides t) (h' : t.SameSides u) : s.SameSides u :=
  ⟨h'.width.trans h.width, h'.height.trans h.height, h'.backward.trans h.backward⟩

theorem flip (s : Screen) (x y : Nat) : s.SameSides (s.flip x y) := by
  unfold Screen.flip invert
  split
  · exact ⟨rfl, rfl, rfl⟩
  · exact .refl s

theorem flipAll (s : Screen) (l : List (Nat × Nat)) : s.SameSides (s.flipAll l).1 := by
  induction l generalizing s with
  | nil => exact .refl s
  | cons p l ih => exact (flip s p.1 p.2).trans (ih _)

theorem side_eq (h : s.SameSides t) : t.side = s.side := by
  funext n
  unfold side
  rw [h.backward]

theorem number_eq (h : s.SameSides t) : t.number = s.number := by
  funext px py
  unfold number
  rw [h.side_eq, h.width, h.height]

end SameSides

theorem flipAll_append (s : Screen) (l l' : List (Nat × Nat)) :
    s.flipAll (l ++ l') =
      (((s.flipAll l).1.flipAll l').1, (s.flipAll l).2 || ((s.flipAll l).1.flipAll l').2) := by
  induction l generalizing s with
  | nil => simp [flipAll]
  | cons p l ih => simp only [List.cons_append, flipAll, ih, Bool.or_assoc]

/-! ### From places to cells -/

/-- The loops come to this cell where they look for the place `(px, py)`. -/
def Numbers (s : Screen) (px py : Int) (p : Nat × Nat) : Prop :=
  s.number px py = p.2 * s.width + p.1 ∧ p.1 < s.width

theorem Numbers.invert_eq {px : Int} (h : s.Numbers px py p) :
    s.invert (s.number px py) = s.flip p.1 p.2 := by
  rw [h.1, flip]

theorem Numbers.isLit_eq {px : Int} (h : s.Numbers px py p) :
    s.isLit (s.number px py) = s.cell p.1 p.2 := by
  rw [h.1, isLit, cell, if_pos h.2]

/-- For a sprite with its corner at `(left, top)` the function tells on which cell the bit of a column and
row falls: on none where a loop ends. -/
structure Lands (s : Screen) (left top : Int) (wrap : Bool) (land? : Nat → Nat → Option (Nat × Nat)) :
    Prop where
  below {b r : Nat} (h : s.side s.height ≤ top + r ∧ ¬ wrap) : land? b r = none
  beside {b r : Nat} (h : s.side s.width ≤ left + b ∧ ¬ wrap) : land? b r = none
  inside {b r : Nat} (hr : ¬ (s.side s.height ≤ top + r ∧ ¬ wrap))
    (hb : ¬ (s.side s.width ≤ left + b ∧ ¬ wrap)) :
    ∃ p, land? b r = some p ∧
      s.Numbers (wrapped (s.side s.width) (left + b)) (wrapped (s.side s.height) (top + r)) p

variable {land? : Nat → Nat → Option (Nat × Nat)}

theorem Lands.congr (h : s.Lands left top wrap land?) (hs : s.SameSides t) :
    t.Lands left top wrap land? := by
  refine ⟨fun {b r} hr => h.below ?_, fun {b r} hb => h.beside ?_, fun {b r} hr hb => ?_⟩
  · rwa [hs.side_eq, hs.height] at hr
  · rwa [hs.side_eq, hs.width] at hb
  · rw [hs.side_eq, hs.height] at hr
    rw [hs.side_eq, hs.width] at hb
    unfold Numbers
    rw [hs.side_eq, hs.number_eq, hs.width, hs.height]
    exact h.inside hr hb

/-! ### The loops -/

/-- The cells under the set bits of a row. -/
def rowCells (land? : Nat → Nat → Option (Nat × Nat)) (r : Nat) (bits : Int) (bs : List Nat) :
    List (Nat × Nat) :=
  (bs.filter fun b => Bits.test bits (7 - b)).filterMap fun b => land? b r

theorem drawBits_eq (h : s.Lands left top wrap land?) {r : Nat}
    (hr : ¬ (s.side s.height ≤ top + r ∧ ¬ wrap)) (hit : Bool) (bits : Int) {bs : List Nat}
    (hbs : bs.Pairwise (· < ·)) :
    s.drawBits hit left (wrapped (s.side s.height) (top + r)) bits wrap bs =
      ((s.flipAll (rowCells land? r bits bs)).1,
        hit || (s.flipAll (rowCells land? r bits bs)).2) := by
  induction bs generalizing s hit with
  | nil => simp [drawBits, rowCells, flipAll]
  | cons b bs ih =>
    obtain ⟨hb, hbs⟩ := List.pairwise_cons.1 hbs
    rw [drawBits]
    by_cases hset : Bits.test bits (7 - b)
    · rw [if_pos hset]
      by_cases hout : s.side s.width ≤ left + b ∧ ¬ wrap
      · -- this bit is beyond the edge, and so are those to the right of it
        have hnone : rowCells land? r bits (b :: bs) = [] := by
          refine List.filterMap_eq_nil_iff.2 fun c hc => h.beside ⟨?_, hout.2⟩
          rcases List.mem_cons.1 (List.mem_filter.1 hc).1 with rfl | hc
          · exact hout.1
          · have := hb c hc
            have := hout.1
            omega
        rw [if_pos hout, hnone]
        simp [flipAll]
      · obtain ⟨p, hp, hnumber⟩ := h.inside hr hout
        have hsides := SameSides.flip s p.1 p.2
        have hcells : rowCells land? r bits (b :: bs) = p :: rowCells land? r bits bs := by
          simp [rowCells, hset, hp]
        have hrest := ih (h.congr hsides) (by rwa [hsides.side_eq, hsides.height])
          (hit || s.cell p.1 p.2) hbs
        rw [hsides.side_eq, hsides.height] at hrest
        rw [if_neg hout]
        dsimp only
        rw [hnumber.invert_eq, hnumber.isLit_eq, hrest, hcells, flipAll]
        simp [Bool.or_assoc]
    · have hcells : rowCells land? r bits (b :: bs) = rowCells land? r bits bs := by
        simp [rowCells, hset]
      rw [if_neg hset, ih h hr hit hbs, hcells]

theorem drawRows_eq (h : s.Lands left top wrap land?) (hit : Bool) (r : Nat) (rows : List Int) :
    s.drawRows hit left top wrap r rows =
      ((s.flipAll ((rows.zipIdx r).flatMap fun (bits, r) => rowCells land? r bits (List.range 8))).1,
        hit || (s.flipAll
          ((rows.zipIdx r).flatMap fun (bits, r) => rowCells land? r bits (List.range 8))).2) := by
  induction rows generalizing s hit r with
  | nil => simp [drawRows, flipAll]
  | cons bits rows ih =>
    rw [drawRows]
    by_cases hout : s.side s.height ≤ top + r ∧ ¬ wrap
    · -- this row is below the edge, and so are those that follow
      have hnone : ((bits :: rows).zipIdx r).flatMap
          (fun (bits, r) => rowCells land? r bits (List.range 8)) = [] := by
        refine List.flatMap_eq_nil_iff.2 fun ⟨c, k⟩ hk => ?_
        have hle : r ≤ k := (List.mem_zipIdx hk).1
        refine List.filterMap_eq_nil_iff.2 fun b _ => h.below ⟨?_, hout.2⟩
        have := hout.1
        omega
      rw [hnone]
      simp [hout, flipAll]
    · have hrow := drawBits_eq h hout hit bits (List.pairwise_lt_range (n := 8))
      have hsides := SameSides.flipAll s (rowCells land? r bits (List.range 8))
      rw [if_neg hout]
      dsimp only
      rw [hrow, ih (h.congr hsides), List.zipIdx_cons, List.flatMap_cons, flipAll_append]
      simp [Bool.or_assoc]

/-! ### Both kinds of screens -/

theorem side_of_forward (hs : s.backward = false) (n : Nat) : s.side n = n := by
  unfold side
  rw [hs]
  rfl

theorem side_of_backward (hs : s.backward = true) (n : Nat) : s.side n = -n := by
  unfold side
  rw [hs]
  rfl

theorem number_of_forward (hs : s.backward = false) (x y : Nat) :
    s.number x y = y * s.width + x := by
  have hnumber : (y : Int) * s.side s.width + x = (y * s.width + x : Nat) := by
    rw [side_of_forward hs, Int.natCast_add, Int.natCast_mul]
  unfold number
  dsimp only
  rw [hnumber, if_neg (by omega), Int.toNat_natCast]

theorem wrapped_natCast (n m : Nat) : wrapped n m = ((m % n : Nat) : Int) := by
  unfold wrapped
  split
  · rw [Int.fmod_eq_emod_of_nonneg _ (Int.natCast_nonneg n)]
    exact (Int.natCast_emod m n).symm
  · rw [Nat.mod_eq_of_lt (by omega)]

theorem lands_forward (hs : s.backward = false) (hw : 0 < s.width) (hh : 0 < s.height)
    (x y : Int) (wrap : Bool) :
    s.Lands (x.fmod (s.side s.width)) (y.fmod (s.side s.height)) wrap fun b r =>
      s.target? wrap ((x % s.width).toNat + b) ((y % s.height).toNat + r) := by
  have hside := side_of_forward hs
  obtain ⟨left, hx⟩ := Int.eq_ofNat_of_zero_le (Int.emod_nonneg x (b := s.width) (by omega))
  obtain ⟨top, hy⟩ := Int.eq_ofNat_of_zero_le (Int.emod_nonneg y (b := s.height) (by omega))
  simp only [hside, Int.fmod_eq_emod_of_nonneg _ (Int.natCast_nonneg _), hx, hy, Int.toNat_natCast]
  refine ⟨fun {b r} h => ?_, fun {b r} h => ?_, fun {b r} hr hb => ?_⟩
  · rw [hside] at h
    unfold target?
    rw [if_neg h.2, if_neg fun hin => by omega]
  · rw [hside] at h
    unfold target?
    rw [if_neg h.2, if_neg fun hin => by omega]
  · rw [hside] at hr hb
    refine ⟨((left + b) % s.width, (top + r) % s.height), ?_, ?_⟩
    · unfold target?
      by_cases hwrap : wrap
      · rw [if_pos hwrap]
      · have hx : ¬ (s.width : Int) ≤ left + b := fun hle => hb ⟨hle, hwrap⟩
        have hy : ¬ (s.height : Int) ≤ top + r := fun hle => hr ⟨hle, hwrap⟩
        rw [if_neg hwrap, if_pos (by omega), Nat.mod_eq_of_lt (by omega), Nat.mod_eq_of_lt (by omega)]
    · rw [show (left : Int) + b = (left + b : Nat) by omega,
        show (top : Int) + r = (top + r : Nat) by omega]
      unfold Numbers
      rw [hside, hside, wrapped_natCast, wrapped_natCast]
      exact ⟨number_of_forward hs _ _, Nat.mod_lt _ hw⟩

/-- The places on a screen with sides below zero are counted backward. -/
theorem fmod_neg (x : Int) {n : Nat} (hn : 0 < n) : x.fmod (-n) = -((-x % n).toNat : Int) := by
  have hnonneg : 0 ≤ -x % (n : Int) := Int.emod_nonneg _ (by omega)
  have hneg : x.fmod (-n) = -(-x).fmod n := by rw [← Int.neg_fmod_neg, Int.neg_neg]
  rw [hneg, Int.fmod_eq_emod_of_nonneg _ (Int.natCast_nonneg n), Int.toNat_of_nonneg hnonneg]

theorem numbers_backwardTarget (hs : s.backward = true) (hw : 0 < s.width) (hh : 0 < s.height)
    (x y : Int) :
    s.Numbers (x.fmod (s.side s.width)) (y.fmod (s.side s.height)) (s.backwardTarget x y) := by
  rw [side_of_backward hs, side_of_backward hs, fmod_neg x hw, fmod_neg y hh]
  have hcolumn : (-x % (s.width : Int)).toNat < s.width := by
    have := Int.emod_lt_of_pos (-x) (b := s.width) (by omega)
    omega
  have hrow : (-y % (s.height : Int)).toNat < s.height := by
    have := Int.emod_lt_of_pos (-y) (b := s.height) (by omega)
    omega
  unfold Numbers backwardTarget number
  rw [side_of_backward hs]
  dsimp only
  generalize (-x % (s.width : Int)).toNat = c at hcolumn
  generalize (-y % (s.height : Int)).toNat = r at hrow
  have hmul : -(r : Int) * -(s.width : Int) = (r * s.width : Nat) := by
    rw [Int.neg_mul_neg, Int.natCast_mul]
  rw [hmul]
  by_cases hc : c = 0
  · rw [if_pos hc, if_neg (by omega)]
    exact ⟨by show _ = r * s.width + 0; omega, hw⟩
  · rw [if_neg hc]
    refine ⟨?_, by show s.width - c < s.width; omega⟩
    dsimp only
    cases r with
    | zero =>
      have hlast : (0 + s.height - 1) % s.height = s.height - 1 := by
        rw [Nat.zero_add]
        exact Nat.mod_eq_of_lt (by omega)
      have hall : s.width * s.height = (s.height - 1) * s.width + s.width := by
        rw [Nat.mul_comm, ← Nat.succ_mul]
        congr 1
        omega
      rw [hlast, Nat.zero_mul, if_pos (by omega), ← Int.natCast_mul, hall]
      omega
    | succ r =>
      have hprev : (r + 1 + s.height - 1) % s.height = r := by
        rw [show r + 1 + s.height - 1 = r + s.height by omega, Nat.add_mod_right]
        exact Nat.mod_eq_of_lt (by omega)
      rw [hprev, Nat.succ_mul, if_neg (by omega)]
      omega

theorem lands_backward (hs : s.backward = true) (hw : 0 < s.width) (hh : 0 < s.height)
    (x y : Int) (wrap : Bool) :
    s.Lands (x.fmod (s.side s.width)) (y.fmod (s.side s.height)) wrap fun b r =>
      if wrap then some (s.backwardTarget (x + b) (y + r)) else none := by
  -- every place is beyond the edges of such a screen
  have hbeyond (z : Int) (n k : Nat) (hn : 0 < n) : s.side n ≤ z.fmod (s.side n) + k := by
    have := Int.emod_lt_of_pos (-z) (b := n) (by omega)
    rw [side_of_backward hs, fmod_neg z hn]
    omega
  have hwrapped (z : Int) (n k : Nat) (hn : 0 < n) :
      wrapped (s.side n) (z.fmod (s.side n) + k) = (z + k).fmod (s.side n) := by
    unfold wrapped
    rw [if_pos (hbeyond z n k hn), Int.fmod_add_fmod]
  refine ⟨fun {b r} h => if_neg h.2, fun {b r} h => if_neg h.2, fun {b r} hr _ => ?_⟩
  have hwrap : wrap = true := by
    cases wrap with
    | true => rfl
    | false => exact absurd ⟨hbeyond y s.height r hh, by decide⟩ hr
  refine ⟨s.backwardTarget (x + b) (y + r), if_pos hwrap, ?_⟩
  rw [hwrapped x s.width b hw, hwrapped y s.height r hh]
  exact numbers_backwardTarget hs hw hh _ _

theorem flatMap_rowCells (land? : Nat → Nat → Option (Nat × Nat)) (rows : List Int) :
    (rows.zipIdx.flatMap fun (bits, r) => rowCells land? r bits (List.range 8)) =
      (spritePlaces rows).filterMap fun (b, r) => land? b r := by
  unfold spritePlaces rowCells
  rw [List.filterMap_flatMap]
  simp only [List.filterMap_map]
  rfl

/-- Drawing inverts the cells under the set bits that are on the screen, row after row and from the
left. -/
theorem draw_eq_flipAll (s : Screen) (x y : Int) (rows : List Int) (wrap : Bool) :
    s.draw x y rows wrap =
      if s.width = 0 ∨ s.height = 0 then .error .noCells
      else .ok ({ (s.flipAll (s.spriteCells x y rows wrap)).1 with needsRedraw := true },
        (s.flipAll (s.spriteCells x y rows wrap)).2) := by
  unfold draw
  split
  · rfl
  · rename_i hsides
    have hw : 0 < s.width := by omega
    have hh : 0 < s.height := by omega
    dsimp only
    cases hs : s.backward with
    | false =>
      have hcells : s.spriteCells x y rows wrap = (spritePlaces rows).filterMap fun (b, r) =>
          s.target? wrap ((x % s.width).toNat + b) ((y % s.height).toNat + r) := by
        simp [spriteCells, hs]
      rw [drawRows_eq (lands_forward hs hw hh x y wrap), flatMap_rowCells, hcells, Bool.false_or]
    | true =>
      have hcells : s.spriteCells x y rows wrap = (spritePlaces rows).filterMap fun (b, r) =>
          if wrap then some (s.backwardTarget (x + b) (y + r)) else none := by
        unfold spriteCells
        rw [if_pos hs]
        cases wrap with
        | true => exact (congrFun List.filterMap_eq_map _).symm
        | false => simp
      rw [drawRows_eq (lands_backward hs hw hh x y wrap), flatMap_rowCells, hcells, Bool.false_or]

end Chip8.Screen
