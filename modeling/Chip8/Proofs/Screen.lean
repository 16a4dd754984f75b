import Chip8.Proofs.Screen.Loop

/-!
# The usual screen

A screen is `Usual` if it has 64 cells in a row and 32 rows. Clearing and drawing keep it so. A sprite
can always be drawn on it, and every place within its sides can be looked at.
-/

namespace Chip8.Screen

structure Usual (s : Screen) : Prop where
  width : s.width = 64
  height : s.height = 32
  forward : s.backward = false

variable {s : Screen}

namespace Usual

theorem clear (h : s.Usual) : s.clear.Usual := ⟨h.width, h.height, h.forward⟩

theorem markPresented (h : s.Usual) : s.markPresented.Usual := ⟨h.width, h.height, h.forward⟩

theorem flip (h : s.Usual) (x y : Nat) : (s.flip x y).Usual := by
  unfold Screen.flip invert
  split
  · exact ⟨h.width, h.height, h.forward⟩
  · exact h

theorem flipAll (h : s.Usual) (l : List (Nat × Nat)) : (s.flipAll l).1.Usual := by
  induction l generalizing s with
  | nil => exact h
  | cons p l ih => exact ih (h.flip p.1 p.2)

theorem exists_draw (h : s.Usual) (x y : Int) (rows : List Int) (wrap : Bool) :
    ∃ t hit, s.draw x y rows wrap = .ok (t, hit) ∧ t.Usual := by
  have ht := h.flipAll (s.spriteCells x y rows wrap)
  refine ⟨{ (s.flipAll (s.spriteCells x y rows wrap)).1 with needsRedraw := true },
    (s.flipAll (s.spriteCells x y rows wrap)).2, ?_, ⟨ht.width, ht.height, ht.forward⟩⟩
  rw [draw_eq_flipAll, if_neg (by rw [h.width, h.height]; omega)]

theorem exists_pixel (h : s.Usual) {x y : Int} (hx : 0 ≤ x ∧ x < 64) (hy : 0 ≤ y ∧ y < 32) :
    ∃ lit, s.pixel x y = .ok lit := by
  refine ⟨s.cell x.toNat y.toNat, ?_⟩
  unfold pixel side
  simp only [h.width, h.height, h.forward, Bool.false_eq_true, if_false]
  exact if_pos ⟨hx.1, hx.2, hy.1, hy.2⟩

theorem length_pixels (h : s.Usual) : s.pixels.length = 64 * 32 := by
  unfold pixels
  rw [Vector.length_toList, h.width, h.height]

end Usual

/-! ### Screens that differ in nothing but whether they were presented -/

theorem flip_markPresented (s : Screen) (x y : Nat) :
    s.markPresented.flip x y = (s.flip x y).markPresented := by
  by_cases hk : y * s.width + x < s.width * s.height
  · have hs : s.flip x y = { s with
        cells := s.cells.set (y * s.width + x) (!s.cells[y * s.width + x]) } := dif_pos hk
    rw [hs]
    exact dif_pos hk
  · have hs : s.flip x y = s := dif_neg hk
    rw [hs]
    exact dif_neg hk

theorem flipAll_markPresented (s : Screen) (l : List (Nat × Nat)) :
    s.markPresented.flipAll l = ((s.flipAll l).1.markPresented, (s.flipAll l).2) := by
  induction l generalizing s with
  | nil => rfl
  | cons p l ih =>
    have hcell : s.markPresented.cell p.1 p.2 = s.cell p.1 p.2 := rfl
    simp only [flipAll, flip_markPresented, ih, hcell]

theorem draw_markPresented (s : Screen) (x y : Int) (rows : List Int) (wrap : Bool) :
    s.markPresented.draw x y rows wrap = s.draw x y rows wrap := by
  have hcells : s.markPresented.spriteCells x y rows wrap = s.spriteCells x y rows wrap := rfl
  rw [draw_eq_flipAll, draw_eq_flipAll, hcells, flipAll_markPresented]
  rfl

/-- A cleared screen of the usual sides is a new one. -/
theorem Usual.markPresented_clear (h : s.Usual) :
    s.clear.markPresented = ({} : Screen).markPresented := by
  obtain ⟨width, height, backward, cells, redraw⟩ := s
  obtain ⟨rfl, rfl, rfl⟩ := h
  rfl

end Chip8.Screen
