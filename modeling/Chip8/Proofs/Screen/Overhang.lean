import Chip8.Proofs.Screen
import Mathlib.Data.List.Basic

/-!
# Sprites at the edges

A sprite `Overhangs` if its box, from the place that its upper left corner is brought back to, crosses
the right or the lower edge of the screen. One that does not is drawn the same whether sprites wrap or
are cut off (`draw_of_not_overhangs`).
-/

namespace Chip8.Screen

variable {s : Screen}

/-- The box of a sprite, eight cells wide and with its upper left corner brought back onto the screen,
crosses the right or the lower edge. -/
def Overhangs (s : Screen) (x y : Int) (height : Nat) : Prop :=
  s.side s.width < x.fmod (s.side s.width) + 8 ∨
    s.side s.height < y.fmod (s.side s.height) + height

instance (s : Screen) (x y : Int) (height : Nat) : Decidable (s.Overhangs x y height) :=
  inferInstanceAs (Decidable (_ ∨ _))

theorem lt_of_mem_spritePlaces {rows : List Int} {b r : Nat} (h : (b, r) ∈ spritePlaces rows) :
    b < 8 ∧ r < rows.length := by
  unfold spritePlaces at h
  obtain ⟨⟨bits, k⟩, hk, hb⟩ := List.mem_flatMap.1 h
  obtain ⟨c, hc, hcb⟩ := List.mem_map.1 hb
  cases hcb
  exact ⟨List.mem_range.1 (List.mem_filter.1 hc).1, by simpa using List.snd_lt_of_mem_zipIdx hk⟩

/-- On a screen with sides below zero every sprite overhangs. -/
theorem forward_of_not_overhangs {x y : Int} {height : Nat} (hw : s.width ≠ 0)
    (h : ¬ s.Overhangs x y height) : s.backward = false := by
  cases hb : s.backward with
  | false => rfl
  | true =>
    have hlt := Int.emod_lt_of_pos (-x) (b := s.width) (by omega)
    refine absurd (.inl ?_) h
    rw [side_of_backward hb, fmod_neg x (by omega)]
    omega

/-- A sprite that does not overhang is drawn as it is. -/
theorem spriteCells_of_not_overhangs {x y : Int} {rows : List Int} (hw : s.width ≠ 0)
    (hh : s.height ≠ 0) (h : ¬ s.Overhangs x y rows.length) (wrap : Bool) :
    s.spriteCells x y rows wrap = (spritePlaces rows).map fun (b, r) =>
      ((x % s.width).toNat + b, (y % s.height).toNat + r) := by
  have hforward := forward_of_not_overhangs hw h
  have hside := side_of_forward hforward
  unfold Overhangs at h
  simp only [hside, Int.fmod_eq_emod_of_nonneg _ (Int.natCast_nonneg _)] at h
  have hleft : 0 ≤ x % s.width := Int.emod_nonneg x (by omega)
  have htop : 0 ≤ y % s.height := Int.emod_nonneg y (by omega)
  unfold spriteCells
  rw [hforward, if_neg (by decide)]
  refine List.filterMap_eq_map_iff_forall_eq_some.2 fun ⟨b, r⟩ hp => ?_
  obtain ⟨hb, hr⟩ := lt_of_mem_spritePlaces hp
  have hx : (x % s.width).toNat + b < s.width := by omega
  have hy : (y % s.height).toNat + r < s.height := by omega
  unfold target?
  dsimp only
  cases wrap with
  | true => rw [if_pos rfl, Nat.mod_eq_of_lt hx, Nat.mod_eq_of_lt hy]
  | false => rw [if_neg (by decide), if_pos ⟨hx, hy⟩]

theorem draw_of_not_overhangs {x y : Int} {rows : List Int} (h : ¬ s.Overhangs x y rows.length)
    (wrap wrap' : Bool) : s.draw x y rows wrap' = s.draw x y rows wrap := by
  rw [draw_eq_flipAll, draw_eq_flipAll]
  by_cases hs : s.width = 0 ∨ s.height = 0
  · rw [if_pos hs, if_pos hs]
  · obtain ⟨hw, hh⟩ := not_or.1 hs
    rw [spriteCells_of_not_overhangs hw hh h, spriteCells_of_not_overhangs hw hh h]

end Chip8.Screen
