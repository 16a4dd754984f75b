import Chip8.Device

/-!
# Cells of a device

`cell?` is what a device holds at an offset. A byte put into a cell is found there, every other cell
keeps its byte, and no write changes the kind or the size of a device.
-/

namespace Chip8.Device

variable {d d' : Device} {o v : Int}

def cell? (d : Device) (o : Int) : Option UInt8 := (d.read o).toOption

/-- Kind and size, which no write changes. -/
def SameShape (d d' : Device) : Prop := d'.kind = d.kind ∧ d'.size = d.size

theorem checkOffset_ok (h : 0 ≤ o ∧ o < d.size) : d.checkOffset o = .ok () := if_pos h

theorem cell?_of_lt (h : 0 ≤ o ∧ o < d.size) : d.cell? o = some (d.cells.getD o.toNat 0) := by
  unfold cell? read
  rw [checkOffset_ok h]
  rfl

theorem cell?_of_not_lt (h : ¬ (0 ≤ o ∧ o < d.size)) : d.cell? o = none := by
  unfold cell? read checkOffset
  rw [if_neg h]
  rfl

theorem isSome_cell?_iff : (d.cell? o).isSome ↔ 0 ≤ o ∧ o < d.size := by
  by_cases h : 0 ≤ o ∧ o < d.size
  · simp [cell?_of_lt h, h]
  · simp [cell?_of_not_lt h, h]

theorem put_eq_ok_iff :
    d.put o v = .ok d' ↔ (0 ≤ o ∧ o < d.size) ∧ (0 ≤ v ∧ v ≤ 0xFF) ∧
      d' = { d with cells := d.cells.setIfInBounds o.toNat (UInt8.ofNat v.toNat) } := by
  unfold put
  by_cases ho : 0 ≤ o ∧ o < d.size
  · rw [checkOffset_ok ho]
    by_cases hv : 0 ≤ v ∧ v ≤ 0xFF
    · constructor
      · intro h
        rw [if_pos hv] at h
        cases h
        exact ⟨ho, hv, rfl⟩
      · rintro ⟨-, -, rfl⟩
        rw [if_pos hv]
        rfl
    · constructor
      · intro h
        rw [if_neg hv] at h
        cases h
      · exact fun h => absurd h.2.1 hv
  · constructor
    · intro h
      rw [checkOffset, if_neg ho] at h
      cases h
    · exact fun h => absurd h.1 ho

theorem sameShape_put (h : d.put o v = .ok d') : SameShape d d' := by
  obtain ⟨-, -, rfl⟩ := put_eq_ok_iff.1 h
  exact ⟨rfl, by simp [size]⟩

theorem cell?_put (h : d.put o v = .ok d') (x : Int) :
    d'.cell? x = if x = o then some (UInt8.ofNat v.toNat) else d.cell? x := by
  have hs := (sameShape_put h).2
  obtain ⟨ho, -, rfl⟩ := put_eq_ok_iff.1 h
  by_cases hx : 0 ≤ x ∧ x < d.size
  · rw [cell?_of_lt (by rw [hs]; exact hx), cell?_of_lt hx]
    have hlt : x.toNat < d.cells.size := by unfold size at hx; omega
    simp only [Array.getD_eq_getD_getElem?, Array.getElem?_setIfInBounds]
    by_cases hxo : x = o
    · rw [if_pos hxo, if_pos (by omega), if_pos (by omega)]
      rfl
    · rw [if_neg hxo, if_neg (by omega)]
  · rw [cell?_of_not_lt (by rw [hs]; exact hx), cell?_of_not_lt hx, if_neg]
    rintro rfl
    exact hx ho

theorem write_eq_put (h : d.kind = .ram) (o v : Int) : d.write o v = d.put o v := by
  unfold write
  rw [h]

theorem write_eq_ok_iff_of_rom (h : d.kind = .rom) :
    d.write o v = .ok d' ↔ (0 ≤ o ∧ o < d.size) ∧ d' = d := by
  unfold write
  rw [h]
  show (d.checkOffset o).map (fun _ => d) = .ok d' ↔ _
  by_cases ho : 0 ≤ o ∧ o < d.size
  · rw [checkOffset_ok ho]
    constructor
    · intro h
      cases h
      exact ⟨ho, rfl⟩
    · rintro ⟨-, rfl⟩
      rfl
  · rw [checkOffset, if_neg ho]
    exact ⟨nofun, fun h => absurd h.1 ho⟩

theorem sameShape_write (h : d.write o v = .ok d') : SameShape d d' := by
  cases hk : d.kind with
  | ram => exact sameShape_put (write_eq_put hk o v ▸ h)
  | rom =>
    obtain ⟨-, rfl⟩ := (write_eq_ok_iff_of_rom hk).1 h
    exact ⟨rfl, rfl⟩

theorem cell?_write (h : d.write o v = .ok d') (x : Int) :
    d'.cell? x =
      if x = o ∧ d.kind = .ram then some (UInt8.ofNat v.toNat) else d.cell? x := by
  cases hk : d.kind with
  | ram => simpa using cell?_put (write_eq_put hk o v ▸ h) x
  | rom =>
    obtain ⟨-, rfl⟩ := (write_eq_ok_iff_of_rom hk).1 h
    simp

theorem sameShape_clear (d : Device) : SameShape d d.clear := by
  unfold clear
  split
  · exact ⟨rfl, by simp [size]⟩
  · exact ⟨rfl, rfl⟩

theorem clear_of_rom (h : d.kind = .rom) : d.clear = d := by
  unfold clear
  rw [h]

theorem clear_blank (k : Kind) (n : Nat) : (blank k n).clear = blank k n := by
  cases k <;> simp [clear, blank, size]

theorem clear_clear (d : Device) : d.clear.clear = d.clear := by
  cases hk : d.kind <;> simp [clear, hk, size]

theorem cell?_clear (d : Device) (o : Int) :
    d.clear.cell? o = if d.kind = .ram then (d.cell? o).map fun _ => 0 else d.cell? o := by
  cases hk : d.kind with
  | ram =>
    have hs := (sameShape_clear d).2
    by_cases ho : 0 ≤ o ∧ o < d.size
    · rw [cell?_of_lt (by rw [hs]; exact ho), cell?_of_lt ho]
      have hlt : o.toNat < d.size := by omega
      simp [clear, hk, hlt]
    · rw [cell?_of_not_lt (by rw [hs]; exact ho), cell?_of_not_lt ho]
      rfl
  | rom => simp [clear_of_rom hk]

end Chip8.Device
