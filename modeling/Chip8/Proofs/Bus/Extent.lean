import Chip8.Proofs.Bus.Call

/-!
# The extent of a bus

The size of a bus is the end of its last region. Below it there may be gaps: a bus is `Gapless` if
every address below its size is mapped. No call but a registration changes the layout (`layout_call`),
and no registration leaves an empty region (`filled_calls`), so that at least the last address below
the size is mapped (`mapped_last`).
-/

namespace Chip8.Bus

variable {b b' : Bus}

def Gapless (b : Bus) : Prop := ∀ a : Int, 0 ≤ a → a < b.size → b.Mapped a

/-- Every region has an address. -/
def Filled (b : Bus) : Prop := ∀ p ∈ b.placements, 0 < (b.device p.device).size

/-! ### No region is empty -/

theorem layout_call {c : Call} (hc : ¬ c.Registers) : (b.call c).state.layout = b.layout := by
  have h := b.called c
  generalize b.call c = o at h
  cases h with
  | registered | placed => exact absurd trivial hc
  | wrote h => exact layout_write h
  | loaded h => exact layout_load h
  | _ => rfl

theorem filled_iff_layout : b.Filled ↔ ∀ s ∈ b.layout, 0 < s.size := by
  simp [Filled, layout, slot]

theorem Filled.congr (h : b.Filled) (hb : b'.layout = b.layout) : b'.Filled := by
  rw [filled_iff_layout, hb]
  exact filled_iff_layout.1 h

theorem Filled.place (h : b.Filled) {d : Device} {number start : Nat} (hd : b.devices[number]? = some d)
    (hs : 0 < d.size) :
    Filled { b with placements := insertPlacement ⟨start, number⟩ b.placements } := by
  intro p hp
  rcases mem_insertPlacement.1 hp with rfl | hp
  · show 0 < (b.devices.getD number _).size
    rw [List.getD_eq_getElem?_getD, hd]
    exact hs
  · exact h p hp

/-- A device that is in no place yet leaves the regions as they are. -/
theorem Filled.addDevice (h : b.Filled) (device : Option Device) : (b.addDevice device).Filled := by
  intro p hp
  have hsize := h p hp
  have hlt := lt_length_of_size_pos hsize
  show 0 < ((b.devices ++ device.toList).getD p.device _).size
  rwa [List.getD_eq_getElem?_getD, List.getElem?_append_left hlt, ← List.getD_eq_getElem?_getD]

theorem Filled.call (h : b.Filled) (c : Call) : (b.call c).state.Filled := by
  by_cases hr : c.Registers
  · have hc := b.called c
    generalize b.call c = o at hc
    cases hc with
    | registered ha =>
      obtain ⟨h₀, hle, d, hd, hs⟩ := (b.accepts_register_iff ..).1 ha
      exact (h.addDevice _).place hd (by omega)
    | placed ha =>
      obtain ⟨h₀, hle, d, hd, hs⟩ := ha
      exact h.place hd (by omega)
    | rejected | unmapped => exact h
    | _ => exact hr.elim
  · exact h.congr (layout_call hr)

theorem Filled.calls (h : b.Filled) (cs : List Call) : (b.calls cs).Filled := by
  induction cs generalizing b with
  | nil => exact h
  | cons c cs ih => exact ih (h.call c)

theorem filled_calls (cs : List Call) : (({} : Bus).calls cs).Filled :=
  Filled.calls (by simp [Filled]) cs

/-! ### The size -/

theorem foldl_stop (rs : List Region) (n : Nat) :
    rs.foldl (fun n r => max n r.stop) n = n ∨
      ∃ r ∈ rs, r.stop = rs.foldl (fun n r => max n r.stop) n := by
  induction rs generalizing n with
  | nil => exact .inl rfl
  | cons r rs ih =>
    rw [List.foldl_cons]
    rcases ih (max n r.stop) with h | ⟨s, hs, h⟩
    · rcases Nat.le_total n r.stop with hn | hn
      · rw [Nat.max_eq_right hn] at h ⊢
        exact .inr ⟨r, List.mem_cons_self, h.symm⟩
      · rw [Nat.max_eq_left hn] at h ⊢
        exact .inl h
    · exact .inr ⟨s, List.mem_cons_of_mem _ hs, h⟩

theorem Gapless.congr (h : b.Gapless) (hb : b'.layout = b.layout) : b'.Gapless := by
  intro a h₀ ha
  rw [size_congr hb] at ha
  exact (mapped_congr hb a).2 (h a h₀ ha)

theorem mapped_last (h : b.Filled) (hb : 0 < b.size) : b.Mapped (b.size - 1) := by
  rcases foldl_stop b.regions 0 with h₀ | ⟨r, hr, hs⟩
  · have hs : b.size = 0 := h₀
    omega
  · have hs : r.stop = b.size := hs
    obtain ⟨p, hp, rfl⟩ := List.mem_map.1 hr
    have hp₀ : 0 < (b.region p).device.size := h p hp
    refine ⟨b.region p, hr, ?_, ?_⟩
    · have : (b.region p).stop = (b.region p).start + (b.region p).device.size := rfl
      omega
    · omega

/-- Where there is a gap, there is one within the words that lie below the size. -/
theorem exists_gap (h : b.Filled) (hg : ¬ b.Gapless) :
    ∃ a : Int, 0 ≤ a ∧ a + 1 < b.size ∧ ¬ b.Mapped a := by
  simp only [Gapless, Classical.not_forall] at hg
  obtain ⟨a, h₀, ha, hm⟩ := hg
  refine ⟨a, h₀, ?_, hm⟩
  rcases Int.lt_or_eq_of_le (show a + 1 ≤ b.size by omega) with hlt | heq
  · exact hlt
  · have hlast := mapped_last h (by omega)
    rw [show (b.size : Int) - 1 = a by omega] at hlast
    exact absurd hlast hm

end Chip8.Bus
