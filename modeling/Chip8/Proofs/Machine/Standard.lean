import Chip8.Machine.Cycle
import Chip8.Proofs.Bus.Traffic

/-!
# The standard layout

A bus is `Standard` if it is laid out as the one that machines are made with: eighty addresses of
read-only memory and writable memory above them, 4096 in all. `FontIntact` says that the read-only
part holds the glyphs; traffic keeps it so, and filling the font in brings it about.
-/

namespace Chip8

namespace Bus

variable {b c : Bus} {a : Int}

def Standard (b : Bus) : Prop := b.layout = Machine.standardBus.layout

theorem layout_standardBus :
    Machine.standardBus.layout = [⟨0, 0, .rom, 80⟩, ⟨80, 1, .ram, 4016⟩] := by
  simp [layout, slot, device, Machine.standardBus, Device.blank, Device.size, Font.start, Font.stop,
    Font.glyphs]

namespace Standard

theorem congr (h : b.Standard) (hc : c.layout = b.layout) : c.Standard := hc.trans h

/-- Each of the two devices stands in one place. -/
theorem unshared (h : b.Standard) : b.Unshared := by
  rw [unshared_congr h]
  decide

theorem kind? (h : b.Standard) (a : Int) :
    b.kind? a =
      if 0 ≤ a ∧ a < 80 then some .rom else if 80 ≤ a ∧ a < 0x1000 then some .ram else none := by
  have hrom : Slot.Contains ⟨0, 0, .rom, 80⟩ a ↔ 0 ≤ a ∧ a < 80 := Iff.rfl
  have hram : Slot.Contains ⟨80, 1, .ram, 4016⟩ a ↔ 80 ≤ a ∧ a < 0x1000 := Iff.rfl
  unfold Bus.kind? slot?
  rw [show b.layout = _ from h, layout_standardBus]
  simp only [List.find?_cons, List.find?_nil, hrom, hram]
  by_cases h₁ : 0 ≤ a ∧ a < 80
  · simp only [h₁, and_self, decide_true, if_true, Option.map_some]
  · by_cases h₂ : 80 ≤ a ∧ a < 0x1000
    · simp only [h₁, h₂, and_self, decide_true, decide_false, if_true, if_false, Option.map_some]
    · simp only [h₁, h₂, decide_false, if_false, Option.map_none]

theorem kind?_eq_rom_iff (h : b.Standard) : b.kind? a = some .rom ↔ 0 ≤ a ∧ a < 80 := by
  rw [h.kind?]
  split
  · exact iff_of_true rfl ‹_›
  · split
    · exact ⟨nofun, fun ha => absurd ha ‹_›⟩
    · exact ⟨nofun, fun ha => absurd ha ‹_›⟩

theorem kind?_eq_ram_iff (h : b.Standard) : b.kind? a = some .ram ↔ 80 ≤ a ∧ a < 0x1000 := by
  rw [h.kind?]
  split
  · exact ⟨nofun, fun ha => by omega⟩
  · split
    · exact iff_of_true rfl ‹_›
    · exact ⟨nofun, fun ha => absurd ha ‹_›⟩

theorem mapped_iff (h : b.Standard) : b.Mapped a ↔ 0 ≤ a ∧ a < 0x1000 := by
  rw [mapped_iff_isSome_kind?, h.kind? a]
  by_cases h₁ : 0 ≤ a ∧ a < 80
  · rw [if_pos h₁]
    exact ⟨fun _ => by omega, fun _ => rfl⟩
  · rw [if_neg h₁]
    by_cases h₂ : 80 ≤ a ∧ a < 0x1000
    · rw [if_pos h₂]
      exact ⟨fun _ => by omega, fun _ => rfl⟩
    · rw [if_neg h₂]
      exact ⟨fun h => absurd h (by decide), fun h => by omega⟩

/-- There is memory for every program that is not too large. -/
theorem mapped_program {k : Nat} (h : b.Standard) (hk : k < 0xE00) : b.Mapped (0x200 + k) :=
  h.mapped_iff.2 (by omega)

theorem size (h : b.Standard) : b.size = 0x1000 := by
  rw [size_eq, show b.layout = _ from h, layout_standardBus]
  rfl

end Standard

/-- The glyphs are in their place. -/
def FontIntact (b : Bus) : Prop := ∀ k < 80, b.byte? (k : Nat) = Font.glyphs[k]?

namespace FontIntact

theorem dump (h : b.FontIntact) : b.dump 0 80 = .ok Font.glyphs := by
  refine dump_eq_ok_iff.2 ⟨rfl, fun k hk => ?_⟩
  rw [Int.zero_add]
  exact h k hk

theorem of_rom (h : b.FontIntact) (hb : b.Standard)
    (hc : ∀ a, b.kind? a = some .rom → c.byte? a = b.byte? a) : c.FontIntact := by
  intro k hk
  rw [hc k (by rw [hb.kind?, if_pos (by omega)]), h k hk]

theorem congr (h : b.FontIntact) (hc : b.Alike c) : c.FontIntact := fun k hk => by
  rw [← hc.byte?_eq, h k hk]

theorem trafficked {as : List Access} (h : b.FontIntact) (hb : b.Standard)
    (t : Trafficked b as c) : c.FontIntact :=
  h.of_rom hb fun _ => t.byte?_of_rom

theorem loadAll {s : Int} {data : List UInt8} (h : b.FontIntact) (hb : b.Standard) (hs : 80 ≤ s)
    (hr : (b.loadAll s data).2 = .ok ()) : (b.loadAll s data).1.FontIntact := by
  intro k hk
  rw [byte?_loadAll hb.unshared hr, if_neg (by omega), h k hk]

theorem load {v : Int} (h : b.FontIntact) (hb : b.Standard) (hl : b.load a v = .ok c)
    (hv : ∀ k < 80, a = (k : Nat) → Font.glyphs[k]? = some (UInt8.ofNat v.toNat)) :
    c.FontIntact := by
  intro k hk
  rw [byte?_load_of_unshared hb.unshared hl]
  by_cases hak : (k : Int) = a
  · rw [if_pos hak, hv k hk hak.symm]
  · rw [if_neg hak, h k hk]

end FontIntact

/-- Filling the font in succeeds on the standard layout and brings the glyphs into place. -/
theorem loadInto_of_standard (h : b.Standard) :
    (Font.loadInto b).2 = .ok () ∧ (Font.loadInto b).1.Standard ∧ (Font.loadInto b).1.FontIntact := by
  have hlen : Font.glyphs.length = 80 := Font.length_glyphs
  have hok : (b.loadAll Font.start Font.glyphs).2 = .ok () := by
    refine loadAll_ok fun k hk => h.mapped_iff.2 ?_
    unfold Font.start
    omega
  refine ⟨hok, h.congr (layout_loadAll ..), fun k hk => ?_⟩
  unfold Font.loadInto
  rw [byte?_loadAll h.unshared hok, hlen, if_pos (by unfold Font.start; omega)]
  simp [Font.start]

end Bus

end Chip8
