import Chip8.Proofs.Bus.Record
import Chip8.Proofs.Machine.Standard

/-!
# Buses that are alike

Two buses of one layout that hold the same bytes cannot be told apart by reading and writing: each
access gives the same answer on both, or the same error, and leaves them alike (`Alike.read`,
`Alike.write`). The same goes for loads of many bytes. Switched off and filled with the font again,
any bus of the standard layout is alike to a new one (`alike_powerOff`).
-/

namespace Chip8.Bus

variable {b c : Bus} {a v : Int} {n : UInt8}

namespace Alike

variable {b' c' : Bus}

theorem read (h : b.Alike c) (a : Int) :
    (∃ n, b.read a = .ok (n, { b with accesses := b.accesses ++ [.read a n] }) ∧
        c.read a = .ok (n, { c with accesses := c.accesses ++ [.read a n] })) ∨
      ∃ e, b.read a = .error e ∧ c.read a = .error e := by
  by_cases hm : b.Mapped a
  · obtain ⟨n, hn⟩ := exists_byte? hm
    have hn' : c.byte? a = some n := by rw [← h.byte?_eq, hn]
    exact .inl ⟨n, read_eq_ok_iff.2 ⟨hn, rfl⟩, read_eq_ok_iff.2 ⟨hn', rfl⟩⟩
  · have hm' : ¬ c.Mapped a := fun h' => hm ((mapped_congr h.layout_eq a).2 h')
    exact .inr ⟨_, read_of_not_mapped hm, read_of_not_mapped hm'⟩

theorem written (h : b.Alike c) (hb : b.write a v = .ok b') (hc : c.write a v = .ok c') :
    b'.Alike c' := by
  refine ⟨?_, fun x => ?_⟩
  · rw [layout_write hb, layout_write hc, h.layout_eq]
  · simp only [byte?_write hb, byte?_write hc, kind?_congr h.layout_eq, sameCell_congr h.layout_eq,
      h.byte?_eq]

/-- A write that is refused is refused for the same reason: nothing is there, or it is no byte. -/
theorem write (h : b.Alike c) (a v : Int) :
    (∃ n b' c', b.write a v = .ok b' ∧ c.write a v = .ok c' ∧ b'.Alike c' ∧
        b'.accesses = b.accesses ++ [.write a v n] ∧ c'.accesses = c.accesses ++ [.write a v n]) ∨
      ∃ e, b.write a v = .error e ∧ c.write a v = .error e := by
  have hk := kind?_congr h.layout_eq a
  by_cases hm : b.Mapped a
  · have hm' : c.Mapped a := (mapped_congr h.layout_eq a).1 hm
    by_cases hv : b.kind? a = some .ram → 0 ≤ v ∧ v ≤ 0xFF
    · obtain ⟨b', hb⟩ := exists_write hm hv
      obtain ⟨c', hc⟩ := exists_write hm' (hk ▸ hv)
      obtain ⟨n, hn⟩ := exists_byte? hm
      have hn' : c.byte? a = some n := by rw [← h.byte?_eq, hn]
      exact .inl ⟨n, b', c', hb, hc, h.written hb hc, accesses_write hb hn, accesses_write hc hn'⟩
    · obtain ⟨hr, hv⟩ := Classical.not_imp.1 hv
      exact .inr ⟨_, write_of_not_byte hr hv, write_of_not_byte (hk ▸ hr) hv⟩
  · have hm' : ¬ c.Mapped a := fun h' => hm ((mapped_congr h.layout_eq a).2 h')
    exact .inr ⟨_, write_of_not_mapped v hm, write_of_not_mapped v hm'⟩

theorem loaded (h : b.Alike c) (hb : b.load a v = .ok b') (hc : c.load a v = .ok c') :
    b'.Alike c' := by
  refine ⟨?_, fun x => ?_⟩
  · rw [layout_load hb, layout_load hc, h.layout_eq]
  · simp only [byte?_load hb, byte?_load hc, sameCell_congr h.layout_eq, h.byte?_eq]

theorem loadAll {s : Int} {data : List UInt8} (h : b.Alike c) (hb : (b.loadAll s data).2 = .ok ())
    (hc : (c.loadAll s data).2 = .ok ()) : (b.loadAll s data).1.Alike (c.loadAll s data).1 := by
  induction data generalizing b c s with
  | nil => exact h
  | cons n data ih =>
    cases hb' : b.load s n.toNat with
    | error e => rw [Bus.loadAll, hb'] at hb; cases hb
    | ok b' =>
      cases hc' : c.load s n.toNat with
      | error e => rw [Bus.loadAll, hc'] at hc; cases hc
      | ok c' =>
        rw [loadAll_cons_of_ok hb'] at hb ⊢
        rw [loadAll_cons_of_ok hc'] at hc ⊢
        exact ih (h.loaded hb' hc') hb hc

end Alike

/-! ### Without power -/

/-- Nothing but the layout is left of writable memory that lost its power. -/
theorem byte?_powerOff_of_ram (hk : b.kind? a = some .ram) : b.powerOff.byte? a = some 0 := by
  obtain ⟨n, hn⟩ := exists_byte? (mapped_of_kind? hk)
  rw [byte?_powerOff, if_pos hk, hn]
  rfl

/-- What the memory held before plays no part: the writable bytes are cleared, and the font covers
all of the others. -/
theorem alike_powerOff (hb : b.Standard) (hc : c.Standard) :
    (Font.loadInto b.powerOff).1.Alike (Font.loadInto c.powerOff).1 := by
  have hb' : b.powerOff.Standard := hb.congr (layout_powerOff b)
  have hc' : c.powerOff.Standard := hc.congr (layout_powerOff c)
  obtain ⟨hbl, hbs, -⟩ := loadInto_of_standard hb'
  obtain ⟨hcl, hcs, -⟩ := loadInto_of_standard hc'
  refine ⟨hbs.trans hcs.symm, fun x => ?_⟩
  unfold Font.loadInto at hbl hcl ⊢
  rw [byte?_loadAll hb'.unshared hbl, byte?_loadAll hc'.unshared hcl]
  split
  · rfl
  · rename_i hx
    by_cases hram : 80 ≤ x ∧ x < 0x1000
    · rw [byte?_powerOff_of_ram (hb.kind?_eq_ram_iff.2 hram),
        byte?_powerOff_of_ram (hc.kind?_eq_ram_iff.2 hram)]
    · have hout : ¬ (0 ≤ x ∧ x < 0x1000) := by
        unfold Font.start at hx
        have hlen : Font.glyphs.length = 80 := rfl
        rw [hlen] at hx
        omega
      have hnone {d : Bus} (hd : d.Standard) : d.byte? x = none :=
        byte?_of_not_mapped (hd.mapped_iff.not.2 hout)
      rw [hnone hb', hnone hc']

/-- A bus that was never used is as one without power. -/
theorem powerOff_standardBus : Machine.standardBus.powerOff = Machine.standardBus := by
  simp [powerOff, clearDevice, Machine.standardBus, Device.clear_blank]

end Chip8.Bus
