import Chip8.Proofs.Machine.Effect
import Chip8.Proofs.Machine.Reached
import Chip8.Proofs.Machine.Word

/-!
# Blocks of registers

`FX55` stores the registers up to `VX` in the memory at the index, and `FX65` loads them from there. A
block may go around the end of the memory and on into the font, which keeps its bytes. The load finds
the registers that came to lie above the font, and bytes of the font for the others
(`load_inverts_store`).
-/

namespace Chip8

namespace State

/-- What is found in the place of a register when the registers were stored. -/
def stored (s : State) (k : Fin 16) : Int :=
  if 0x50 ≤ s.indexed k then s.reg k else (Font.glyphs.getD (s.indexed k).toNat 0).toNat

theorem toNat_stored {s : State} (hs : ∀ k, 0 ≤ s.reg k ∧ s.reg k ≤ 0xFF) (k : Fin 16) :
    ((UInt8.ofNat (s.stored k).toNat).toNat : Int) = s.stored k := by
  have hk := hs k
  have hn := (Font.glyphs.getD (s.indexed k).toNat 0).toNat_lt
  rw [UInt8.toNat_ofNat']
  unfold stored
  split <;> omega

theorem indexed_inj {s : State} {j k : Nat} (hj : j < 0x1000) (hk : k < 0x1000)
    (h : s.indexed j = s.indexed k) : j = k := by
  unfold indexed at h
  omega

end State

namespace Machine

variable {m t : Machine} {s : State} {w v : Word} {x : Fin 16} {l : List Int}

/-- The index that the transfer of a block leaves. -/
def nextIndex (m : Machine) (x : Fin 16) : Int :=
  if m.dialect.loadStoreIncrementsI then (m.state.index + x + 1) % 0x1000 else m.state.index

theorem run_endBlock (x : Fin 16) (m : Machine) :
    (endBlock x).run m =
      ⟨{ m with state := { m.state with index := m.nextIndex x } }, .ok (), []⟩ := by
  have hbehind : m.state.indexed (x + 1) = (m.state.index + x + 1) % 0x1000 := by
    unfold State.indexed
    omega
  unfold endBlock nextIndex
  rw [Action.run_modify]
  dsimp only
  rw [hbehind]
  cases m.dialect.loadStoreIncrementsI <;> rfl

/-! ### Storing -/

/-- Numbers written from an address on are found there, but for those that fell on the font. -/
theorem run_writeBlock (hb : m.bus.Standard) {f : Nat → Int} (k n : Nat)
    (hf : ∀ i, k ≤ i → i < k + n → 0 ≤ f i ∧ f i ≤ 0xFF) (hn : k + n ≤ 0x1000) :
    ∃ b l, (writeBlock s k ((List.range' k n).map f)).run m = ⟨{ m with bus := b }, .ok (), l⟩ ∧
      b.Standard ∧ (∀ a, (∀ i, k ≤ i → i < k + n → a ≠ s.indexed i) → b.byte? a = m.bus.byte? a) ∧
      ∀ i, k ≤ i → i < k + n → b.byte? (s.indexed i) =
        if 0x50 ≤ s.indexed i then some (UInt8.ofNat (f i).toNat)
        else m.bus.byte? (s.indexed i) := by
  induction n generalizing k m with
  | zero => exact ⟨m.bus, [], rfl, hb, fun _ _ => rfl, fun i _ _ => by omega⟩
  | succ n ih =>
    have hk := hb.mapped_iff.2 (s.indexed_range k)
    obtain ⟨c, hc⟩ := Bus.exists_write hk fun _ => hf k (by omega) (by omega)
    have hcs : c.Standard := hb.congr (Bus.layout_write hc)
    have hbyte (a : Int) : c.byte? a = if a = s.indexed k ∧ 0x50 ≤ s.indexed k
        then some (UInt8.ofNat (f k).toNat) else m.bus.byte? a := by
      rw [Bus.byte?_write_of_unshared hb.unshared hc]
      simp only [hb.kind?_eq_ram_iff, (s.indexed_range k).2, and_true]
    obtain ⟨b, l, hrun, hbs, hout, hin⟩ := ih (m := { m with bus := c }) hcs (k + 1)
      (fun i h₁ h₂ => hf i (by omega) (by omega)) (by omega)
    -- the addresses are distinct, so no number is written over
    have hne (i : Nat) (h₁ : k + 1 ≤ i) (h₂ : i < k + 1 + n) : s.indexed i ≠ s.indexed k := by
      intro h
      have := State.indexed_inj (by omega) (by omega) h
      omega
    refine ⟨b, _, Action.run_bind_eq_ok.2 ⟨_, (), _, l, run_write_of_ok hc, hrun, rfl⟩, hbs, ?_, ?_⟩
    · intro a ha
      rw [hout a fun i h₁ h₂ => ha i (by omega) (by omega), hbyte, if_neg]
      rintro ⟨h, -⟩
      exact ha k (by omega) (by omega) h
    · intro i h₁ h₂
      rcases Nat.eq_or_lt_of_le h₁ with rfl | h₁
      · rw [hout _ fun i h₁ h₂ => (hne i h₁ h₂).symm, hbyte]
        simp only [true_and]
      · rw [hin i h₁ (by omega), hbyte]
        simp only [hne i h₁ (by omega), false_and, if_false]

/-- The same register may be loaded twice, from the same byte. -/
theorem run_loadBlock (hb : m.bus.Standard) (s : State) (l : List (Fin 16)) :
    ∃ t, (loadBlock s l).run m = ⟨t, .ok (), []⟩ ∧
      ∀ x ∈ l, ∀ n, m.bus.byte? (s.indexed x) = some n → t.state.reg x = n.toNat := by
  induction l generalizing m with
  | nil => exact ⟨m, rfl, fun x hx => absurd hx List.not_mem_nil⟩
  | cons x l ih =>
    obtain ⟨n, b, hr, hn⟩ := Bus.exists_read (hb.mapped_iff.2 (s.indexed_range x))
    let u : Machine := { m with bus := b, state := m.state.setReg x n.toNat }
    have hub (a : Int) : u.bus.byte? a = m.bus.byte? a := Bus.byte?_read hr a
    obtain ⟨t, hrun, hreg⟩ := ih (m := u) (hb.congr (Bus.layout_read hr))
    refine ⟨t, ?_, ?_⟩
    · unfold loadBlock
      rw [Action.run_bind_of_ok (run_read_of_ok hr)]
      exact hrun
    · intro y hy k hk
      by_cases hyl : y ∈ l
      · exact hreg y hyl k ((hub _).trans hk)
      · obtain rfl : y = x := (List.mem_cons.1 hy).resolve_right hyl
        cases hn.symm.trans hk
        have hsame := causes_loadBlock (P := fun p => ∃ z ∈ l, p = .register z) s l
          (fun z hz => ⟨z, hz, rfl⟩) hrun
        have := hsame.changes (.register y) (by simpa using hyl)
        rw [show t.state.reg y = _ from this]
        simp [u]

/-! ### Instructions -/

theorem byte?_of_font (hf : m.bus.FontIntact) {a : Int} (h₀ : 0 ≤ a) (h₁ : a < 0x50) :
    m.bus.byte? a = some (Font.glyphs.getD a.toNat 0) := by
  have hlen : Font.glyphs.length = 80 := rfl
  have hk := hf a.toNat (by omega)
  rw [Int.toNat_of_nonneg h₀, List.getElem?_eq_getElem (by omega)] at hk
  rw [hk, List.getD_eq_getElem?_getD, List.getElem?_eq_getElem (by omega)]
  rfl

theorem run_store (hb : m.bus.Standard) (hf : m.bus.FontIntact)
    (hr : ∀ k, 0 ≤ m.state.reg k ∧ m.state.reg k ≤ 0xFF) (w : Word) :
    ∃ t l, (execute ⟨.store, w⟩).run m = ⟨t, .ok (), l⟩ ∧ t.bus.Standard ∧
      t.dialect = m.dialect ∧ t.state = { m.state with index := m.nextIndex w.x } ∧
      (∀ a, (∀ k ≤ w.x, a ≠ m.state.indexed k) → t.bus.byte? a = m.bus.byte? a) ∧
      ∀ k ≤ w.x, t.bus.byte? (m.state.indexed k) =
        some (UInt8.ofNat (m.state.stored k).toNat) := by
  have hx := w.x.isLt
  have hlist : (upTo w.x).map m.state.reg =
      (List.range' 0 (w.x + 1)).map fun k => m.state.reg (Fin.ofNat 16 k) := by
    rw [upTo_eq, List.map_map, List.range_eq_range']
    rfl
  obtain ⟨b, l, hrun, hbs, hout, hin⟩ := run_writeBlock (s := m.state)
    (f := fun k => m.state.reg (Fin.ofNat 16 k)) hb 0 (w.x + 1) (fun i _ _ => hr _) (by omega)
  refine ⟨{ m with bus := b, state := { m.state with index := m.nextIndex w.x } }, l ++ [], ?_, hbs,
    rfl, rfl, ?_, ?_⟩
  · show (writeBlock m.state 0 ((upTo w.x).map m.state.reg) >>= fun _ => endBlock w.x).run m = _
    rw [hlist, Action.run_bind_ok hrun, run_endBlock]
    rfl
  · intro a ha
    refine hout a fun i _ hi => ?_
    have := ha ⟨i, by omega⟩ (by rw [Fin.le_def]; dsimp only; omega)
    exact this
  · intro k hk
    have hk' := Fin.le_def.1 hk
    have hk₀ : Fin.ofNat 16 k = k := Fin.ext (Nat.mod_eq_of_lt k.isLt)
    rw [hin k (by omega) (by omega), hk₀]
    unfold State.stored
    split
    · rfl
    · rw [byte?_of_font hf (State.indexed_range ..).1 (by omega), Int.toNat_natCast, UInt8.ofNat_toNat]

theorem run_load (hb : m.bus.Standard) (v : Word) :
    ∃ t, (execute ⟨.load, v⟩).run m = ⟨t, .ok (), []⟩ ∧ t.state.index = m.nextIndex v.x ∧
      ∀ k ≤ v.x, ∀ n, m.bus.byte? (m.state.indexed k) = some n → t.state.reg k = n.toNat := by
  obtain ⟨t, hrun, hreg⟩ := run_loadBlock hb m.state (upTo v.x)
  have hsame := (causes_loadBlock (P := fun p => ∃ x ∈ upTo v.x, p = .register x) m.state _
    (fun x hx => ⟨x, hx, rfl⟩) hrun).changes
  have hd : t.dialect = m.dialect := hsame .dialect (by simp)
  have hi : t.state.index = m.state.index := hsame .index (by simp)
  have hnext : t.nextIndex v.x = m.nextIndex v.x := by
    unfold nextIndex
    rw [hd, hi]
  refine ⟨{ t with state := { t.state with index := t.nextIndex v.x } }, ?_, hnext, ?_⟩
  · show (loadBlock m.state (upTo v.x) >>= fun _ => endBlock v.x).run m = _
    rw [Action.run_bind_of_ok hrun, run_endBlock]
  · intro k hk n hn
    exact hreg k (by simpa [upTo] using hk) n hn

/-- Storing keeps what is below the font's end and all that is beside the block, and loading brings
the registers back that were not lost to the font. What the other registers hold when the block is
loaded is of no account. -/
theorem load_inverts_store (hb : m.bus.Standard) (hf : m.bus.FontIntact)
    (hr : ∀ k, 0 ≤ m.state.reg k ∧ m.state.reg k ≤ 0xFF) (hw : w.family = 0xF ∧ w.byte = 0x55)
    (hv : v.family = 0xF ∧ v.byte = 0x65) (hx : v.x = w.x) :
    ∃ t l, (executeWord w.toNat).run m = ⟨t, .ok (), l⟩ ∧
      (∀ k ≤ w.x, t.bus.byte? (m.state.indexed k) =
        some (UInt8.ofNat (m.state.stored k).toNat)) ∧
      (∀ a, (∀ k ≤ w.x, a ≠ m.state.indexed k) → t.bus.byte? a = m.bus.byte? a) ∧
      t.state = { m.state with index := m.nextIndex w.x } ∧
      ∀ s : State, s.index = m.state.index →
        ∃ u, (executeWord v.toNat).run { t with state := s } = ⟨u, .ok (), []⟩ ∧
          (∀ k ≤ w.x, u.state.reg k = m.state.stored k) ∧
          u.state.index = m.nextIndex w.x ∧
          ∀ p : Part, (∀ k ≤ w.x, p ≠ .register k) → p ≠ .index → p.Same { t with state := s } u := by
  have hstore := Instruction.ofWord?_misc (o := .store) hw.1 (by rw [hw.2]; rfl)
  have hload := Instruction.ofWord?_misc (o := .load) hv.1 (by rw [hv.2]; rfl)
  obtain ⟨t, l, hrun, hts, hd, hstate, hout, hin⟩ := run_store hb hf hr w
  refine ⟨t, l, (run_executeWord hstore m).trans hrun, hin, hout, hstate, ?_⟩
  intro s hs
  obtain ⟨u, hu, hindex, hreg⟩ := run_load (m := { t with state := s }) hts v
  have hsame := (causes_execute _ _ hu).changes
  refine ⟨u, (run_executeWord hload _).trans hu, ?_, ?_, ?_⟩
  · intro k hk
    have hbyte := hin k hk
    have hindexed : s.indexed k = m.state.indexed k := by
      unfold State.indexed
      rw [hs]
    rw [← hindexed] at hbyte
    rw [hreg k (hx ▸ hk) _ hbyte]
    exact State.toNat_stored hr k
  · rw [hindex, hx]
    simp only [nextIndex, hs, hd]
  · intro p hp hi
    refine hsame p fun h => ?_
    cases p with
    | register k => exact hp k (hx ▸ h) rfl
    | index => exact hi rfl
    | _ => simp [Instruction.Changes] at h

/-- Two registers before the end of the memory, and two that the font does not take. -/
theorem load_inverts_store_around_end :
    ∃ m : Machine, m.bus.Standard ∧ m.bus.FontIntact ∧
      (∀ k, 0 ≤ m.state.reg k ∧ m.state.reg k ≤ 0xFF) ∧ m.state.index = 0xFFE ∧
      ∃ t l, (executeWord (UInt16.toNat 0xF355)).run m = ⟨t, .ok (), l⟩ ∧ t.state.index = 2 ∧
        t.bus.byte? 0xFFF = some 11 ∧ t.bus.byte? 0 = some 0xF0 ∧
        ∃ u, (executeWord (UInt16.toNat 0xF365)).run
            { t with state := { t.state with index := 0xFFE } } = ⟨u, .ok (), []⟩ ∧
          u.state.reg 1 = 11 ∧ u.state.reg 2 = 0xF0 ∧ u.state.reg 4 = 14 := by
  let s : State := { index := 0xFFE, v := Vector.ofFn fun k => 10 + k }
  let m : Machine := { booted { loadStoreIncrementsI := true } {} with state := s }
  have hfit := Fit.boot (boot_standard { loadStoreIncrementsI := true } {})
  have hr : ∀ k, 0 ≤ m.state.reg k ∧ m.state.reg k ≤ 0xFF := by decide
  obtain ⟨t, l, ht, hin, -, hstate, hload⟩ :=
    load_inverts_store (m := m) (w := (0xF355 : UInt16)) (v := (0xF365 : UInt16))
      hfit.wellFormed.standard hfit.font hr (by decide) (by decide) (by decide)
  obtain ⟨u, hu, hreg, -, hsame⟩ := hload { t.state with index := 0xFFE } rfl
  have hkept : t.state.reg 4 = 14 := by
    rw [hstate]
    decide
  have hindex : t.state.index = 2 := by
    rw [hstate]
    decide
  have hram := hin 1 (by decide)
  have hfont := hin 2 (by decide)
  rw [show m.state.indexed (1 : Fin 16) = 0xFFF by decide,
    show m.state.stored 1 = 11 by decide] at hram
  rw [show m.state.indexed (2 : Fin 16) = 0 by decide,
    show m.state.stored 2 = 0xF0 by decide] at hfont
  exact ⟨m, hfit.wellFormed.standard, hfit.font, hr, rfl, t, l, ht, hindex, hram, hfont, u, hu,
    hreg 1 (by decide), hreg 2 (by decide),
    Eq.trans (hsame (.register 4) (by decide) (by decide)) hkept⟩

end Machine

end Chip8
