import Chip8.Proofs.Machine.Frame
import Chip8.Proofs.Machine.Word
import Chip8.Proofs.Screen.Sprite

/-!
# Drawing from memory

A word `DXYN` draws the `N` bytes at the index, around the end of the memory, at the place that its two
registers hold before the flag is written (`step_draws`).
-/

namespace Chip8

namespace Screen

variable {s : Screen}

/-- No two bits of a sprite of a machine fall on one cell of the usual screen. -/
theorem Usual.exists_drawn (hs : s.Usual) (x y : Int) {rows : List Int} (wrap : Bool)
    (hn : rows.length ≤ 32) :
    ∃ t hit, s.draw x y rows wrap = .ok (t, hit) ∧ t.Usual ∧
      (∀ p, s.Inside p →
        (t.cell p.1 p.2 ≠ s.cell p.1 p.2 ↔ (s.bitsOn x y rows wrap p).Nonempty)) ∧
      (hit = true ↔ ∃ p, s.Inside p ∧ s.cell p.1 p.2 = true ∧ t.cell p.1 p.2 = false) := by
  have hwidth := hs.width
  have hheight := hs.height
  have hside (n : Nat) : s.side n = n := by
    unfold side
    rw [hs.forward, if_neg (by decide)]
  have hcells := inside_spriteCells (s := s) (by omega) (by omega) x y rows wrap
  have hnodup : (s.spriteCells x y rows wrap).Nodup :=
    nodup_spriteCells hs.forward (.inr ⟨by omega, by omega⟩)
  have husual := hs.flipAll (s.spriteCells x y rows wrap)
  refine ⟨_, _, draw_eq (by omega) (by omega) x y rows wrap,
    ⟨husual.width, husual.height, husual.forward⟩, ?_, hit_flipAll_iff_of_nodup hcells hnodup⟩
  intro p hp
  show (s.flipAll (s.spriteCells x y rows wrap)).1.cell p.1 p.2 ≠ _ ↔ _
  rw [cell_flipAll hp hcells, ← Finset.card_pos,
    ← count_spriteCells (by rw [hside]; omega) (by rw [hside]; omega)]
  rcases Nat.le_one_iff_eq_zero_or_eq_one.1 (List.nodup_iff_count_le_one.1 hnodup p) with h | h
  · simp [h]
  · simp [h]

end Screen

namespace Machine

variable {m t : Machine} {w : Word} {high low : UInt8}

/-- What a sprite of `n` rows at the index is, when it is read. -/
def sprite (m : Machine) (n : Nat) : List Int :=
  (List.range n).map fun k => ((m.bus.byte? (m.state.indexed k)).getD 0).toNat

/-- A set bit of the sprite that `w` draws falls on a cell. -/
def Paints (m : Machine) (w : Word) (p : Nat × Nat) : Prop :=
  ∃ k < w.nibble, ∃ row, m.bus.byte? (m.state.indexed k) = some row ∧
    ∃ b < 8, row.toNat.testBit (7 - b) = true ∧
      m.screen.landing? (m.state.reg w.x) (m.state.reg w.y) m.dialect.spriteWrap b k =
        some ((p.1 : Int), (p.2 : Int))

/-- A cell of the screen that was lit is dark now. -/
def Erases (m t : Machine) : Prop :=
  ∃ px < 64, ∃ py < 32, m.screen.cell px py = true ∧ t.screen.cell px py = false

theorem run_readSprite (hb : m.bus.Standard) (s : State) (k n : Nat) :
    ∃ b, (readSprite s k n).run m = ⟨{ m with bus := b },
      .ok ((List.range' k n).map fun j => (((m.bus.byte? (s.indexed j)).getD 0).toNat : Int)), []⟩ := by
  induction n generalizing k m with
  | zero => exact ⟨m.bus, rfl⟩
  | succ n ih =>
    obtain ⟨v, c, hr, hv⟩ := Bus.exists_read (hb.mapped_iff.2 (s.indexed_range k))
    obtain ⟨b, hrest⟩ := ih (m := { m with bus := c }) (hb.congr (Bus.layout_read hr)) (k + 1)
    simp only [funext (Bus.byte?_read hr)] at hrest
    refine ⟨b, ?_⟩
    unfold readSprite
    rw [Action.run_bind_of_ok (run_read_of_ok hr), Action.run_bind_of_ok hrest, Action.run_pure,
      List.range'_succ, List.map_cons, hv]
    rfl

/-- The registers are looked at before the flag is written. -/
theorem run_draw (hb : m.bus.Standard) (x y : Fin 16) (n : Nat) {d : Screen} {hit : Bool}
    (hd : m.screen.draw (m.state.reg x) (m.state.reg y) (m.sprite n) m.dialect.spriteWrap =
      .ok (d, hit)) :
    ∃ t, (draw x y n).run m = ⟨t, .ok (), []⟩ ∧ t.screen = d ∧
      t.state.reg 15 = if hit then 1 else 0 := by
  obtain ⟨b, hread⟩ := run_readSprite hb m.state 0 n
  rw [← List.range_eq_range'] at hread
  let u : Machine := { m with bus := b, state := m.state.setFlag 0 }
  have hdraw : (drawSprite (m.state.reg x) (m.state.reg y) (m.sprite n) m.dialect.spriteWrap).run u =
      ⟨{ u with screen := d }, .ok hit, []⟩ := run_drawSprite_of_ok hd
  have hclear : (modifyState (·.setFlag 0)).run { m with bus := b } = ⟨u, .ok (), []⟩ := rfl
  unfold draw
  rw [Action.run_bind_of_ok (Action.run_get m), Action.run_bind_of_ok hread,
    Action.run_bind_of_ok hclear]
  simp only [sprite] at hdraw
  rw [Action.run_bind_of_ok hdraw]
  cases hit with
  | true => exact ⟨_, rfl, rfl, by simp [State.setFlag]⟩
  | false => exact ⟨_, rfl, rfl, by simp [u, State.setFlag]⟩

theorem nonempty_bitsOn_iff (hb : m.bus.Standard) (w : Word) (p : Nat × Nat) :
    (m.screen.bitsOn (m.state.reg w.x) (m.state.reg w.y) (m.sprite w.nibble)
      m.dialect.spriteWrap p).Nonempty ↔ m.Paints w p := by
  have hrow (k : Nat) (hk : k < w.nibble) :
      ∃ row, m.bus.byte? (m.state.indexed k) = some row ∧
        (m.sprite w.nibble).getD k 0 = (row.toNat : Int) := by
    obtain ⟨row, hrow⟩ := Bus.exists_byte? (hb.mapped_iff.2 (m.state.indexed_range k))
    refine ⟨row, hrow, ?_⟩
    simp [sprite, List.getD_eq_getElem?_getD, hk, hrow]
  have hlen : (m.sprite w.nibble).length = w.nibble := by simp [sprite]
  simp only [Finset.Nonempty, Screen.bitsOn, Finset.mem_filter, Finset.mem_product,
    Finset.mem_range, hlen]
  constructor
  · rintro ⟨⟨b, k⟩, ⟨hb', hk⟩, hbit, hland⟩
    obtain ⟨row, hbyte, hrow⟩ := hrow k hk
    rw [hrow] at hbit
    exact ⟨k, hk, row, hbyte, b, hb', hbit, hland⟩
  · rintro ⟨k, hk, row, hbyte, b, hb', hbit, hland⟩
    obtain ⟨row', hbyte', hrow⟩ := hrow k hk
    cases hbyte.symm.trans hbyte'
    exact ⟨(b, k), ⟨hb', hk⟩, by rw [hrow]; exact hbit, hland⟩

theorem execute_draws (hb : m.bus.Standard) (hs : m.screen.Usual) (w : Word) :
    ∃ t, (execute ⟨.draw, w⟩).run m = ⟨t, .ok (), []⟩ ∧ t.screen.Usual ∧
      (∀ px < 64, ∀ py < 32,
        t.screen.cell px py ≠ m.screen.cell px py ↔ m.Paints w (px, py)) ∧
      (t.state.reg 15 = 1 ↔ m.Erases t) ∧ (t.state.reg 15 = 0 ↔ ¬ m.Erases t) := by
  have hlen : (m.sprite w.nibble).length ≤ 32 := by
    have hn : w.nibble < 16 := Nat.mod_lt _ (by decide)
    simp only [sprite, List.length_map, List.length_range]
    omega
  have hinside (px py : Nat) : m.screen.Inside (px, py) ↔ px < 64 ∧ py < 32 := by
    unfold Screen.Inside
    rw [hs.width, hs.height]
  obtain ⟨d, hit, hdraw, hd, hcells, hhit⟩ :=
    hs.exists_drawn (m.state.reg w.x) (m.state.reg w.y) m.dialect.spriteWrap hlen
  obtain ⟨t, hrun, rfl, hflag⟩ := run_draw hb w.x w.y w.nibble hdraw
  have herases : hit = true ↔ m.Erases t := by
    rw [hhit]
    constructor
    · rintro ⟨⟨px, py⟩, hin, hlit, hdark⟩
      obtain ⟨hpx, hpy⟩ := (hinside px py).1 hin
      exact ⟨px, hpx, py, hpy, hlit, hdark⟩
    · rintro ⟨px, hpx, py, hpy, hlit, hdark⟩
      exact ⟨(px, py), (hinside px py).2 ⟨hpx, hpy⟩, hlit, hdark⟩
  refine ⟨t, (Action.run_bind_of_ok (Action.run_get m) _).trans hrun, hd, ?_, ?_, ?_⟩
  · intro px hpx py hpy
    rw [← nonempty_bitsOn_iff hb]
    exact hcells (px, py) ((hinside px py).2 ⟨hpx, hpy⟩)
  · rw [← herases, hflag]
    cases hit <;> simp
  · rw [← herases, hflag]
    cases hit <;> simp

/-- A step that draws inverts the cells under the set bits of its sprite and tells by the flag whether
it erased any. It changes nothing else. -/
theorem step_draws (hb : m.bus.Standard) (hs : m.screen.Usual) (hw : m.Faces w)
    (hd : w.family = 0xD) :
    ∃ t s l, step.run m = ⟨t, .ok s, l⟩ ∧ s.instruction = ⟨.draw, w⟩ ∧ t.screen.Usual ∧
      (∀ px < 64, ∀ py < 32,
        t.screen.cell px py ≠ m.screen.cell px py ↔ m.Paints w (px, py)) ∧
      (t.state.reg 15 = 1 ↔ m.Erases t) ∧ (t.state.reg 15 = 0 ↔ ¬ m.Erases t) ∧
      t.state.pc = m.state.pc + 2 ∧
      ∀ p : Part, p ≠ .pc → p ≠ .register 15 → p ≠ .screen → p.Same m t := by
  obtain ⟨high, low, hf, rfl⟩ := hw
  -- the fetch changes neither the registers that are read nor a byte of the memory
  obtain ⟨t, hx, husual, hcells, hone, hzero⟩ :=
    execute_draws (m := m.passed high low) hb hs (.ofBytes high low)
  have hstep := run_step_of_execute hf (Instruction.ofWord?_draw hd) hx
  have hpc : t.state.pc = _ := (causes_execute _ _ hx).changes .pc id
  refine ⟨_, _, _, hstep, rfl, husual, hcells, hone, hzero, hpc.trans (passed_pc hb hf), ?_⟩
  intro p hp hpf hps
  refine same_step hb hstep hp fun h => ?_
  cases p with
  | register r => exact hpf (congrArg _ h)
  | screen => exact hps rfl
  | _ => simp [Instruction.Changes] at h

/-- A machine of a dialect in which sprites wrap, with a program that draws two rows. -/
def drawing : Machine := (Deed.loadRom [0xDF, 0x12]).run (booted { spriteWrap := true } {})

/-- A sprite that goes on from the end of the memory in the font and around a corner of the screen, at
a column that the flag register holds. -/
theorem step_draws_around_corner :
    ∃ m : Machine, m.bus.Standard ∧ m.screen.Usual ∧ m.Faces 0xDF12 ∧ Word.family 0xDF12 = 0xD ∧
      m.state.index = 0xFFF ∧ m.state.reg 15 = 62 ∧ m.screen.cell 63 0 = true ∧
      ∃ t s l, step.run m = ⟨t, .ok s, l⟩ ∧ t.screen.cell 63 0 = false ∧
        t.screen.cell 0 0 = true ∧ t.state.reg 15 = 1 := by
  let m : Machine :=
    { drawing with
      state := (({ index := 0xFFF } : State).setReg 15 62).setReg 1 31
      screen := ({} : Screen).flip 63 0 }
  have hr : Reached { spriteWrap := true } {} drawing := .act (.boot (boot_standard _ _)) _
  have hb : m.bus.Standard := by
    dsimp only [m]
    exact hr.fit.wellFormed.standard
  have hs : m.screen.Usual := ⟨rfl, rfl, rfl⟩
  obtain ⟨hready, hinside, hhigh, hlow, hglyph, hleft, hright⟩ :
      m.refusal? = none ∧ m.canFetch = true ∧ m.bus.byte? m.state.pc = some 0xDF ∧
        m.bus.byte? (m.state.pc + 1) = some 0x12 ∧ m.bus.byte? (m.state.indexed 1) = some 0xF0 ∧
        m.screen.landing? 62 31 m.dialect.spriteWrap 1 1 = some (63, 0) ∧
        m.screen.landing? 62 31 m.dialect.spriteWrap 2 1 = some (0, 0) := by decide +kernel
  have hw : m.Faces 0xDF12 := ⟨0xDF, 0x12, ⟨hready, hinside, hhigh, hlow⟩, rfl⟩
  have hpaints (px b : Nat) (hb : b < 8) (hbit : (0xF0 : Nat).testBit (7 - b) = true)
      (hp : m.screen.landing? 62 31 m.dialect.spriteWrap b 1 = some ((px : Int), 0)) :
      m.Paints 0xDF12 (px, 0) := ⟨1, by decide, 0xF0, hglyph, b, hb, hbit, hp⟩
  have hlit : m.screen.cell 63 0 = true := by decide +kernel
  have hunlit : m.screen.cell 0 0 = false := by decide +kernel
  obtain ⟨t, s, l, ht, -, -, hcells, hone, -⟩ := step_draws hb hs hw (by decide)
  have hdark : t.screen.cell 63 0 = false := by
    have := (hcells 63 (by decide) 0 (by decide)).2 (hpaints 63 1 (by decide) (by decide) hleft)
    simpa [hlit] using this
  have hnew : t.screen.cell 0 0 = true := by
    have := (hcells 0 (by decide) 0 (by decide)).2 (hpaints 0 2 (by decide) (by decide) hright)
    simpa [hunlit] using this
  exact ⟨m, hb, hs, hw, by decide, rfl, by decide, hlit, t, s, l, ht, hdark, hnew,
    hone.2 ⟨63, by decide, 0, by decide, hlit, hdark⟩⟩

end Machine

end Chip8
