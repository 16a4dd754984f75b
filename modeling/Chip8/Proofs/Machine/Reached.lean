import Chip8.Proofs.Machine.Step
import Chip8.Proofs.Rom

/-!
# Machines that can come about

`Reached d e m`: a host that switches on a machine of the dialect `d` with the random numbers `e`, and
then loads programs, steps, ticks the timers, works the keys, resets and switches off and on again,
in any order and however each of these ends, can come to `m`. Every such machine is well-formed and
has its font (`Reached.fit`), so that its next step is recorded or is stopped by a fault.
-/

namespace Chip8.Machine

/-- What a host does to a machine. -/
inductive Deed where
  | loadRom (data : List UInt8)
  | step
  | tickTimers
  | press (k : Int)
  | release (k : Int)
  | clearKeys
  | reset
  | powerCycle

/-- The machine that a deed leaves behind, also where it fails. -/
def Deed.run : Deed → Machine → Machine
  | .loadRom data, m => ((Machine.loadRom data).run m).state
  | .step, m => (Machine.step.run m).state
  | .tickTimers, m => (Machine.tickTimers.run m).state
  | .press k, m => ((Machine.press k).run m).state
  | .release k, m => ((Machine.release k).run m).state
  | .clearKeys, m => (Machine.clearKeys.run m).state
  | .reset, m => (Machine.reset.run m).state
  | .powerCycle, m => (Machine.powerCycle.run m).state

inductive Reached (d : Dialect) (e : Entropy) : Machine → Prop
  | boot {m : Machine} (h : boot standardBus {} d e = .ok m) : Reached d e m
  | act {m : Machine} (h : Reached d e m) (c : Deed) : Reached d e (c.run m)

/-- Well-formed, with the font in its place, and of the dialect `d`. -/
structure Fit (d : Dialect) (m : Machine) : Prop where
  wellFormed : m.WellFormed
  font : m.bus.FontIntact
  dialect : m.dialect = d

variable {d : Dialect} {e : Entropy} {m t : Machine}

/-! ### Memory -/

theorem run_onBus {α : Type} {a : Action Bus α} {b : Bus} {r : Except Error α} {l : List Notice}
    (h : a.run m.bus = ⟨b, r, l⟩) : (onBus a).run m = ⟨{ m with bus := b }, r, l⟩ := by
  simp only [onBus, Action.onPart, h]

theorem run_loadFont_of_loadInto (h : (Font.loadInto m.bus).2 = .ok ()) :
    loadFont.run m = ⟨{ m with bus := (Font.loadInto m.bus).1 }, .ok (), []⟩ := by
  refine run_onBus ?_
  show (⟨_, (Font.loadInto m.bus).2.mapError .bus, []⟩ : Outcome Bus Unit) = _
  rw [h]
  rfl

theorem run_loadFont (h : m.bus.Standard) :
    loadFont.run m = ⟨{ m with bus := (Font.loadInto m.bus).1 }, .ok (), []⟩ :=
  run_loadFont_of_loadInto (Bus.loadInto_of_standard h).1

/-- A machine can be switched on with any memory that the font goes into. -/
theorem boot_of_loadInto {b : Bus} {s : Screen} (h : (Font.loadInto b).2 = .ok ()) :
    boot b s d e =
      .ok { bus := (Font.loadInto b).1, state := {}, screen := s, dialect := d, entropy := e } := by
  let m : Machine := { bus := b, state := {}, screen := s, dialect := d, entropy := e }
  have hl : loadFont.run m = _ := run_loadFont_of_loadInto h
  unfold boot
  rw [hl]
  rfl

/-- The machine as it is when the power has come on. -/
def booted (d : Dialect) (e : Entropy) : Machine :=
  { bus := (Font.loadInto standardBus).1, state := {}, dialect := d, entropy := e }

theorem boot_standard (d : Dialect) (e : Entropy) : boot standardBus {} d e = .ok (booted d e) :=
  boot_of_loadInto (Bus.loadInto_of_standard rfl).1

/-- A program that does not fit is refused before anything is copied. -/
theorem run_loadRom_of_refused {x : Error} {data : List UInt8}
    (hc : ({} : Loader).check data = .error x) : (loadRom data).run m = ⟨m, .error x, []⟩ :=
  Action.run_bind_error (run_onBus (Loader.run_load_of_refused hc)) _

theorem length_of_check {data : List UInt8} (hc : ({} : Loader).check data = .ok ()) :
    data.length ≤ 0xE00 := by
  have hlen := (Loader.check_eq_ok_iff.1 hc).2
  have hcap : ({} : Loader).capacity = 0xE00 := rfl
  omega

theorem loadAll_of_check (h : m.bus.Standard) {data : List UInt8}
    (hc : ({} : Loader).check data = .ok ()) : (m.bus.loadAll programStart data).2 = .ok () := by
  have hlen := length_of_check hc
  exact Bus.loadAll_ok fun k hk => h.mapped_program (by omega)

theorem run_loadRom {data : List UInt8} (h : m.bus.Standard)
    (hc : ({} : Loader).check data = .ok ()) :
    (loadRom data).run m =
      ⟨{ m with bus := (m.bus.loadAll programStart data).1, loaded := true }, .ok data.length,
        [.loaded data.length programStart]⟩ := by
  have hl : m.bus.loadAll ({} : Loader).start data = ((m.bus.loadAll programStart data).1, .ok ()) :=
    Prod.ext rfl (loadAll_of_check h hc)
  have hr := Loader.run_load_of_loadAll hc hl
  unfold loadRom
  rw [Action.run_bind_ok (run_onBus hr)]
  rfl

theorem run_powerCycle (h : m.bus.Standard) :
    powerCycle.run m =
      ⟨{ m with
          bus := (Font.loadInto m.bus.powerOff).1
          state := {}
          cycles := 0
          screen := m.screen.clear
          loaded := false }, .ok (), []⟩ := by
  have hp : m.bus.powerOff.Standard := h.congr (Bus.layout_powerOff _)
  have hl : loadFont.run { m with bus := m.bus.powerOff } = _ := run_loadFont hp
  unfold powerCycle
  rw [Action.run_bind_of_ok (Action.run_modify ..), Action.run_bind_of_ok hl]
  rfl

/-! ### What a deed comes to -/

/-- What deeds come to. What a step can do is said by `Stepped`. -/
inductive Done (m : Machine) : Deed → Machine → Prop
  | refused {data : List UInt8} {x : Error} (hc : ({} : Loader).check data = .error x) :
    Done m (.loadRom data) m
  | loaded {data : List UInt8} (hc : ({} : Loader).check data = .ok ()) :
    Done m (.loadRom data) { m with bus := (m.bus.loadAll programStart data).1, loaded := true }
  | step : Done m .step (Machine.step.run m).state
  | tickTimers : Done m .tickTimers { m with state := m.state.tickTimers }
  | press (k : Int) (p : Keypad) : Done m (.press k) { m with keypad := p }
  | release (k : Int) (p : Keypad) : Done m (.release k) { m with keypad := p }
  | clearKeys : Done m .clearKeys { m with keypad := {} }
  | reset : Done m .reset { m with state := {}, cycles := 0, screen := m.screen.clear }
  | powerCycle :
    Done m .powerCycle { m with
      bus := (Font.loadInto m.bus.powerOff).1
      state := {}
      cycles := 0
      screen := m.screen.clear
      loaded := false }

theorem exists_onKeypad (m : Machine) (f : Keypad → Except Keypad.Error Keypad) :
    ∃ p, ((onKeypad f).run m).state = { m with keypad := p } := by
  unfold onKeypad
  cases hf : f m.keypad with
  | ok p => exact ⟨p, by simp only [hf]⟩
  | error x => exact ⟨m.keypad, by simp only [hf]⟩

theorem done (h : m.bus.Standard) (c : Deed) : Done m c (c.run m) := by
  cases c with
  | loadRom data =>
    show Done m _ ((Machine.loadRom data).run m).state
    cases hc : ({} : Loader).check data with
    | error x =>
      rw [run_loadRom_of_refused hc]
      exact .refused hc
    | ok =>
      rw [run_loadRom h hc]
      exact .loaded hc
  | step => exact .step
  | tickTimers => exact .tickTimers
  | press k =>
    obtain ⟨p, hp⟩ := exists_onKeypad m (·.press k)
    rw [show (Deed.press k).run m = _ from hp]
    exact .press k p
  | release k =>
    obtain ⟨p, hp⟩ := exists_onKeypad m (·.release k)
    rw [show (Deed.release k).run m = _ from hp]
    exact .release k p
  | clearKeys => exact .clearKeys
  | reset => exact .reset
  | powerCycle =>
    show Done m _ (Machine.powerCycle.run m).state
    rw [run_powerCycle h]
    exact .powerCycle

theorem WellFormed.done {c : Deed} (h : m.WellFormed) (hd : Done m c t) : t.WellFormed := by
  have hs := h.standard
  cases hd with
  | refused => exact h
  | @loaded data =>
    exact ⟨hs.congr (Bus.layout_loadAll m.bus programStart data), h.screen, h.ranged⟩
  | step =>
    exact Action.state_of_wp (Action.wp_mono (step_spec h) (fun _ _ ht => ht.wellFormed)
      fun _ _ ht => ht.2.wellFormed)
  | tickTimers => exact h.withState h.ranged.tickTimers
  | press | release | clearKeys => exact ⟨hs, h.screen, h.ranged⟩
  | reset => exact ⟨hs, h.screen.clear, State.ranged_initial (stackLimit_nonneg _)⟩
  | powerCycle =>
    obtain ⟨-, hs, -⟩ := Bus.loadInto_of_standard (hs.congr (Bus.layout_powerOff m.bus))
    exact ⟨hs, h.screen.clear, State.ranged_initial (stackLimit_nonneg _)⟩

/-! ### Every deed leaves a machine fit -/

theorem Succeeds.font {s : Snapshot State} (h : m.Succeeds s t) (hs : m.bus.Standard)
    (hf : m.bus.FontIntact) : t.bus.FontIntact := by
  obtain ⟨b, c, hb, ht, hc⟩ := h.traffic
  exact ((hf.congr hb).trafficked (hs.congr hb.layout_eq.symm) ht).congr hc

namespace Fit

theorem boot (h : boot standardBus {} d e = .ok m) : m.Fit d := by
  obtain rfl : booted d e = m := Except.ok.inj ((boot_standard d e).symm.trans h)
  obtain ⟨-, hs, hf⟩ := Bus.loadInto_of_standard (b := standardBus) rfl
  exact ⟨⟨hs, ⟨rfl, rfl, rfl⟩, State.ranged_initial (stackLimit_nonneg _)⟩, hf, rfl⟩

theorem ranged (h : m.Fit d) : m.state.Ranged (max 0 d.stackDepth) := by
  rw [← h.dialect]
  exact h.wellFormed.ranged

theorem withState {s : State} (h : m.Fit d) (hs : s.Ranged (max 0 d.stackDepth)) :
    Fit d { m with state := s } := by
  rw [← h.dialect] at hs
  exact ⟨h.wellFormed.withState hs, h.font, h.dialect⟩

theorem succeeds {s : Snapshot State} (h : m.Fit d) (ht : m.Succeeds s t) : t.Fit d :=
  ⟨ht.wellFormed, ht.font h.wellFormed.standard h.font, ht.dialect.trans h.dialect⟩

theorem stops (h : m.Fit d) (ht : m.Stops t) : t.Fit d :=
  ⟨ht.wellFormed, h.font.congr ht.alike, ht.dialect.trans h.dialect⟩

theorem step (h : m.Fit d) : (step.run m).state.Fit d :=
  Action.state_of_wp (Action.wp_mono (step_spec h.wellFormed) (fun _ _ ht => h.succeeds ht)
    fun _ _ ht => h.stops ht.2)

theorem run (h : m.Fit d) (c : Deed) : (c.run m).Fit d := by
  have hs := h.wellFormed.standard
  have hd := Machine.done hs c
  have hw := h.wellFormed.done hd
  generalize c.run m = t at hd hw
  cases hd with
  | loaded hc => exact ⟨hw, h.font.loadAll hs (by decide) (loadAll_of_check hs hc), h.dialect⟩
  | step => exact h.step
  | powerCycle =>
    obtain ⟨-, -, hf⟩ := Bus.loadInto_of_standard (hs.congr (Bus.layout_powerOff m.bus))
    exact ⟨hw, hf, h.dialect⟩
  | refused | tickTimers | press | release | clearKeys | reset => exact ⟨hw, h.font, h.dialect⟩

end Fit

theorem Reached.fit (h : Reached d e m) : m.Fit d := by
  induction h with
  | boot h => exact .boot h
  | act _ c ih => exact ih.run c

/-- Registers stay in their ranges and the screen keeps its cells, and no step of a machine that has
come about ends in anything but a snapshot or a fault. -/
theorem Reached.safe (h : Reached d e m) (hd : 0 ≤ d.stackDepth) :
    m.state.Ranged d.stackDepth ∧
      (m.screen.pixels.length = 64 * 32 ∧
        ∀ x y : Int, 0 ≤ x ∧ x < 64 → 0 ≤ y ∧ y < 32 → ∃ lit, m.screen.pixel x y = .ok lit) ∧
      ((∃ s, (Machine.step.run m).result = .ok s) ∨
        ∃ f, (Machine.step.run m).result = .error (.fault f)) := by
  have hw := h.fit.wellFormed
  have hr := h.fit.ranged
  rw [Int.max_eq_right hd] at hr
  refine ⟨hr, ⟨hw.screen.length_pixels, fun x y => hw.screen.exists_pixel⟩, ?_⟩
  have hs := step_spec hw
  rcases hr : Machine.step.run m with ⟨t, x | s, l⟩
  · obtain ⟨⟨f, rfl⟩, -⟩ := (Action.wp_of_run_error hr).1 hs
    exact .inr ⟨f, rfl⟩
  · exact .inl ⟨s, rfl⟩

theorem safe_after_call :
    ∃ m, m = Deed.step.run ((Deed.loadRom [0x2F, 0xFE]).run (booted {} {})) ∧ Reached {} {} m ∧
      (0 : Int) ≤ ({} : Dialect).stackDepth ∧ m.state.Ranged 16 ∧
      ((∃ s, (Machine.step.run m).result = .ok s) ∨
        ∃ f, (Machine.step.run m).result = .error (.fault f)) := by
  have hm := Reached.act (.act (.boot (boot_standard {} {})) (.loadRom [0x2F, 0xFE])) .step
  obtain ⟨hr, -, hs⟩ := Reached.safe hm (by decide)
  exact ⟨_, rfl, hm, by decide, hr, hs⟩

end Chip8.Machine
