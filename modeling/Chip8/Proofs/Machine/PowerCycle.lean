import Chip8.Proofs.Machine.Failure
import Chip8.Proofs.Machine.Twin

/-!
# Switching off and on again

What a machine answers to the deeds of its host is `Machine.answers`. Machines that resemble each
other, count the same, and show the same but for whether it was presented (`Matches`) answer every
deed the same and go on matching (`Matches.deed`). A machine that was switched off and on again
matches a new one, whatever it had been through (`powerCycle_forgets`).
-/

namespace Chip8.Machine

/-- What the host gets from a deed: a snapshot from a step, nothing from the others, or an error. -/
def Deed.answer : Deed → Machine → Except Error (Option (Snapshot State))
  | .loadRom data, m => ((Machine.loadRom data).run m).result.map fun _ => none
  | .step, m => (Machine.step.run m).result.map some
  | .tickTimers, m => (Machine.tickTimers.run m).result.map fun _ => none
  | .press k, m => ((Machine.press k).run m).result.map fun _ => none
  | .release k, m => ((Machine.release k).run m).result.map fun _ => none
  | .clearKeys, m => (Machine.clearKeys.run m).result.map fun _ => none
  | .reset, m => (Machine.reset.run m).result.map fun _ => none
  | .powerCycle, m => (Machine.powerCycle.run m).result.map fun _ => none

def answers (m : Machine) : List Deed → List (Except Error (Option (Snapshot State)))
  | [] => []
  | c :: cs => c.answer m :: (c.run m).answers cs

/-- The screens show the same, the counts are the same, and so are the random numbers to come. -/
structure SameRest (m t : Machine) : Prop where
  screen : t.screen.markPresented = m.screen.markPresented
  cycles : t.cycles = m.cycles
  entropy : t.entropy = m.entropy

structure Matches (m t : Machine) : Prop extends Resembles m t, SameRest m t

variable {m t f : Machine}

namespace SameRest

theorem draw (h : m.SameRest t) (x y : Int) (rows : List Int) (wrap : Bool) :
    t.screen.draw x y rows wrap = m.screen.draw x y rows wrap := by
  rw [← Screen.draw_markPresented t.screen, h.screen, Screen.draw_markPresented]

theorem clear (h : m.SameRest t) : t.screen.clear = m.screen.clear := by
  have hm (s : Screen) : s.markPresented.clear = s.clear := rfl
  rw [← hm t.screen, h.screen, hm]

theorem aside : Aside SameRest where
  withBus h _ _ := ⟨h.screen, h.cycles, h.entropy⟩
  withState h _ _ := ⟨h.screen, h.cycles, h.entropy⟩
  clear h := ⟨congrArg Screen.markPresented h.clear, h.cycles, h.entropy⟩
  counted h := ⟨h.screen, congrArg (· + 1) h.cycles, h.entropy⟩

theorem suits (i : Instruction) : Suits (Twin SameRest) i where
  draws := by
    intro m t _ h x y rows wrap
    refine agrees_drawSprite h (h.aside.draw x y rows wrap) fun s => ?_
    exact ⟨h.withScreen s s, h.accesses_eq, ⟨rfl, h.aside.cycles, h.aside.entropy⟩⟩
  rolls := by
    intro m t _ h x mask
    refine agrees_modify ?_
    rw [h.aside.entropy, h.state_eq]
    exact ⟨⟨h.bus, rfl, h.keypad_eq, h.dialect_eq, h.loaded_eq⟩, h.accesses_eq,
      ⟨h.aside.screen, h.aside.cycles, rfl⟩⟩
  times _ h := h.times aside

end SameRest

namespace Matches

theorem step (h : m.Matches t) :
    (step.run m).state.Matches (step.run t).state ∧
      (step.run t).result = (step.run m).result := by
  have h' := sameStep_of_resembles SameRest.aside h.toResembles h.toSameRest
    fun _ _ i _ _ => SameRest.suits i
  have hs := h'.state
  exact ⟨⟨hs.toResembles, hs.aside⟩, h'.result_eq hs.aside.cycles hs.state_eq⟩

theorem withKeypad (h : m.Matches t) (p : Keypad) :
    Matches { m with keypad := p } { t with keypad := p } :=
  ⟨⟨h.bus, h.state_eq, rfl, h.dialect_eq, h.loaded_eq⟩, h.screen, h.cycles, h.entropy⟩

theorem deed (h : m.Matches t) (hm : m.bus.Standard) (c : Deed) :
    (c.run m).Matches (c.run t) ∧ c.answer t = c.answer m := by
  have ht : t.bus.Standard := hm.congr h.bus.layout_eq.symm
  cases c with
  | loadRom data =>
    simp only [Deed.run, Deed.answer]
    cases hc : ({} : Loader).check data with
    | error x =>
      rw [run_loadRom_of_refused hc, run_loadRom_of_refused hc]
      exact ⟨h, rfl⟩
    | ok =>
      rw [run_loadRom hm hc, run_loadRom ht hc]
      have hb := h.bus.loadAll (loadAll_of_check hm hc) (loadAll_of_check ht hc)
      exact ⟨⟨⟨hb, h.state_eq, h.keypad_eq, h.dialect_eq, rfl⟩, h.toSameRest.screen, h.cycles,
        h.entropy⟩, rfl⟩
  | step =>
    obtain ⟨hs, hr⟩ := h.step
    exact ⟨hs, congrArg (Except.map some) hr⟩
  | tickTimers =>
    have hs : t.state.tickTimers = m.state.tickTimers := congrArg _ h.state_eq
    have hr : Resembles { m with state := m.state.tickTimers } { t with state := t.state.tickTimers } :=
      ⟨h.bus, hs, h.keypad_eq, h.dialect_eq, h.loaded_eq⟩
    exact ⟨⟨hr, h.screen, h.cycles, h.entropy⟩, rfl⟩
  | press k =>
    obtain ⟨hs, hr, -⟩ := agrees_onKeypad h h.keypad_eq h.withKeypad (·.press k)
    exact ⟨hs, congrArg (Except.map fun _ => none) hr⟩
  | release k =>
    obtain ⟨hs, hr, -⟩ := agrees_onKeypad h h.keypad_eq h.withKeypad (·.release k)
    exact ⟨hs, congrArg (Except.map fun _ => none) hr⟩
  | clearKeys => exact ⟨h.withKeypad {}, rfl⟩
  | reset =>
    have hscreen := congrArg Screen.markPresented h.toSameRest.clear
    exact ⟨⟨⟨h.bus, rfl, h.keypad_eq, h.dialect_eq, h.loaded_eq⟩, hscreen, rfl, h.entropy⟩, rfl⟩
  | powerCycle =>
    simp only [Deed.run, Deed.answer]
    rw [run_powerCycle hm, run_powerCycle ht]
    have hb := Bus.alike_powerOff hm ht
    have hscreen := congrArg Screen.markPresented h.toSameRest.clear
    exact ⟨⟨⟨hb, rfl, h.keypad_eq, h.dialect_eq, rfl⟩, hscreen, rfl, h.entropy⟩, rfl⟩

theorem runAll (h : m.Matches t) (hm : m.WellFormed) (cs : List Deed) :
    (m.runAll cs).Matches (t.runAll cs) ∧ t.answers cs = m.answers cs := by
  induction cs generalizing m t with
  | nil => exact ⟨h, rfl⟩
  | cons c cs ih =>
    obtain ⟨hc, ha⟩ := h.deed hm.standard c
    obtain ⟨hcs, has⟩ := ih hc (hm.done (done hm.standard c))
    refine ⟨hcs, ?_⟩
    unfold answers
    rw [ha, has]

/-- Switching off and on leaves nothing of the memory, of the registers, and of the screen. -/
theorem powerCycle (hm : m.bus.Standard) (hs : m.screen.Usual) :
    Matches (Deed.powerCycle.run m) { booted m.dialect m.entropy with keypad := m.keypad } := by
  have hb := Bus.alike_powerOff hm (c := standardBus) rfl
  rw [Bus.powerOff_standardBus] at hb
  have hscreen := hs.markPresented_clear
  simp only [Deed.run]
  rw [run_powerCycle hm]
  exact ⟨⟨hb, rfl, rfl, rfl, rfl⟩, hscreen.symm, rfl, rfl⟩

end Matches

theorem wellFormed_powerCycle (hm : m.bus.Standard) (hs : m.screen.Usual) :
    (Deed.powerCycle.run m).WellFormed := by
  obtain ⟨-, hb, -⟩ := Bus.loadInto_of_standard (hm.congr (Bus.layout_powerOff m.bus))
  simp only [Deed.run]
  rw [run_powerCycle hm]
  exact ⟨hb, hs.clear, State.ranged_initial (stackLimit_nonneg _)⟩

/-- Once it is switched off and on, a machine is as good as new, whatever it holds before that in
its memory, in its registers, and on its screen: whatever the host does to it then, a load of a
program first of all, it answers the same as a new machine of its dialect with the same keys down
and the same random numbers to come, and the two have the same registers, bytes and lit cells. -/
theorem powerCycle_forgets (hm : m.bus.Standard) (hs : m.screen.Usual)
    (hf : boot standardBus {} m.dialect m.entropy = .ok f) (cs : List Deed) :
    let old := Deed.powerCycle.run m
    let new := { f with keypad := m.keypad }
    old.answers cs = new.answers cs ∧
      (old.runAll cs).state = (new.runAll cs).state ∧
      (∀ a, (old.runAll cs).bus.byte? a = (new.runAll cs).bus.byte? a) ∧
      (old.runAll cs).screen.pixels = (new.runAll cs).screen.pixels := by
  intro old new
  obtain rfl : booted m.dialect m.entropy = f :=
    Except.ok.inj ((boot_standard m.dialect m.entropy).symm.trans hf)
  obtain ⟨h, ha⟩ := (Matches.powerCycle hm hs).runAll (wellFormed_powerCycle hm hs) cs
  refine ⟨ha.symm, h.state_eq.symm, h.bus.byte?_eq, ?_⟩
  have hpixels (s : Screen) : s.markPresented.pixels = s.pixels := rfl
  rw [← hpixels (old.runAll cs).screen, ← h.screen]
  rfl

/-- A machine that drew a sprite and halted. -/
def drawn : Machine :=
  Deed.step.run (Deed.step.run ((Deed.loadRom [0xD0, 0x05, 0x00, 0x01]).run (booted {} {})))

theorem powerCycle_forgets_drawn :
    ∃ b f m, drawn.bus.load 3 0xAA = .ok b ∧ m = { drawn with bus := b } ∧ m.bus.Standard ∧
      m.screen.Usual ∧ boot standardBus {} m.dialect m.entropy = .ok f ∧ m.state.halted = true ∧
      m.screen.isBlank = false ∧ m.bus.byte? 3 = some 0xAA ∧
      (Deed.powerCycle.run m).answers [.loadRom [0xD0, 0x05], .press 3, .step, .step] =
        { f with keypad := m.keypad }.answers [.loadRom [0xD0, 0x05], .press 3, .step, .step] := by
  have hr : Reached {} {} drawn := .act (.act (.act (.boot (boot_standard {} {})) _) .step) .step
  have hw := hr.fit.wellFormed
  obtain ⟨hhalted, hblank⟩ : drawn.state.halted = true ∧ drawn.screen.isBlank = false := by
    decide +kernel
  generalize drawn = u at hw hhalted hblank ⊢
  obtain ⟨b, hb⟩ := Bus.exists_load (v := 0xAA) (hw.mapped (a := 3) (by decide)) (by decide)
  have hstandard : b.Standard := hw.standard.congr (Bus.layout_load hb)
  have hbyte : b.byte? 3 = some 0xAA := by
    rw [Bus.byte?_load_of_unshared hw.standard.unshared hb]
    rfl
  have hf := boot_standard u.dialect u.entropy
  obtain ⟨ha, -⟩ := powerCycle_forgets (m := { u with bus := b }) hstandard hw.screen hf
    [.loadRom [0xD0, 0x05], .press 3, .step, .step]
  exact ⟨b, _, _, hb, rfl, hstandard, hw.screen, hf, hhalted, hblank, hbyte, ha⟩

end Chip8.Machine
