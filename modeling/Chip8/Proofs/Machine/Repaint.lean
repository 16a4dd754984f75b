import Chip8.Proofs.Machine.Lasting
import Chip8.Proofs.Machine.Reached

/-!
# Screens that have to be painted again

A host paints a screen when it is marked, and takes the mark away. Whatever happens to a machine
leaves its screen marked or leaves it as it was (`Marked`): clearing and drawing mark the screen, an
instruction changes it in no other way, and neither does a step that fails or a switch of the power.
So as long as the screen is not marked it shows what was painted last (`no_repaint_missed`).
-/

namespace Chip8

/-- The second screen is marked to be painted, unless it is still the first. -/
def Screen.Marked (s t : Screen) : Prop := t = s ∨ t.needsRedraw = true

namespace Screen.Marked

variable {s t u : Screen}

theorem refl (s : Screen) : s.Marked s := .inl rfl

theorem trans (h : s.Marked t) (h' : t.Marked u) : s.Marked u := by
  rcases h' with rfl | hu
  · exact h
  · exact .inr hu

theorem clear (s : Screen) : s.Marked s.clear := .inr rfl

theorem draw {x y : Int} {rows : List Int} {wrap hit : Bool}
    (h : s.draw x y rows wrap = .ok (t, hit)) : s.Marked t := by
  rw [Screen.draw_eq_flipAll] at h
  split at h
  · cases h
  · cases h
    exact .inr rfl

end Screen.Marked

namespace Machine

variable {α : Type} {m : Machine}

def Marked (m t : Machine) : Prop := m.screen.Marked t.screen

theorem lasting_marked : Lasting Marked fun _ => True where
  refl m := .refl m.screen
  trans h h' := Screen.Marked.trans h h'
  withState m _ := .refl m.screen
  withBus m _ := .refl m.screen
  withEntropy m _ := .refl m.screen
  clear m := .clear m.screen
  drawn h := .draw h
  bus _ := trivial
  screen _ := trivial

theorem marked_step (m : Machine) : m.Marked (step.run m).state := by
  refine Action.state_of_wp (P := m.Marked) (Action.wp_mono (wp_step_lasting lasting_marked m)
    (fun _ t h => ?_) fun _ _ h => h)
  obtain ⟨u, hu, rfl⟩ := h
  exact hu

theorem leaves_of_screen_eq {a : Action Machine α} (h : (a.run m).state.screen = m.screen) :
    Leaves Marked (fun _ => True) a m := by
  unfold Leaves Action.wp
  split
  · exact .inl h
  · exact ⟨.inl h, trivial⟩

theorem marked_loadRom (m : Machine) (data : List UInt8) :
    m.Marked ((loadRom data).run m).state := by
  have h : Leaves Marked (fun _ => True) (loadRom data) m := by
    refine (leaves_of_screen_eq rfl).bind lasting_marked fun n _ _ => ?_
    exact (leaves_of_screen_eq rfl).bind lasting_marked fun _ _ _ => lasting_marked.pure n
  exact h.state

/-- Power that comes on finds the screen cleared, unless the font could not be filled in. -/
theorem marked_powerCycle (m : Machine) : m.Marked (powerCycle.run m).state := by
  have hreset (t : Machine) : Leaves Marked (fun _ => True) reset t := lasting_marked.clear t
  have h : Leaves Marked (fun _ => True) powerCycle m := by
    refine (leaves_of_screen_eq rfl).bind lasting_marked fun _ _ _ => ?_
    refine (leaves_of_screen_eq rfl).bind lasting_marked fun _ _ _ => ?_
    exact (leaves_of_screen_eq rfl).bind lasting_marked fun _ t _ => hreset t
  exact h.state

theorem marked_onKeypad (m : Machine) (f : Keypad → Except Keypad.Error Keypad) :
    m.Marked ((onKeypad f).run m).state := by
  obtain ⟨p, hp⟩ := exists_onKeypad m f
  rw [hp]
  exact .refl m.screen

theorem marked_deed (m : Machine) (c : Deed) : m.Marked (c.run m) := by
  cases c with
  | loadRom data => exact marked_loadRom m data
  | step => exact marked_step m
  | tickTimers => exact .refl m.screen
  | press k => exact marked_onKeypad m (·.press k)
  | release k => exact marked_onKeypad m (·.release k)
  | clearKeys => exact .refl m.screen
  | reset => exact .clear m.screen
  | powerCycle => exact marked_powerCycle m

/-! ### Paintings -/

/-- What a host does to a machine or directly to its screen. -/
inductive Act where
  | deed (c : Deed)
  | clearScreen
  | drawSprite (x y : Int) (rows : List Int) (wrap : Bool)
  /-- The host has painted the screen. -/
  | present

def Act.run : Act → Machine → Machine
  | .deed c, m => c.run m
  | .clearScreen, m => { m with screen := m.screen.clear }
  | .drawSprite x y rows wrap, m => ((Machine.drawSprite x y rows wrap).run m).state
  | .present, m => (markPresented.run m).state

def actAll (m : Machine) (as : List Act) : Machine := as.foldl (fun m a => a.run m) m

theorem marked_act {a : Act} (ha : a ≠ .present) (m : Machine) : m.Marked (a.run m) := by
  cases a with
  | deed c => exact marked_deed m c
  | clearScreen => exact .clear m.screen
  | drawSprite x y rows wrap => exact (lasting_marked.drawSprite x y rows wrap).state
  | present => exact absurd rfl ha

theorem marked_actAll {as : List Act} (has : .present ∉ as) (m : Machine) :
    m.Marked (m.actAll as) := by
  induction as generalizing m with
  | nil => exact .refl m.screen
  | cons a as ih =>
    obtain ⟨ha, has⟩ := List.ne_and_not_mem_of_not_mem_cons has
    exact lasting_marked.trans (marked_act (Ne.symm ha) m) (ih has (a.run m))

/-- Whatever a host does to a machine and to its screen: as long as the screen is not marked to be
painted again, it shows what it did when it was painted last, or what it did in the beginning, if
it was never painted. -/
theorem no_repaint_missed {m : Machine} {as : List Act}
    (h : (m.actAll as).screen.needsRedraw = false) :
    (∀ before after, as = before ++ .present :: after → .present ∉ after →
      (m.actAll as).screen.pixels = (m.actAll before).screen.pixels) ∧
      (.present ∉ as → (m.actAll as).screen.pixels = m.screen.pixels) := by
  constructor
  · rintro before after rfl hafter
    have hrun : m.actAll (before ++ .present :: after) =
        (Act.present.run (m.actAll before)).actAll after := List.foldl_append ..
    rw [hrun] at h ⊢
    rcases marked_actAll hafter (Act.present.run (m.actAll before)) with he | hm
    · rw [he]
      rfl
    · exact absurd (h.symm.trans hm) Bool.false_ne_true
  · intro has
    rcases marked_actAll has m with he | hm
    · rw [he]
    · exact absurd (h.symm.trans hm) Bool.false_ne_true

/-- What is done to a screen up to its painting: a program draws on it, and so does the host. -/
def untilPainted : List Act :=
  [.deed (.loadRom [0xD0, 0x05, 0xFF, 0xFF]), .deed .step, .drawSprite 60 30 [0xFF] true]

theorem no_repaint_missed_after_halt :
    let after : List Act := [.deed .step, .deed .tickTimers]
    let m := (booted {} {}).actAll (untilPainted ++ .present :: after)
    m.screen.needsRedraw = false ∧ .present ∉ after ∧ m.state.halted = true ∧
      m.screen.pixels = ((booted {} {}).actAll untilPainted).screen.pixels ∧
      m.screen.isBlank = false := by
  intro after m
  obtain ⟨hredraw, hhalted, hblank⟩ :
      m.screen.needsRedraw = false ∧ m.state.halted = true ∧ m.screen.isBlank = false := by
    decide +kernel
  have hafter : .present ∉ after := by simp [after]
  obtain ⟨hshown, -⟩ := no_repaint_missed hredraw
  exact ⟨hredraw, hafter, hhalted, hshown untilPainted after rfl hafter, hblank⟩

end Machine

end Chip8
