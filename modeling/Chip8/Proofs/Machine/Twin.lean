import Chip8.Proofs.Machine.Pair

/-!
# Machines with the same memory and registers

Machines that resemble each other hold the same bytes and registers and have the same keys down.
What they may differ in, the screen, the count and the random numbers, is looked at by few
instructions: a relation `E` of these three is carried along (`Aside`), and a step of the two is the
same unless its instruction asks more of the relation (`sameStep_of_resembles`).
-/

namespace Chip8.Machine

variable {E : Machine → Machine → Prop} {m t u : Machine}

structure Resembles (m t : Machine) : Prop where
  bus : m.bus.Alike t.bus
  state_eq : t.state = m.state
  keypad_eq : t.keypad = m.keypad
  dialect_eq : t.dialect = m.dialect
  loaded_eq : t.loaded = m.loaded

namespace Resembles

theorem quiet (h : m.Resembles t) : m.quiet.Resembles t.quiet :=
  ⟨⟨h.bus.layout_eq, h.bus.byte?_eq⟩, h.state_eq, h.keypad_eq, h.dialect_eq, h.loaded_eq⟩

theorem withBus (h : m.Resembles t) {b c : Bus} (hb : b.Alike c) :
    Resembles { m with bus := b } { t with bus := c } :=
  ⟨hb, h.state_eq, h.keypad_eq, h.dialect_eq, h.loaded_eq⟩

theorem withState (h : m.Resembles t) (s : State) :
    Resembles { m with state := s } { t with state := s } :=
  ⟨h.bus, rfl, h.keypad_eq, h.dialect_eq, h.loaded_eq⟩

theorem withScreen (h : m.Resembles t) (s r : Screen) :
    Resembles { m with screen := s } { t with screen := r } :=
  ⟨h.bus, h.state_eq, h.keypad_eq, h.dialect_eq, h.loaded_eq⟩

theorem counted (h : m.Resembles t) : m.counted.Resembles t.counted :=
  ⟨⟨h.bus.layout_eq, h.bus.byte?_eq⟩, h.state_eq, h.keypad_eq, h.dialect_eq, h.loaded_eq⟩

end Resembles

/-- The relation looks at nothing but the screen, the count and the random numbers, and it bears
that both screens are cleared and that both machines count on. -/
structure Aside (E : Machine → Machine → Prop) : Prop where
  withBus {m t : Machine} (h : E m t) (b c : Bus) : E { m with bus := b } { t with bus := c }
  withState {m t : Machine} (h : E m t) (s r : State) :
    E { m with state := s } { t with state := r }
  clear {m t : Machine} (h : E m t) :
    E { m with screen := m.screen.clear } { t with screen := t.screen.clear }
  counted {m t : Machine} (h : E m t) : E m.counted t.counted

/-- Machines in the midst of a step. -/
structure Twin (E : Machine → Machine → Prop) (m t : Machine) : Prop extends Resembles m t where
  accesses_eq : t.bus.accesses = m.bus.accesses
  aside : E m t

theorem Aside.pairing (hE : Aside E) : Pairing (Twin E) where
  state_eq h := by
    rw [h.state_eq]
    rfl
  put {m t} h s := by
    have hs : s.timed t.state = s.timed m.state := by rw [h.state_eq]
    rw [hs]
    exact ⟨h.withState _, h.accesses_eq, hE.withState h.aside _ _⟩
  read h a := by
    refine agrees_read h h.bus (fun l => ⟨h.withBus ?_, ?_, hE.withBus h.aside _ _⟩) a
    · exact ⟨h.bus.layout_eq, h.bus.byte?_eq⟩
    · rw [h.accesses_eq]
  write h a v := by
    refine agrees_write h h.bus (fun b c l hbc hb hc => ?_) a v
    refine ⟨h.withBus hbc, ?_, hE.withBus h.aside _ _⟩
    rw [hb, hc, h.accesses_eq]
  clear h := ⟨h.withScreen _ _, h.accesses_eq, hE.clear h.aside⟩
  counted h := ⟨h.toResembles.counted, rfl, hE.counted h.aside⟩
  size_eq h := Bus.size_congr h.bus.layout_eq.symm
  accesses_eq h := h.accesses_eq
  keypad_eq h := h.keypad_eq
  dialect_eq h := h.dialect_eq
  loaded_eq h := h.loaded_eq

theorem Twin.times (hE : Aside E) (h : Twin E m t) :
    t.state = m.state ∧ ∀ s, Twin E { m with state := s } { t with state := s } :=
  ⟨h.state_eq, fun s => ⟨h.withState s, h.accesses_eq, hE.withState h.aside s s⟩⟩

theorem sameStep_of_resembles (hE : Aside E) (h : m.Resembles t) (he : E m t)
    (hs : m.refusal? = none → SuitsNext (Twin E) m.quiet) :
    SameStep (Twin E) (step.run m) (step.run t) :=
  sameStep hE.pairing ⟨h.quiet, rfl, hE.withBus he _ _⟩ hs

end Chip8.Machine
