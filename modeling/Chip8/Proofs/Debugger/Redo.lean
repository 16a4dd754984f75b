import Chip8.Proofs.Debugger.Clocks
import Chip8.Proofs.Debugger.Steps
import Chip8.Proofs.Machine.Frame
import Chip8.Proofs.Machine.Twin

/-!
# Doing again what was taken back

Taking an instruction back leaves a machine like the one before it, but for the screen, which stays,
and for the count, which is one ahead (`stepBack_of_run_step`). Neither is looked at by an
instruction other than one that draws, so that the instruction, executed again, does the same again
(`redo_exact`).
-/

namespace Chip8

namespace Machine

variable {m t : Machine} {x : Snapshot State} {l : List Notice}

/-- The count of the second machine is one ahead. -/
def Ahead (m t : Machine) : Prop := t.cycles = m.cycles + 1

theorem aside_ahead : Aside Ahead where
  withBus h _ _ := h
  withState h _ _ := h
  clear h := h
  counted h := congrArg (· + 1) h

theorem suits_ahead {i : Instruction} (hr : i.opcode ≠ .random) (hd : i.opcode ≠ .draw) :
    Suits (Twin Ahead) i where
  draws hi := absurd hi hd
  rolls hi := absurd hi hr
  times _ h := h.times aside_ahead

/-- A step of a machine like another one that is one ahead in its count, where the instruction
neither draws nor asks for a random number. -/
theorem step_of_ahead {u : Machine} (h : m.Resembles u) (ha : m.Ahead u)
    (hs : step.run m = ⟨t, .ok x, l⟩) (hr : x.instruction.opcode ≠ .random)
    (hd : x.instruction.opcode ≠ .draw) :
    ∃ v, step.run u = ⟨v, .ok { x with cycle := x.cycle + 1 }, l⟩ ∧ t.Resembles v := by
  have hx : (step.run m).result = .ok x := by rw [hs]
  have ho := sameStep_of_resembles aside_ahead h ha
    fun _ => suitsNext_of_step hx (suits_ahead hr hd)
  obtain ⟨hcycle, hstate⟩ := snapshot_of_step hx
  rw [hs] at ho hcycle hstate
  rcases hv : step.run u with ⟨v, r, l'⟩
  rw [hv] at ho
  obtain ⟨htwin, hresult, hnotices⟩ := ho
  have hcycle' : v.cycles = x.cycle + 1 := by
    rw [hcycle]
    exact htwin.aside
  have hstate' : v.state = x.state := by
    rw [hstate]
    exact htwin.state_eq
  have hresult : r = .ok { x with cycle := v.cycles, state := v.state } := hresult
  subst hresult
  cases hnotices
  refine ⟨v, ?_, htwin.toResembles⟩
  simp only [hcycle', hstate']

end Machine

namespace Session

variable {m : Machine} {limit : Int} {s t : Session Machine State}
  {x : Snapshot State} {l : List Notice}

/-- What is left when an instruction is taken back: the machine before it, but for the screen and
the count. -/
theorem stepBack_of_run_step (hm : s.machine.WellFormed) (hl : 1 ≤ s.debugger.limit)
    (hstate : s.machine.state = behind s.debugger.base s.debugger.history)
    (h : step.run s = ⟨t, .ok x, l⟩) :
    s.machine.Resembles (stepBack.run t).state.machine ∧
      s.machine.Ahead (stepBack.run t).state.machine ∧
      (stepBack.run t).state.debugger.limit = s.debugger.limit := by
  have hx := (Action.wp_of_run_ok h).1 (wp_step hm)
  have hrun := machine_of_run_step h
  have hkeypad := Machine.same_step hm.standard hrun (p := .keypad) (by decide) id
  have hloaded := Machine.same_step hm.standard hrun (p := .loaded) (by decide) id
  obtain ⟨rest, hh, hb⟩ := behind_keep hl hx
  obtain ⟨b, c, hbefore, ht, hc⟩ := hx.machine.traffic
  obtain ⟨b', hu, hb', -⟩ := ht.exists_unwrite hc
  rw [run_stepBack_cons hh hu]
  refine ⟨⟨hbefore.trans hb', ?_, hkeypad, hx.machine.dialect, hloaded⟩, hx.machine.cycles, ?_⟩
  · rw [hstate]
    exact hb
  · rw [hx.debugger]
    rfl

/-- After whatever was done with a debugger from its making on, let an instruction succeed that
neither draws nor asks for a random number. Taken back and executed again it does the same again:
the snapshot is the same but for the count, and so are the registers and the bytes behind it. -/
theorem redo_exact (hm : m.WellFormed) (hl : 1 ≤ limit) (cs : List Command) :
    let r := (Chronicle.start m limit).performAll cs
    ∀ t x l, step.run r.session = ⟨t, .ok x, l⟩ →
      x.instruction.opcode ≠ .random → x.instruction.opcode ≠ .draw →
        ∃ v, step.run (stepBack.run t).state = ⟨v, .ok { x with cycle := x.cycle + 1 }, l⟩ ∧
          v.machine.state = t.machine.state ∧
          ∀ a, v.machine.bus.byte? a = t.machine.bus.byte? a := by
  intro r t x l h hr hd
  have hs : Logged limit (.start m limit) [] := .start hm (by omega)
  have hlog : Logged limit r.session r.log :=
    Chronicle.logged_performAll (r := .start m limit) hs cs
  have hlimit : 1 ≤ r.session.debugger.limit := by
    rw [hlog.limit_eq]
    exact hl
  have hx := (Action.wp_of_run_ok h).1 (wp_step hlog.wellFormed)
  obtain ⟨hu, ha, hlimit'⟩ :=
    stepBack_of_run_step hlog.wellFormed hlimit (hlog.state_eq hx.machine.ready) h
  have hrun := machine_of_run_step h
  obtain ⟨v, hv, htv⟩ := Machine.step_of_ahead hu ha hrun hr hd
  refine ⟨_, run_step_of_ok (by omega) hv, htv.state_eq, fun a => (htv.bus.byte?_eq a).symm⟩

/-- A machine with a program whose third instruction writes three digits over itself. -/
def overwriting : Machine :=
  (Machine.Deed.loadRom [0xA2, 0x04, 0x60, 0xFE, 0xF0, 0x33]).run (Machine.booted {} {})

theorem redo_exact_of_overwriting :
    ∃ r t x l, r = (Chronicle.start overwriting 2).performAll [.step, .stepBack, .run (some 2)] ∧
      overwriting.WellFormed ∧ (1 : Int) ≤ 2 ∧ step.run r.session = ⟨t, .ok x, l⟩ ∧
      x.instruction.opcode = .decimal ∧ x.address = 0x204 ∧ t.machine.bus.byte? 0x204 = some 2 ∧
      ∃ v, step.run (stepBack.run t).state = ⟨v, .ok { x with cycle := x.cycle + 1 }, l⟩ ∧
        v.machine.state = t.machine.state ∧ v.machine.bus.byte? 0x204 = some 2 := by
  obtain ⟨r, hr⟩ : ∃ r, r =
    (Chronicle.start overwriting 2).performAll [.step, .stepBack, .run (some 2)] := ⟨_, rfl⟩
  have hreached : Machine.Reached {} {} overwriting := .act (.boot (Machine.boot_standard {} {})) _
  have hw := hreached.fit.wellFormed
  obtain ⟨hx, hbyte⟩ :
      (step.run r.session).result.toOption.map (fun x => (x.instruction.opcode, x.address)) =
          some (.decimal, 0x204) ∧
        (step.run r.session).state.machine.bus.byte? 0x204 = some 2 := by
    rw [hr]
    decide +kernel
  rcases ho : step.run r.session with ⟨t, e | x, l⟩
  · rw [ho] at hx
    cases hx
  · rw [ho] at hx hbyte
    have hx := Option.some.inj hx
    have hopcode : x.instruction.opcode = .decimal := congrArg Prod.fst hx
    have hredo := redo_exact hw (by decide : (1 : Int) ≤ 2) [.step, .stepBack, .run (some 2)]
    rw [← hr] at hredo
    have hrandom : x.instruction.opcode ≠ .random := by simp [hopcode]
    have hdraw : x.instruction.opcode ≠ .draw := by simp [hopcode]
    obtain ⟨v, hv, hstate, hbytes⟩ := hredo t x l ho hrandom hdraw
    exact ⟨r, t, x, l, hr, hw, by decide, ho, hopcode, congrArg Prod.snd hx, hbyte, v, hv, hstate,
      (hbytes 0x204).trans hbyte⟩

end Session

end Chip8
