import Chip8.Proofs.Machine.Effect
import Chip8.Proofs.Machine.Reached

/-!
# What a step leaves alone

A step that succeeds changes no part of the machine but those that its instruction is listed with
(`Instruction.Changes`), and leads to where `Instruction.Leads` says.
-/

namespace Chip8

/-- Where an instruction at the program counter can lead to. -/
def Instruction.Leads (d : Dialect) (s : State) (i : Instruction) (next : Int) : Prop :=
  match i.opcode with
  | .jump | .call => next = i.address
  | .ret => s.stack.head? = some next
  | .jumpOffset => next = i.address + s.reg (if d.jumpUsesVx then i.x else Word.v0)
  | .skipEqualByte | .skipUnequalByte | .skipEqual | .skipUnequal | .skipPressed | .skipReleased =>
    next = s.pc + 2 ∨ next = s.pc + 4
  | .waitKey => next = s.pc ∨ next = s.pc + 2
  | _ => next = s.pc + 2

namespace Machine

variable {m t : Machine} {i : Instruction} {high low : UInt8} {s : Snapshot State} {l : List Notice}

theorem wp_skipIf (b : Bool) :
    (skipIf b).wp
      (fun _ t => t.state.pc = m.state.pc ∨ t.state.pc = (m.state.pc + 2) % 0x10000)
      (fun _ _ => True) m := by
  cases b with
  | true => exact .inr rfl
  | false => exact .inl rfl

theorem wp_waitKey (x : Fin 16) :
    (waitKey x).wp (fun _ t => t.state.pc = m.state.lastPc ∨ t.state.pc = m.state.pc)
      (fun _ _ => True) m := by
  unfold waitKey
  rw [Action.wp_bind, Action.wp_gets]
  cases m.keypad.first? with
  | none => exact .inl rfl
  | some k => exact .inr rfl

theorem wp_call (n : Nat) : (call n).wp (fun _ t => t.state.pc = n) (fun _ _ => True) m := by
  unfold call
  rw [Action.wp_bind, Action.wp_get]
  dsimp only
  split
  · trivial
  · rfl

theorem wp_ret : ret.wp (fun _ t => m.state.stack.head? = some t.state.pc) (fun _ _ => True) m := by
  unfold ret
  rw [Action.wp_bind, Action.wp_gets]
  cases m.state.stack with
  | nil => trivial
  | cons a rest => rfl

theorem leads_execute (hm : m.WellFormed) (h : m.Fetches high low)
    (hx : (execute i).run (m.passed high low) = ⟨t, .ok (), l⟩) :
    i.Leads m.dialect m.state t.state.pc := by
  have hp := (canFetch_iff hm.standard).1 h.inside
  have hpc := passed_pc hm.standard h
  obtain ⟨o, w⟩ := i
  have hc := (causes_execute _ _ hx).changes .pc
  unfold execute at hx
  rw [Action.run_bind_of_ok (Action.run_get _)] at hx
  -- `hc` settles the kinds that are not listed under `pc`; the others are followed one by one.
  cases o with
  | jump =>
    cases hx
    rfl
  | call => exact (Action.wp_of_run_ok hx).1 (wp_call _)
  | ret => exact (Action.wp_of_run_ok hx).1 wp_ret
  | jumpOffset =>
    cases hx
    have ha : w.address < 0x1000 := address_lt ⟨.jumpOffset, w⟩
    have hn (n : Int) (hn : 0 ≤ n ∧ n ≤ 0xFF) : (w.address + n) % 0x10000 = w.address + n := by
      omega
    exact hn _ (hm.ranged.reg _)
  | skipEqualByte | skipUnequalByte | skipEqual | skipUnequal | skipPressed | skipReleased =>
    have ht := (Action.wp_of_run_ok hx).1 (wp_skipIf _)
    rw [hpc] at ht
    show t.state.pc = _ ∨ t.state.pc = _
    omega
  | waitKey =>
    have ht := (Action.wp_of_run_ok hx).1 (wp_waitKey _)
    unfold State.lastPc at ht
    rw [hpc] at ht
    show t.state.pc = _ ∨ t.state.pc = _
    omega
  | _ => exact Eq.trans (hc id) hpc

theorem entropy_execute (hx : (execute i).run m = ⟨t, .ok (), l⟩) :
    t.entropy = if i.opcode = .random then (m.entropy.draw 256).2 else m.entropy := by
  split
  · rename_i ho
    obtain ⟨_, w⟩ := i
    cases ho
    cases hx
    rfl
  · exact (causes_execute m i hx).changes .entropy ‹_›

theorem same_passed (high low : UInt8) {p : Part} (hp : p ≠ .pc) : p.Same m (m.passed high low) := by
  cases p with
  | pc => exact absurd rfl hp
  | memory => exact fun _ => rfl
  | _ => rfl

theorem same_counted (p : Part) (m : Machine) : p.Same m m.counted := by
  cases p with
  | memory => exact fun _ => rfl
  | _ => rfl

theorem same_step (hm : m.bus.Standard) (h : step.run m = ⟨t, .ok s, l⟩) {p : Part} (hp : p ≠ .pc)
    (hn : ¬ s.instruction.Changes m.dialect p) : p.Same m t := by
  have hs := stepped hm
  rw [h] at hs
  cases hs with
  | @executed high low i t l hf hi hx =>
    have hc := (causes_execute _ i hx).changes p hn
    exact ((same_passed high low hp).trans hc).trans (same_counted p t)

/-- A step that succeeds has executed the instruction at the program counter. It changes nothing but
the parts which that instruction may change, it leads to where the instruction can lead to, it says
that it drew exactly if the instruction may change the screen, and it draws one random number if
the instruction asks for one, and none otherwise. -/
theorem step_frame (hm : m.WellFormed) (h : step.run m = ⟨t, .ok s, l⟩) :
    s.address = m.state.pc ∧
      (∃ high low, m.Fetches high low ∧
        Instruction.ofWord? (.ofBytes high low) = some s.instruction) ∧
      (∀ p, p ≠ .pc → ¬ s.instruction.Changes m.dialect p → p.Same m t) ∧
      s.instruction.Leads m.dialect m.state t.state.pc ∧
      (s.drew = true ↔ s.instruction.Changes m.dialect .screen) ∧
      t.entropy =
        if s.instruction.opcode = .random then (m.entropy.draw 256).2 else m.entropy := by
  have hs := stepped hm.standard
  rw [h] at hs
  cases hs with
  | @executed high low i t l hf hi hx =>
    have hl := leads_execute hm hf hx
    have he := entropy_execute hx
    refine ⟨rfl, ⟨high, low, hf, hi⟩, fun p hp hn => ?_, hl, ?_, he⟩
    · have hc := (causes_execute _ i hx).changes p hn
      exact ((same_passed high low hp).trans hc).trans (same_counted p t)
    · simp [Instruction.draws, Instruction.Changes]

/-- A machine with a program that asks for a random number. -/
def rolling : Machine := (Deed.loadRom [0xC3, 0x0F]).run (booted {} {})

theorem step_frame_of_random :
    ∃ t s l, rolling.WellFormed ∧ step.run rolling = ⟨t, .ok s, l⟩ ∧
      (∀ p : Part, p ≠ .pc → p ≠ .register 3 → p ≠ .entropy → p.Same rolling t) ∧
      t.state.pc = rolling.state.pc + 2 ∧ ¬ s.drew = true ∧
      t.entropy = (rolling.entropy.draw 256).2 := by
  have hr : Reached {} {} rolling := .act (.boot (boot_standard {} {})) _
  have hw := hr.fit.wellFormed
  have hi : (step.run rolling).result.toOption.map (·.instruction) = some ⟨.random, 0xC30F⟩ := by
    decide +kernel
  rcases h : step.run rolling with ⟨t, e | s, l⟩
  · rw [h] at hi
    cases hi
  · rw [h] at hi
    have hi : s.instruction = ⟨.random, 0xC30F⟩ := Option.some.inj hi
    obtain ⟨-, -, hsame, hleads, hdrew, hentropy⟩ := step_frame hw h
    rw [hi] at hsame hleads hdrew hentropy
    refine ⟨t, s, l, hw, rfl, fun p hp hx he => hsame p hp ?_, hleads, ?_, hentropy⟩
    · cases p with
      | register x => exact fun h => hx (congrArg _ h)
      | entropy => exact absurd rfl he
      | _ => simp [Instruction.Changes]
    · exact fun hd => by simpa [Instruction.Changes] using hdrew.1 hd

end Machine

end Chip8
