import Chip8.Proofs.Debugger.Undo
import Chip8.Proofs.Machine.Pair

/-!
# Instructions and timers

Three kinds of instruction look at a timer or set one. A step that executes none of them is the same
whatever the timers hold, and leaves them as they are (`sameStep_retimed`), so that a tick before it
and a tick behind it come to the same. `m.Interleaved n k t`: some order of `n` steps and `k` ticks
leads from `m` to `t`. All of these orders lead to one machine (`clocks_independent`).
-/

namespace Chip8.Machine

variable {m t : Machine} {i : Instruction} {d s : Int} {n k : Nat}

def retimed (m : Machine) (delay sound : Int) : Machine :=
  { m with state := { m.state with delay, sound } }

/-- The next step executes no instruction that has to do with the timers, or none at all. -/
def Untimed (m : Machine) : Prop := ∀ s, (step.run m).result = .ok s → ¬ s.instruction.Timed

theorem untimed_iff :
    m.Untimed ↔ (step.run m).result.toOption.all fun s => !decide s.instruction.Timed := by
  unfold Untimed
  cases (step.run m).result <;> simp [Except.toOption]

instance (m : Machine) : Decidable m.Untimed := decidable_of_iff _ untimed_iff.symm

/-! ### Steps that leave the timers alone -/

theorem pairing_retimed (d s : Int) : Pairing fun m t => t = m.retimed d s where
  state_eq h := by
    rw [h]
    rfl
  put h _ := by
    rw [h]
    rfl
  read h a := by
    subst h
    exact agrees_read_of_bus_eq (R := fun m t => t = m.retimed d s) rfl rfl (fun _ => rfl) a
  write h a v := by
    subst h
    exact agrees_write_of_bus_eq (R := fun m t => t = m.retimed d s) rfl rfl (fun _ => rfl) a v
  clear h := by
    rw [h]
    rfl
  counted h := by
    rw [h]
    rfl
  size_eq h := by rw [h]; rfl
  accesses_eq h := by rw [h]; rfl
  keypad_eq h := by rw [h]; rfl
  dialect_eq h := by rw [h]; rfl
  loaded_eq h := by rw [h]; rfl

theorem suits_retimed (hi : ¬ i.Timed) : Suits (fun m t => t = m.retimed d s) i where
  draws := by
    rintro m _ - rfl x y rows wrap
    exact agrees_drawSprite (R := fun m t => t = m.retimed d s) rfl rfl fun _ => rfl
  rolls := by
    rintro m _ - rfl x mask
    exact ⟨rfl, rfl, rfl⟩
  times := by
    intro m t ht
    exact absurd ht hi

theorem exists_execute_of_timed (hi : i.Timed) (m : Machine) :
    ∃ t, (execute i).run m = ⟨t, .ok (), []⟩ := by
  unfold execute
  rw [Action.run_bind_of_ok (Action.run_get m)]
  rcases hi with hi | hi | hi
  all_goals
    simp only [hi]
    exact ⟨_, rfl⟩

/-- An instruction that has to do with the timers is always carried out. -/
theorem executes_of_timed {w : Word} (hr : m.refusal? = none)
    (hw : (Processor.fetch.run m.quiet).result = .ok w) (hi : Instruction.ofWord? w = some i)
    (ht : i.Timed) : ∃ x, (step.run m).result = .ok x ∧ x.instruction = i := by
  rcases hf : (Processor.fetch : Action Machine Word).run m.quiet with ⟨u, r, l⟩
  rw [hf] at hw
  cases hw
  obtain ⟨v, hv⟩ := exists_execute_of_timed ht { u with state := u.state.advance 2 }
  have hd : (Processor.decode u w : Except Fault Instruction) = .ok i := by
    show u.decode w = .ok i
    unfold decode
    rw [hi]
  have hx : (execute i >>= fun _ => pure i).run { u with state := u.state.advance 2 } =
      ⟨v, .ok i, []⟩ := Action.run_bind_of_ok hv _
  have hp : (Processor.perform : Action Machine Instruction).run m.quiet = ⟨v, .ok i, l⟩ := by
    refine Action.run_bind_eq_ok.2 ⟨u, w, l, [], hf, ?_, (List.append_nil l).symm⟩
    rw [Action.run_bind_of_ok (Action.run_get u), hd]
    exact hx
  rw [run_step_executed hr hp]
  exact ⟨_, rfl, rfl⟩

theorem Untimed.suitsNext (h : m.Untimed) (d s : Int) (hr : m.refusal? = none) :
    SuitsNext (fun m t => t = m.retimed d s) m.quiet := by
  intro w i hw hi
  refine suits_retimed fun ht => ?_
  obtain ⟨x, hx, rfl⟩ := executes_of_timed hr hw hi ht
  exact h x hx ht

theorem sameStep_retimed (h : m.Untimed) (d s : Int) :
    SameStep (fun m t => t = m.retimed d s) (step.run m) (step.run (m.retimed d s)) :=
  sameStep (pairing_retimed d s) rfl (h.suitsNext d s)

/-- The machine beside itself shows that the step leaves its timers alone. -/
theorem timers_step (h : m.Untimed) :
    (step.run m).state.state.delay = m.state.delay ∧
      (step.run m).state.state.sound = m.state.sound := by
  have hs := (sameStep_retimed h m.state.delay m.state.sound).state
  have hm : m.retimed m.state.delay m.state.sound = m := rfl
  rw [hm] at hs
  rw [hs]
  exact ⟨rfl, rfl⟩

/-! ### Ticks -/

/-- The number in a timer after a tick. -/
def ticked (n : Int) : Int := if 0 < n then n - 1 else n

theorem ticked_max (n : Int) (k : Nat) : ticked (max 0 (n - k)) = max 0 (n - (k + 1 : Nat)) := by
  unfold ticked
  split <;> omega

theorem tickTimers_eq (m : Machine) :
    (tickTimers.run m).state = m.retimed (ticked m.state.delay) (ticked m.state.sound) := rfl

theorem Untimed.step_tickTimers (h : m.Untimed) :
    step.run (tickTimers.run m).state =
      ⟨(tickTimers.run (step.run m).state).state,
        (step.run m).result.map fun x => { x with state := x.state.tickTimers },
        (step.run m).notices⟩ := by
  obtain ⟨hdelay, hsound⟩ := timers_step h
  obtain ⟨hs, hr, hn⟩ := sameStep_retimed h (ticked m.state.delay) (ticked m.state.sound)
  have hstate : (step.run (m.retimed (ticked m.state.delay) (ticked m.state.sound))).state =
      (tickTimers.run (step.run m).state).state := by
    rw [hs, tickTimers_eq, hdelay, hsound]
  have hresult : (step.run (m.retimed (ticked m.state.delay) (ticked m.state.sound))).result =
      (step.run m).result.map fun x => { x with state := x.state.tickTimers } := by
    rw [hr, hstate]
    cases hx : (step.run m).result with
    | error e => rfl
    | ok x =>
      obtain ⟨hcycle, hregisters⟩ := snapshot_of_step hx
      simp only [Except.map, hcycle, hregisters]
      rfl
  rw [tickTimers_eq, ← hstate, ← hresult, ← hn]

/-- What comes of `n` steps and `k` ticks in some order. Steps may fail. -/
inductive Interleaved (m : Machine) : Nat → Nat → Machine → Prop
  | refl : Interleaved m 0 0 m
  | step {n k : Nat} {t : Machine} (h : Interleaved m n k t) :
    Interleaved m (n + 1) k (step.run t).state
  | tick {n k : Nat} {t : Machine} (h : Interleaved m n k t) :
    Interleaved m n (k + 1) (tickTimers.run t).state

theorem Interleaved.eq_retimed (h : m.Interleaved n k t) (hd : 0 ≤ m.state.delay)
    (hs : 0 ≤ m.state.sound) (hu : ∀ j < n, (m.after j).Untimed) :
    t = (m.after n).retimed (max 0 (m.state.delay - k)) (max 0 (m.state.sound - k)) := by
  induction h with
  | refl =>
    have hd' : max 0 (m.state.delay - (0 : Nat)) = m.state.delay := by omega
    have hs' : max 0 (m.state.sound - (0 : Nat)) = m.state.sound := by omega
    rw [hd', hs']
    rfl
  | @step n k t _ ih =>
    have ht := ih fun j hj => hu j (Nat.lt_succ_of_lt hj)
    have hn := hu n (Nat.lt_succ_self n)
    rw [ht]
    exact (sameStep_retimed hn _ _).state
  | @tick n k t _ ih =>
    rw [ih hu, tickTimers_eq, ← ticked_max, ← ticked_max]
    rfl

/-- A tick and a step that has nothing to do with the timers can change places: the step turns out
the same, but for the timers in its snapshot, and the machine ends the same. So any order of `n`
such steps, which may fail, and `k` ticks ends in the machine behind the `n` steps, with each timer
`k` lower than at first, or at zero. -/
theorem clocks_independent (m : Machine) :
    (m.Untimed →
      step.run (tickTimers.run m).state =
        ⟨(tickTimers.run (step.run m).state).state,
          (step.run m).result.map fun x => { x with state := x.state.tickTimers },
          (step.run m).notices⟩) ∧
      (0 ≤ m.state.delay → 0 ≤ m.state.sound → ∀ n, (∀ j < n, (m.after j).Untimed) →
        ∀ k t, m.Interleaved n k t →
          t = (m.after n).retimed (max 0 (m.state.delay - k)) (max 0 (m.state.sound - k))) := by
  constructor
  · intro h
    exact h.step_tickTimers
  · intro hd hs n hu k t h
    exact h.eq_retimed hd hs hu

/-- A machine whose program loads a register and then calls machine code, which is a fault. -/
def faltering : Machine :=
  { (Deed.loadRom [0x60, 0x05, 0x00, 0x01]).run (booted {} {}) with
    state := { delay := 2, sound := 1 } }

theorem clocks_independent_of_faltering :
    ∃ t, faltering.Untimed ∧ 0 ≤ faltering.state.delay ∧ 0 ≤ faltering.state.sound ∧
      (∀ j < 3, (faltering.after j).Untimed) ∧ faltering.Interleaved 3 3 t ∧
      t.state.halted = true ∧ t = (faltering.after 3).retimed 0 0 ∧
      (step.run (tickTimers.run faltering).state).state =
        (tickTimers.run (step.run faltering).state).state := by
  obtain ⟨huntimed, hhalted⟩ :
      (∀ j < 3, (faltering.after j).Untimed) ∧ (faltering.after 3).state.halted = true := by
    decide +kernel
  have hfirst : faltering.Untimed := huntimed 0 (by omega)
  obtain ⟨hswap, hall⟩ := clocks_independent faltering
  obtain ⟨t, hi⟩ : ∃ t, faltering.Interleaved 3 3 t :=
    ⟨_, .step (.tick (.step (.tick (.tick (.step .refl)))))⟩
  have ht := hall (by decide) (by decide) 3 huntimed 3 t hi
  refine ⟨t, hfirst, by decide, by decide, huntimed, hi, ?_, ht, ?_⟩
  · simp only [ht, retimed]
    exact hhalted
  · rw [hswap hfirst]

end Chip8.Machine
