import Chip8.Proofs.Debugger.Undo

/-!
# Taking back while the timers run

Instructions and timers go by clocks of their own. A `Clocked` session remembers the registers behind
the instruction executed last and how often the timers ticked since. The registers at the next
instruction are the remembered ones with that many ticks (`Clocked.Timely`), and taking that
instruction back leads to the remembered ones, so that the ticks between are lost.
-/

namespace Chip8

/-- The registers after so many ticks of the timers, which stop at zero. -/
def State.ticked (s : State) (n : Nat) : State :=
  { s with delay := max 0 (s.delay - n), sound := max 0 (s.sound - n) }

namespace State

variable {s : State}

theorem ticked_zero (hd : 0 ≤ s.delay) (hs : 0 ≤ s.sound) : s.ticked 0 = s := by
  have hd' : max 0 (s.delay - (0 : Nat)) = s.delay := by omega
  have hs' : max 0 (s.sound - (0 : Nat)) = s.sound := by omega
  unfold ticked
  rw [hd', hs']

theorem tickTimers_ticked (s : State) (n : Nat) : (s.ticked n).tickTimers = s.ticked (n + 1) := by
  have h (k : Int) : (if 0 < max 0 (k - n) then max 0 (k - n) - 1 else max 0 (k - n)) =
      max 0 (k - (n + 1 : Nat)) := by
    split <;> omega
  unfold tickTimers ticked
  dsimp only
  rw [h, h]

theorem ticked_eq_iff (hd : 0 ≤ s.delay) (hs : 0 ≤ s.sound) (n : Nat) :
    s = s.ticked n ↔ n = 0 ∨ s.delay = 0 ∧ s.sound = 0 := by
  constructor
  · intro h
    have hd' : s.delay = max 0 (s.delay - n) := congrArg State.delay h
    have hs' : s.sound = max 0 (s.sound - n) := congrArg State.sound h
    omega
  · intro h
    have hd' : max 0 (s.delay - n) = s.delay := by omega
    have hs' : max 0 (s.sound - n) = s.sound := by omega
    unfold ticked
    rw [hd', hs']

end State

namespace Session

variable {s t : Session Machine State} {snapshot : Snapshot State}

theorem behind_keep (hl : 1 ≤ s.debugger.limit) (hx : s.Executes snapshot t) :
    ∃ rest, t.debugger.history = snapshot :: rest ∧
      behind t.debugger.base rest = behind s.debugger.base s.debugger.history := by
  obtain ⟨n, hn⟩ : ∃ n, s.debugger.limit.toNat = n + 1 := ⟨s.debugger.limit.toNat - 1, by omega⟩
  refine ⟨s.debugger.history.take n, ?_, ?_⟩
  · rw [hx.debugger]
    show (snapshot :: s.debugger.history).take s.debugger.limit.toNat = _
    rw [hn, List.take_succ_cons]
  · -- a base that moved forward is that of the registers behind the forgotten instruction
    rw [hx.debugger, ← behind_take s.debugger.base s.debugger.history n]
    show behind (((snapshot :: s.debugger.history)[s.debugger.limit.toNat]?.map _).getD _) _ = _
    rw [hn, List.getElem?_cons_succ]

/-- What an instruction did to the registers is taken back to what was behind the one before it. -/
theorem state_stepBack_of_executes (hl : 1 ≤ s.debugger.limit) (hx : s.Executes snapshot t) :
    (stepBack.run t).state.machine.state = behind s.debugger.base s.debugger.history := by
  obtain ⟨rest, hh, hb⟩ := behind_keep hl hx
  obtain ⟨b, c, -, ht, hc⟩ := hx.machine.traffic
  obtain ⟨b', hu, -⟩ := ht.exists_unwrite hc
  rw [run_stepBack_cons hh hu]
  exact hb

/-! ### The two clocks -/

inductive Beat where
  | step
  | tick

/-- A session, the registers behind the instruction that it executed last (or those that it began
with), and how often the timers ticked since. -/
structure Clocked where
  session : Session Machine State
  settled : State
  ticks : Nat

namespace Clocked

def start (m : Machine) (limit : Int) : Clocked := ⟨.start m limit, m.state, 0⟩

def perform (r : Clocked) : Beat → Clocked
  | .step =>
    match step.run r.session with
    | ⟨t, .ok _, _⟩ => ⟨t, t.machine.state, 0⟩
    | ⟨t, .error _, _⟩ => { r with session := t }
  | .tick =>
    { r with
      session := { r.session with machine := (Machine.tickTimers.run r.session.machine).state }
      ticks := r.ticks + 1 }

def performAll (r : Clocked) (bs : List Beat) : Clocked := bs.foldl perform r

/-- The registers are the remembered ones with the ticks since, at least where a step can be made. -/
structure Timely (limit : Int) (r : Clocked) : Prop where
  wellFormed : r.session.machine.WellFormed
  limit_eq : r.session.debugger.limit = limit
  delay : 0 ≤ r.settled.delay
  sound : 0 ≤ r.settled.sound
  behind_eq : behind r.session.debugger.base r.session.debugger.history = r.settled
  state_eq : r.session.machine.refusal? = none → r.session.machine.state = r.settled.ticked r.ticks

variable {d : Dialect} {e : Entropy} {m : Machine} {limit : Int} {r : Clocked}

namespace Timely

theorem start (hm : m.WellFormed) (limit : Int) : (Clocked.start m limit).Timely limit :=
  ⟨hm, rfl, hm.ranged.delay.1, hm.ranged.sound.1, rfl,
    fun _ => (State.ticked_zero hm.ranged.delay.1 hm.ranged.sound.1).symm⟩

theorem tick (h : r.Timely limit) : (r.perform .tick).Timely limit := by
  refine ⟨h.wellFormed.withState h.wellFormed.ranged.tickTimers, h.limit_eq, h.delay, h.sound,
    h.behind_eq, fun hr => ?_⟩
  have hs := h.state_eq hr
  show r.session.machine.state.tickTimers = _
  rw [hs]
  exact State.tickTimers_ticked _ _

theorem step (hl : 0 ≤ limit) (h : r.Timely limit) : (r.perform .step).Timely limit := by
  have hs := wp_step h.wellFormed
  unfold perform
  rcases ho : Session.step.run r.session with ⟨t, x | snapshot, l⟩
  · obtain hf | ⟨hlt, -⟩ := (Action.wp_of_run_error ho).1 hs
    · exact ⟨hf.machine.wellFormed, hf.debugger ▸ h.limit_eq, h.delay, h.sound,
        hf.debugger ▸ h.behind_eq, fun hr => absurd hr hf.machine.refuses⟩
    · have := h.limit_eq
      omega
  · have hx := (Action.wp_of_run_ok ho).1 hs
    have hr := hx.machine.wellFormed.ranged
    refine ⟨hx.machine.wellFormed, hx.debugger ▸ h.limit_eq, hr.delay.1, hr.sound.1,
      behind_of_executes hx, fun _ => (State.ticked_zero hr.delay.1 hr.sound.1).symm⟩

theorem performAll (hl : 0 ≤ limit) (h : r.Timely limit) (bs : List Beat) :
    (r.performAll bs).Timely limit := by
  induction bs generalizing r with
  | nil => exact h
  | cons b bs ih =>
    cases b with
    | step => exact ih (h.step hl)
    | tick => exact ih h.tick

end Timely

end Clocked

variable {d : Dialect} {e : Entropy} {m : Machine} {limit : Int}

/-- Taking back an instruction right after it leads to the registers behind the instruction before
it. Those right before it differ from them by the ticks between the two, and by nothing else. -/
theorem stepBack_after_step (h : Machine.Reached d e m) (hl : 1 ≤ limit) (bs : List Beat) :
    let r := (Clocked.start m limit).performAll bs
    ∀ t snapshot l, step.run r.session = ⟨t, .ok snapshot, l⟩ →
      (stepBack.run t).state.machine.state = r.settled ∧
      r.session.machine.state = r.settled.ticked r.ticks ∧
      ((stepBack.run t).state.machine.state = r.session.machine.state ↔
        r.ticks = 0 ∨ r.settled.delay = 0 ∧ r.settled.sound = 0) := by
  intro r t snapshot l ho
  have hr : r.Timely limit := (Clocked.Timely.start h.fit.wellFormed limit).performAll (by omega) bs
  have hx := (Action.wp_of_run_ok ho).1 (wp_step hr.wellFormed)
  have hback : (stepBack.run t).state.machine.state = r.settled := by
    rw [state_stepBack_of_executes (hr.limit_eq ▸ hl) hx, hr.behind_eq]
  have hnow := hr.state_eq hx.machine.ready
  refine ⟨hback, hnow, ?_⟩
  rw [hback, hnow]
  exact State.ticked_eq_iff hr.delay hr.sound r.ticks

/-- A machine with a program that sets the delay timer to five and then stands still. -/
def countdown : Machine :=
  (Machine.Deed.loadRom [0x60, 0x05, 0xF0, 0x15, 0x12, 0x04]).run (Machine.booted {} {})

theorem reached_countdown : Machine.Reached {} {} countdown :=
  .act (.boot (Machine.boot_standard {} {})) _

theorem stepBack_after_step_of_ticks :
    ∃ r t, r = (Clocked.start countdown 1).performAll [.step, .tick, .step, .tick, .tick] ∧
      Machine.Reached {} {} countdown ∧ (1 : Int) ≤ 1 ∧
      (∃ snapshot l, step.run r.session = ⟨t, .ok snapshot, l⟩) ∧ r.ticks = 2 ∧
      (stepBack.run t).state.machine.state = r.settled ∧
      r.session.machine.state = r.settled.ticked 2 := by
  obtain ⟨r, hr⟩ : ∃ r, r =
    (Clocked.start countdown 1).performAll [.step, .tick, .step, .tick, .tick] := ⟨_, rfl⟩
  have hticks : r.ticks = 2 := by
    rw [hr]
    decide +kernel
  have hok : (step.run r.session).result.isOk = true := by
    rw [hr]
    decide +kernel
  rcases ho : step.run r.session with ⟨t, x | snapshot, l⟩
  · rw [ho] at hok
    cases hok
  · have hs := stepBack_after_step reached_countdown (by decide : (1 : Int) ≤ 1)
      [.step, .tick, .step, .tick, .tick]
    rw [← hr] at hs
    obtain ⟨hback, hnow, -⟩ := hs t snapshot l ho
    rw [hticks] at hnow
    exact ⟨r, t, hr, reached_countdown, by decide, ⟨snapshot, l, ho⟩, hticks, hback, hnow⟩

/-- A tick between two instructions is lost when the second is taken back. -/
theorem stepBack_loses_tick :
    ∃ r t, r = (Clocked.start countdown 1000).performAll [.step, .step, .tick] ∧
      Machine.Reached {} {} countdown ∧
      (∃ snapshot l, step.run r.session = ⟨t, .ok snapshot, l⟩) ∧
      r.session.machine.state.delay = 4 ∧ (stepBack.run t).state.machine.state.delay = 5 := by
  obtain ⟨r, hr⟩ : ∃ r, r = (Clocked.start countdown 1000).performAll [.step, .step, .tick] :=
    ⟨_, rfl⟩
  have hdelay : r.session.machine.state.delay = 4 := by
    rw [hr]
    decide +kernel
  have hback : (stepBack.run (step.run r.session).state).state.machine.state.delay = 5 := by
    rw [hr]
    decide +kernel
  have hok : (step.run r.session).result.isOk = true := by
    rw [hr]
    decide +kernel
  rcases ho : step.run r.session with ⟨t, x | snapshot, l⟩
  · rw [ho] at hok
    cases hok
  · rw [ho] at hback
    exact ⟨r, t, hr, reached_countdown, ⟨snapshot, l, ho⟩, hdelay, hback⟩

end Session

end Chip8
