import Chip8.Proofs.Debugger.Breakpoints
import Chip8.Proofs.Debugger.Steps
import Chip8.Proofs.Machine.Lasting

/-!
# How far runs go

A run stays within its budget, unless it has none and begins at a breakpoint
(`run_within_budget_iff`). An instruction that a breakpoint looks for is the last one of the run,
unless it is the first one and has a breakpoint on it (`tripping_is_last_iff`). In all else a run is
the steps it is made of: it ends where the budget, a breakpoint or a failing step says, and leaves
what these steps leave (`run_refines_steps`).
-/

namespace Chip8.Session

/-! ### Counted instructions -/

variable {s : Session Machine State} {k : Nat}

/-- A step counts an instruction if the machine executes one, and it then succeeds as long as there
is a history to keep it in. -/
theorem step_count (s : Session Machine State) :
    (∃ x, (Machine.step.run s.machine).result = .ok x ∧
      (step.run s).state.machine.cycles = s.machine.cycles + 1 ∧
      (0 ≤ s.debugger.limit → (step.run s).result = .ok x)) ∨
    ∃ e, (Machine.step.run s.machine).result = .error e ∧
      (step.run s).state.machine.cycles = s.machine.cycles ∧ (step.run s).result = .error e := by
  have hcycles := Machine.wp_step_cycles s.machine
  have hmachine : (step.run s).state.machine = (Machine.step.run s.machine).state := machine_step s
  have hresult : (step.run s).result = _ := congrArg Outcome.result (run_step s)
  rw [hmachine]
  rcases hm : Machine.step.run s.machine with ⟨m, e | x, l⟩
  · have hm' : Processor.step.run s.machine = ⟨m, .error e, l⟩ := hm
    simp only [hm'] at hresult
    exact .inr ⟨e, rfl, (Action.wp_of_run_error hm).1 hcycles, hresult⟩
  · have hm' : Processor.step.run s.machine = ⟨m, .ok x, l⟩ := hm
    simp only [hm'] at hresult
    refine .inl ⟨x, rfl, (Action.wp_of_run_ok hm).1 hcycles, fun hl => ?_⟩
    rw [hresult, if_neg (Int.not_lt.2 hl)]

theorem cycles_after (s : Session Machine State) (n : Nat) :
    s.machine.cycles ≤ (s.after n).machine.cycles ∧
      (s.after n).machine.cycles ≤ s.machine.cycles + n := by
  induction n with
  | zero => exact ⟨Nat.le_refl _, Nat.le_refl _⟩
  | succ n ih =>
    show s.machine.cycles ≤ (step.run (s.after n)).state.machine.cycles ∧
      (step.run (s.after n)).state.machine.cycles ≤ s.machine.cycles + (n + 1)
    rcases step_count (s.after n) with ⟨x, -, hc, -⟩ | ⟨e, -, hc, -⟩
    · omega
    · omega

theorem cycles_after_of_succeeds (h : ∀ i < k, ∃ x, (step.run (s.after i)).result = .ok x) :
    (s.after k).machine.cycles = s.machine.cycles + k := by
  induction k with
  | zero => rfl
  | succ k ih =>
    have hk := ih fun i hi => h i (Nat.lt_succ_of_lt hi)
    obtain ⟨x, hx⟩ := h k (Nat.lt_succ_self k)
    show (step.run (s.after k)).state.machine.cycles = _
    rcases step_count (s.after k) with ⟨y, -, hc, -⟩ | ⟨e, -, -, he⟩
    · omega
    · rw [hx] at he
      cases he

/-- A run that keeps a history executed as many instructions as it counted. -/
theorem AmountsTo.cycles {o : Outcome (Session Machine State) (Option (Snapshot State))}
    (h : s.AmountsTo k o) (hl : 0 ≤ s.debugger.limit) :
    o.state.machine.cycles = s.machine.cycles + k := by
  obtain ⟨hsucceeds, hend⟩ := h
  have hk := cycles_after_of_succeeds hsucceeds
  rcases hr : o.result with e | last
  · simp only [hr] at hend
    obtain ⟨hstate, hfails⟩ := hend
    rw [hstate]
    show (step.run (s.after k)).state.machine.cycles = _
    rcases step_count (s.after k) with ⟨x, -, -, hx⟩ | ⟨e', -, hc, -⟩
    · rw [limit_after] at hx
      have hx := (hx hl).symm.trans hfails
      cases hx
    · rw [hc, hk]
  · simp only [hr] at hend
    rw [hend.1]
    exact hk

/-- A session at the beginning of a program of two instructions that change a register and a third
that finds nothing to return to. -/
def watching (breakpoints : List Breakpoint) : Session Machine State :=
  let m := (Machine.Deed.loadRom [0x60, 0x01, 0x60, 0x02, 0x00, 0xEE]).run (Machine.booted {} {})
  ⟨m, { Debugger.start m.state 8 with breakpoints }⟩

/-- The count of a machine grows by no more than the budget of a run, unless the run has none and
begins at a breakpoint: then the instruction under it is executed, if it can be. -/
theorem run_within_budget_iff (s : Session Machine State) (n : Nat) :
    let t := ((run (some n)).run s).state
    s.machine.cycles ≤ t.machine.cycles ∧ t.machine.cycles ≤ s.machine.cycles + max n 1 ∧
      (t.machine.cycles ≤ s.machine.cycles + n ↔
        ¬ (n = 0 ∧ s.atBreakpoint ∧ ∃ x, (Machine.step.run s.machine).result = .ok x)) := by
  intro t
  obtain ⟨xs, r, hran⟩ := exists_ran (some (n : Int)) s
  obtain ⟨u, hu⟩ := hran.resumes
  have hcalls : xs.length + r.failures ≤ n ∨
      n = 0 ∧ s.atBreakpoint ∧ xs.length + r.failures = 1 := hu.calls_le
  have hpos : s.atBreakpoint = true → 0 < xs.length + r.failures := hu.calls_pos
  have ht : t.machine = (s.after (xs.length + r.failures)).machine := by
    rw [show t = _ from hran.follows.2.1]
    rfl
  have hcycles := cycles_after s (xs.length + r.failures)
  rw [← ht] at hcycles
  refine ⟨hcycles.1, by omega, ?_⟩
  rcases hcalls with hle | ⟨hn, hp, hone⟩
  · refine iff_of_true (by omega) ?_
    rintro ⟨hn, hp, -⟩
    have := hpos hp
    omega
  · have hstep : t.machine = (step.run s).state.machine := by
      rw [ht, hone]
      rfl
    rw [hstep]
    rcases step_count s with ⟨x, hx, hc, -⟩ | ⟨e, he, hc, -⟩
    · exact iff_of_false (by omega) (not_not_intro ⟨hn, hp, x, hx⟩)
    · refine iff_of_true (by omega) ?_
      rintro ⟨-, -, x, hx⟩
      rw [hx] at he
      cases he

example : ((run (some 0)).run (watching [Debugger.onPc 0x200])).state.machine.cycles = 1 := by
  decide +kernel

/-- An instruction that a breakpoint looks for is the last one of the run, and no step behind it is
tried. There is one exception: the first instruction, if it has a breakpoint on it, and neither the
budget nor another breakpoint stops the run behind it. -/
theorem tripping_is_last_iff (s : Session Machine State) (budget : Option Int) :
    let o := (run budget).run s
    ∃ k, s.AmountsTo k o ∧
      (0 ≤ s.debugger.limit → o.state.machine.cycles = s.machine.cycles + k) ∧
      ∀ i < k, (s.after i).trips →
        ((i + 1 = k ∧ ∃ last, o.result = .ok last) ↔
          ¬ (i = 0 ∧ s.atBreakpoint ∧ 1 < allowed budget ∧ (s.after 1).atBreakpoint = false)) := by
  intro o
  obtain ⟨xs, r, hran⟩ := exists_ran budget s
  obtain ⟨t, ht⟩ := hran.resumes
  have hok : (∃ last, o.result = .ok last) ↔ r.failures = 0 := by
    rw [hran.follows.2.2]
    exact Ending.result_eq_ok_iff _ r
  refine ⟨xs.length, hran.amountsTo, hran.amountsTo.cycles, fun i hi htrips => ?_⟩
  have hlast := ht.tripping_last_iff (i := i) rfl hi
  simp only [show s.begun = s.withRunning true from rfl, after_withRunning, trips_withRunning,
    atBreakpoint_withRunning] at hlast
  rw [hok]
  exact hlast htrips

/-- The first instruction changes the register, but the run began at a breakpoint and goes on. It
ends behind the second one. -/
theorem tripping_is_last_but_for_first :
    ∃ s o, s = watching [Debugger.onPc 0x200, { kind := .registerChange, register := some "V0" }] ∧
      o = (run (some 5)).run s ∧ s.AmountsTo 2 o ∧ s.atBreakpoint = true ∧ s.trips = true ∧
      (s.after 1).trips = true ∧ ∃ last, o.result = .ok last := by
  obtain ⟨s, hs⟩ : ∃ s, s =
    watching [Debugger.onPc 0x200, { kind := .registerChange, register := some "V0" }] := ⟨_, rfl⟩
  obtain ⟨o, ho⟩ : ∃ o, o = (run (some 5)).run s := ⟨_, rfl⟩
  obtain ⟨k, hk, hcycles, hlast⟩ := tripping_is_last_iff s (some 5)
  rw [← ho] at hk hcycles hlast
  have hcount : o.state.machine.cycles = 2 := by
    rw [ho, hs]
    decide +kernel
  have hstart : s.machine.cycles = 0 ∧ 0 ≤ s.debugger.limit ∧ s.atBreakpoint = true ∧
      s.trips = true ∧ (s.after 1).trips = true := by
    rw [hs]
    decide +kernel
  obtain ⟨hzero, hlimit, hp, hfirst, hsecond⟩ := hstart
  obtain rfl : k = 2 := by
    have := hcycles hlimit
    omega
  have hend := (hlast 1 (by decide) hsecond).2 fun h => absurd h.1 (by decide)
  exact ⟨s, o, hs, ho, hk, hp, hfirst, hsecond, hend.2⟩

/-- With a budget, a run that executed `k` instructions leaves what `k` steps leave, and fails as the
step behind them fails. Its steps but for the first one begin at no breakpoint. When it ends before
its budget is used up, it is at a breakpoint, or its latest instruction is one that a breakpoint
looks for. -/
theorem run_refines_steps (s : Session Machine State) {n : Nat} (hn : 1 ≤ n) :
    let o := (run (some n)).run s
    ∃ k ≤ n, s.AmountsTo k o ∧
      (0 ≤ s.debugger.limit → o.state.machine.cycles = s.machine.cycles + k) ∧
      (∀ i < k, 0 < i → (s.after i).atBreakpoint = false) ∧
      (∀ e, o.result = .error e → 0 < k → (s.after k).atBreakpoint = false) ∧
      (∀ last, o.result = .ok last → k < n →
        (s.after k).atBreakpoint ∨ ∃ i, k = i + 1 ∧ (s.after i).trips) ∧
      o.state.debugger.running = false := by
  intro o
  obtain ⟨xs, r, hran⟩ := exists_ran (some (n : Int)) s
  obtain ⟨t, ht⟩ := hran.resumes
  obtain ⟨hf, hstate, hresult⟩ := hran.follows
  have hfree (i : Nat) (hi : i < xs.length + r.failures) (hpos : 0 < i) :
      (s.after i).atBreakpoint = false := by
    refine Bool.eq_false_iff.2 fun hb => ?_
    have hzero := (hf.free i hi hb).1
    omega
  have hcalls : xs.length + r.failures ≤ n := by
    rcases ht.calls_le with hle | ⟨hzero, -⟩
    · exact hle
    · exact absurd hzero (show n ≠ 0 by omega)
  refine ⟨xs.length, by omega, hran.amountsTo, hran.amountsTo.cycles,
    fun i hi => hfree i (by omega), fun e he => ?_, fun last hlast hk => ?_, ?_⟩
  · -- the step that failed comes behind the last instruction
    have hfailures : r.failures ≠ 0 := fun hzero => by
      obtain ⟨y, hy⟩ := (Ending.result_eq_ok_iff _ r).2 hzero
      cases (hresult.symm.trans he).symm.trans hy
    exact hfree xs.length (by omega)
  · have hexplains := hf.explains
    cases r with
    | spent => exact absurd (ht.length_of_spent hn) (Nat.ne_of_lt hk)
    | stopped => exact hexplains.elim
    | before b => exact .inl hexplains
    | after b => exact .inr hexplains
    | failed e => cases hresult.symm.trans hlast
  · rw [show o.state = _ from hstate]
    rfl

/-- A run off a breakpoint that fails at the third instruction. -/
theorem run_refines_steps_to_fault :
    ∃ s o, s = watching [Debugger.onPc 0x200] ∧ o = (run (some (3 : Nat))).run s ∧ (1 : Nat) ≤ 3 ∧
      s.AmountsTo 2 o ∧ (∃ e, o.result = .error e ∧ (step.run (s.after 2)).result = .error e) ∧
      s.atBreakpoint = true ∧ (s.after 1).atBreakpoint = false ∧ o.state.debugger.running = false := by
  obtain ⟨s, hs⟩ : ∃ s, s = watching [Debugger.onPc 0x200] := ⟨_, rfl⟩
  obtain ⟨o, ho⟩ : ∃ o, o = (run (some (3 : Nat))).run s := ⟨_, rfl⟩
  have hn : (1 : Nat) ≤ 3 := by decide
  obtain ⟨k, -, hk, hcycles, hfree, -, -, hoff⟩ := run_refines_steps s hn
  rw [← ho] at hk hcycles hoff
  have hcount : o.state.machine.cycles = 2 ∧ o.result.isOk = false := by
    rw [ho, hs]
    decide +kernel
  have hstart : s.machine.cycles = 0 ∧ 0 ≤ s.debugger.limit ∧ s.atBreakpoint = true := by
    rw [hs]
    decide +kernel
  obtain rfl : k = 2 := by
    have := hcycles hstart.2.1
    omega
  refine ⟨s, o, hs, ho, hn, hk, ?_, hstart.2.2, hfree 1 (by decide) (by decide), hoff⟩
  have hend := hk.2
  rcases hr : o.result with e | last
  · rw [hr] at hend
    exact ⟨e, rfl, hend.2⟩
  · rw [hr] at hcount
    cases hcount.2

end Chip8.Session
