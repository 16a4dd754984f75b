import Chip8.Proofs.Debugger.Course

/-!
# Runs as steps

A run does nothing that single steps do not do. `s.after k` is the session behind `k` steps, and a
run of `s` that executed `k` instructions leaves just that (`AmountsTo`). `Follows` says what holds
on the way: which steps succeed, what they meet, and why there is none behind them. The loop of a run
minds every breakpoint (`Advances.follows`). The step off a breakpoint under the first instruction is
outside the loop (`Resumes.follows`): nothing that it does stops the run, and it is made even without
a budget.
-/

namespace Chip8.Session

open HasCore

variable {M S : Type} [Processor M S] {s t u : Session M S} {x : Snapshot S}
  {xs : List (Snapshot S)} {r : Ending} {e : Error} {l : List Notice} {n k : Nat} {off : Prop}

/-! ### Steps -/

/-- A step is one of the processor, which is kept if it succeeds. -/
theorem run_step (s : Session M S) :
    step.run s =
      let o := Processor.step.run s.machine
      let d := { s.debugger with before := state s.machine }
      match o.result with
      | .ok x =>
        ⟨⟨o.state, d.keep x⟩, if s.debugger.limit < 0 then .error .noHistory else .ok x, o.notices⟩
      | .error e => ⟨⟨o.state, d⟩, .error e, o.notices⟩ := by
  obtain ⟨m, d⟩ := s
  unfold step
  rw [Action.run_bind_of_ok (Action.run_modify ..)]
  rcases h : (Processor.step : Action M (Snapshot S)).run m with ⟨m', e | x, l⟩
  · have hstep : (onMachine Processor.step : Action (Session M S) (Snapshot S)).run
        ⟨m, { d with before := state m }⟩ = ⟨⟨m', { d with before := state m }⟩, .error e, l⟩ := by
      simp only [onMachine, Action.onPart, h]
    rw [Action.run_bind_error hstep]
  · have hstep : (onMachine Processor.step : Action (Session M S) (Snapshot S)).run
        ⟨m, { d with before := state m }⟩ = ⟨⟨m', { d with before := state m }⟩, .ok x, l⟩ := by
      simp only [onMachine, Action.onPart, h]
    unfold modifyDebugger
    rw [Action.run_bind_ok hstep, Action.run_bind_of_ok (Action.run_modify ..),
      Action.run_bind_of_ok (Action.run_gets ..)]
    by_cases hl : d.limit < 0
    · have hl' : ({ d with before := state m }.keep x).limit < 0 := hl
      dsimp only
      rw [if_pos hl, if_pos hl', Action.run_bind_error (Action.run_fail ..), List.append_nil]
    · have hl' : ¬ ({ d with before := state m }.keep x).limit < 0 := hl
      dsimp only
      rw [if_neg hl, if_neg hl', Action.run_pure, List.append_nil]

theorem machine_step (s : Session M S) :
    (step.run s).state.machine = (Processor.step.run s.machine).state := by
  rw [run_step]
  dsimp only
  split <;> rfl

theorem limit_step (s : Session M S) :
    (step.run s).state.debugger.limit = s.debugger.limit := by
  rw [run_step]
  dsimp only
  split <;> rfl

theorem run_step_of_ok {m : M} (hl : 0 ≤ s.debugger.limit)
    (h : Processor.step.run s.machine = ⟨m, .ok x, l⟩) :
    step.run s = ⟨⟨m, { s.debugger with before := state s.machine }.keep x⟩, .ok x, l⟩ := by
  rw [run_step, h]
  dsimp only
  rw [if_neg (Int.not_lt.2 hl)]

theorem machine_of_run_step (h : step.run s = ⟨t, .ok x, l⟩) :
    Processor.step.run s.machine = ⟨t.machine, .ok x, l⟩ := by
  rw [run_step] at h
  rcases hm : (Processor.step : Action M (Snapshot S)).run s.machine with ⟨m, e | y, l'⟩
  · rw [hm] at h
    cases h
  · rw [hm] at h
    dsimp only at h
    split at h
    · cases h
    · cases h
      rfl

theorem debugger_of_run_step (h : step.run s = ⟨t, .ok x, l⟩) :
    t.debugger = { s.debugger with before := state s.machine }.keep x := by
  rw [run_step] at h
  dsimp only at h
  split at h
  · split at h
    · cases h
    · cases h
      rfl
  · cases h

/-- The session with the mark that a run is on set or taken away. No step looks at it. -/
def withRunning (s : Session M S) (b : Bool) : Session M S :=
  { s with debugger := { s.debugger with running := b } }

theorem run_step_withRunning (s : Session M S) (b : Bool) :
    step.run (s.withRunning b) =
      ⟨(step.run s).state.withRunning b, (step.run s).result, (step.run s).notices⟩ := by
  rw [run_step, run_step]
  dsimp only [withRunning]
  cases (Processor.step.run s.machine).result <;> rfl

/-- The session after so many steps, whether or not they succeed. -/
def after (s : Session M S) : Nat → Session M S
  | 0 => s
  | n + 1 => (step.run (s.after n)).state

theorem after_succ (s : Session M S) (n : Nat) : s.after (n + 1) = (step.run s).state.after n := by
  induction n with
  | zero => rfl
  | succ n ih =>
    show (step.run (s.after (n + 1))).state = (step.run ((step.run s).state.after n)).state
    rw [ih]

theorem after_withRunning (s : Session M S) (b : Bool) (n : Nat) :
    (s.withRunning b).after n = (s.after n).withRunning b := by
  induction n with
  | zero => rfl
  | succ n ih =>
    show (step.run ((s.withRunning b).after n)).state = _
    rw [ih, run_step_withRunning]
    rfl

theorem limit_after (s : Session M S) (n : Nat) : (s.after n).debugger.limit = s.debugger.limit := by
  induction n with
  | zero => rfl
  | succ n ih => exact (limit_step (s.after n)).trans ih

/-- There is a breakpoint on the next instruction. -/
def atBreakpoint (s : Session M S) : Bool := s.debugger.stopsAt (Processor.pcOf s.machine)

/-- The next step succeeds, and its instruction does what a breakpoint looks for. -/
def trips (s : Session M S) : Bool :=
  (step.run s).result.toOption.any fun x =>
    s.debugger.breakpoints.any fun b => b.stopsAfter (M := M) x (state s.machine)

theorem trips_of_run_step (h : step.run s = ⟨t, .ok x, l⟩) :
    s.trips = t.debugger.stopsAfter (M := M) x := by
  unfold trips
  rw [debugger_of_run_step h, h]
  rfl

@[simp] theorem atBreakpoint_withRunning (s : Session M S) (b : Bool) :
    (s.withRunning b).atBreakpoint = s.atBreakpoint := rfl

theorem trips_withRunning (s : Session M S) (b : Bool) : (s.withRunning b).trips = s.trips := by
  unfold trips
  rw [run_step_withRunning]
  rfl

/-! ### The course of a run, step by step -/

/-- How many steps a run makes that fail. -/
def Ending.failures : Ending → Nat
  | failed _ => 1
  | spent | stopped | before _ | after _ => 0

/-- What a reason to end says of a run that executed `k` instructions. -/
def Explains (s : Session M S) (k : Nat) : Ending → Prop
  | .spent => True
  | .stopped => False
  | .before _ => (s.after k).atBreakpoint
  | .after _ => ∃ i, k = i + 1 ∧ (s.after i).trips
  | .failed e => (step.run (s.after k)).result = .error e

/-- From `s` the run executes `k` instructions and ends at `t`. What holds of each of its steps may
fail for the first one alone, and only if that one is `off` the loop. -/
structure Follows (off : Prop) (s : Session M S) (k : Nat) (r : Ending) (t : Session M S) :
    Prop where
  state_eq : t = s.after (k + r.failures)
  succeeds : ∀ i < k, ∃ x, (step.run (s.after i)).result = .ok x
  explains : s.Explains k r
  free : ∀ i < k + r.failures, (s.after i).atBreakpoint → i = 0 ∧ off
  last : ∀ i < k, (s.after i).trips → (i + 1 = k ∧ ∃ b, r = .after b) ∨ i = 0 ∧ off

namespace Follows

theorem cons (hs : step.run s = ⟨t, .ok x, l⟩) (hp : s.atBreakpoint → off) (ha : s.trips → off)
    (h : Follows False t k r u) : Follows off s (k + 1) r u := by
  have hafter (i : Nat) : s.after (i + 1) = t.after i := by rw [after_succ, hs]
  refine ⟨?_, fun i hi => ?_, ?_, fun i hi hb => ?_, fun i hi ht => ?_⟩
  · rw [Nat.add_right_comm, hafter]
    exact h.state_eq
  · cases i with
    | zero => exact ⟨x, congrArg Outcome.result hs⟩
    | succ i =>
      rw [hafter]
      exact h.succeeds i (by omega)
  · have he := h.explains
    cases r with
    | spent => trivial
    | stopped => exact he
    | before b =>
      show (s.after (k + 1)).atBreakpoint
      rw [hafter]
      exact he
    | after b =>
      obtain ⟨i, hk, ht⟩ := he
      refine ⟨i + 1, congrArg (· + 1) hk, ?_⟩
      rw [hafter]
      exact ht
    | failed e =>
      show (step.run (s.after (k + 1))).result = _
      rw [hafter]
      exact he
  · cases i with
    | zero => exact ⟨rfl, hp hb⟩
    | succ i =>
      rw [hafter] at hb
      exact (h.free i (by omega) hb).2.elim
  · cases i with
    | zero => exact .inr ⟨rfl, ha ht⟩
    | succ i =>
      rw [hafter] at ht
      rcases h.last i (by omega) ht with ⟨hk, hr⟩ | ⟨-, hf⟩
      · exact .inl ⟨congrArg (· + 1) hk, hr⟩
      · exact hf.elim

theorem failed (hs : step.run s = ⟨t, .error e, l⟩) (hp : s.atBreakpoint → off) :
    Follows off s 0 (.failed e) t := by
  refine ⟨?_, nofun, congrArg Outcome.result hs, fun i hi hb => ?_, nofun⟩
  · show t = (step.run s).state
    rw [hs]
  · obtain rfl : i = 0 := Nat.lt_one_iff.1 hi
    exact ⟨rfl, hp hb⟩

theorem of_not_off (h : Follows False s k r t) : Follows off s k r t := by
  refine ⟨h.state_eq, h.succeeds, h.explains, fun i hi hb => ?_, fun i hi ht => ?_⟩
  · exact (h.free i hi hb).2.elim
  · exact (h.last i hi ht).imp_right fun hf => hf.2.elim

theorem of_withRunning {b : Bool} (h : Follows off (s.withRunning b) k r t) :
    Follows off s k r (s.after (k + r.failures)) := by
  obtain ⟨-, hsucceeds, hexplains, hfree, hlast⟩ := h
  simp only [after_withRunning, run_step_withRunning, atBreakpoint_withRunning, trips_withRunning]
    at hsucceeds hfree hlast
  refine ⟨rfl, hsucceeds, ?_, hfree, hlast⟩
  cases r with
  | spent => trivial
  | stopped => exact hexplains
  | before => simpa [Explains, after_withRunning] using hexplains
  | after => simpa [Explains, after_withRunning, trips_withRunning] using hexplains
  | failed => simpa [Explains, after_withRunning, run_step_withRunning] using hexplains

end Follows

theorem running_of_run_step (h : step.run s = ⟨t, .ok x, l⟩) :
    t.debugger.running = s.debugger.running := by
  rw [debugger_of_run_step h]
  rfl

/-- The loop stops at every breakpoint and behind every instruction that one looks for. -/
theorem Advances.follows (h : Advances n s xs r t) (hr : s.debugger.running = true) :
    Follows False s xs.length r t := by
  induction h with
  | spent s => exact ⟨rfl, nofun, trivial, nofun, nofun⟩
  | stopped hn => simp [hr] at hn
  | before _ hb h => exact ⟨rfl, nofun, List.any_eq_true.2 ⟨_, hb, h⟩, nofun, nofun⟩
  | failed _ hp hs => exact .failed hs fun hb => Bool.false_ne_true (hp.symm.trans hb)
  | @after n s t x b l _ hp hs hb h =>
    have ht : s.trips = true := by
      rw [trips_of_run_step hs]
      exact List.any_eq_true.2 ⟨b, hb, h⟩
    have hzero (i : Nat) (hi : i < 1) : i = 0 := Nat.lt_one_iff.1 hi
    refine ⟨?_, fun i hi => ?_, ⟨0, rfl, ht⟩, fun i hi hp' => ?_, fun i hi _ => ?_⟩
    · show t = (Session.step.run s).state
      rw [hs]
    · rw [hzero i hi]
      exact ⟨x, congrArg Outcome.result hs⟩
    · rw [hzero i hi] at hp'
      exact absurd (hp.symm.trans hp') Bool.false_ne_true
    · exact .inl ⟨congrArg (· + 1) (hzero i hi), b, rfl⟩
  | step _ hp hs ha _ ih =>
    refine (ih ((running_of_run_step hs).trans hr)).cons hs (fun hb => ?_) fun ht => ?_
    · exact Bool.false_ne_true (hp.symm.trans hb)
    · exact Bool.false_ne_true (ha.symm.trans ((trips_of_run_step hs).symm.trans ht))

/-- The whole run does so too, but for the step off a breakpoint under its first instruction. -/
theorem Resumes.follows (h : Resumes n s xs r t) (hr : s.debugger.running = true) :
    Follows s.atBreakpoint s xs.length r t := by
  cases h with
  | onward _ h => exact (h.follows hr).of_not_off
  | failed hp hs => exact .failed hs fun hb => hb
  | off hp hs h =>
    exact (h.follows ((running_of_run_step hs).trans hr)).cons hs (fun hb => hb) fun _ => hp

/-- A run that turned out as `o` executed `k` instructions of `s`: it left what `k` steps leave, and
where it failed, what is left by the step behind them, which fails the same way. The run is off. -/
def AmountsTo (s : Session M S) (k : Nat) (o : Outcome (Session M S) (Option (Snapshot S))) : Prop :=
  (∀ i < k, ∃ x, (step.run (s.after i)).result = .ok x) ∧
    match o.result with
    | .ok last =>
      o.state = (s.after k).withRunning false ∧ last = (s.after k).debugger.last
    | .error e =>
      o.state = (s.after (k + 1)).withRunning false ∧ (step.run (s.after k)).result = .error e

/-! ### The budget of a run -/

theorem Advances.calls_le (h : Advances n s xs r t) : xs.length + r.failures ≤ n := by
  induction h with
  | spent | stopped | before => exact Nat.zero_le _
  | failed | after => exact Nat.succ_le_succ (Nat.zero_le _)
  | step _ _ _ _ _ ih =>
    rw [List.length_cons]
    omega

theorem Advances.length_of_spent (h : Advances n s xs .spent t) : xs.length = n := by
  generalize hr : Ending.spent = r at h
  induction h with
  | spent => rfl
  | step _ _ _ _ _ ih => exact congrArg (· + 1) (ih hr)
  | _ => cases hr

/-- A run makes no more steps than its budget has, save one off a breakpoint without a budget. -/
theorem Resumes.calls_le (h : Resumes n s xs r t) :
    xs.length + r.failures ≤ n ∨ n = 0 ∧ s.atBreakpoint ∧ xs.length + r.failures = 1 := by
  cases h with
  | onward _ h => exact .inl h.calls_le
  | failed hp hs =>
    rcases Nat.eq_zero_or_pos n with hn | hn
    · exact .inr ⟨hn, hp, rfl⟩
    · exact .inl hn
  | off hp _ h =>
    have hle := h.calls_le
    rw [List.length_cons]
    rcases Nat.eq_zero_or_pos n with hn | hn
    · exact .inr ⟨hn, hp, by omega⟩
    · exact .inl (by omega)

theorem Resumes.calls_pos (h : Resumes n s xs r t) (hp : s.atBreakpoint) :
    0 < xs.length + r.failures := by
  cases h with
  | onward hn => exact absurd (hn.symm.trans hp) Bool.false_ne_true
  | failed => exact Nat.one_pos
  | off =>
    rw [List.length_cons]
    omega

theorem Resumes.length_of_spent (h : Resumes n s xs .spent t) (hn : 1 ≤ n) : xs.length = n := by
  cases h with
  | onward _ h => exact h.length_of_spent
  | off _ _ h =>
    have hlength := h.length_of_spent
    rw [List.length_cons]
    omega

/-! ### The first instruction -/

theorem Advances.ends_at_once (h : Advances n s xs r t) (hn : n = 0 ∨ s.atBreakpoint) :
    xs.length + r.failures = 0 := by
  have hfree (hp : s.debugger.stopsAt (Processor.pcOf s.machine) = false) :
      ¬ s.atBreakpoint = true := fun hb => Bool.false_ne_true (hp.symm.trans hb)
  cases h with
  | spent | stopped | before => rfl
  | failed _ hp => exact absurd hn (by simp [hfree hp])
  | after _ hp => exact absurd hn (by simp [hfree hp])
  | step _ hp => exact absurd hn (by simp [hfree hp])

theorem Advances.goes_on (h : Advances n s xs r t) (hr : s.debugger.running = true) (hn : 0 < n)
    (hp : s.atBreakpoint = false) : 0 < xs.length + r.failures := by
  cases h with
  | spent => omega
  | stopped hf => exact absurd (hf.symm.trans hr) Bool.false_ne_true
  | before _ hb h =>
    have hb : s.atBreakpoint = true := List.any_eq_true.2 ⟨_, hb, h⟩
    exact absurd (hp.symm.trans hb) Bool.false_ne_true
  | failed => exact Nat.one_pos
  | after => exact Nat.one_pos
  | step =>
    rw [List.length_cons]
    omega

/-- An instruction that a breakpoint looks for is the last one of the run, unless it is the first
one, has a breakpoint on it, and neither the budget nor another breakpoint stops the run behind it. -/
theorem Resumes.tripping_last_iff {i : Nat} (h : Resumes n s xs r t)
    (hr : s.debugger.running = true) (hi : i < xs.length) (ht : (s.after i).trips) :
    i + 1 = xs.length ∧ r.failures = 0 ↔
      ¬ (i = 0 ∧ s.atBreakpoint ∧ 1 < n ∧ (s.after 1).atBreakpoint = false) := by
  by_cases hfirst : i = 0 ∧ s.atBreakpoint = true
  · obtain ⟨rfl, hp⟩ := hfirst
    cases h with
    | onward hn => exact absurd (hn.symm.trans hp) Bool.false_ne_true
    | failed => exact absurd hi (Nat.not_lt_zero 0)
    | @off u _ x xs _ l _ hs h =>
      have hafter : s.after 1 = u := congrArg Outcome.state hs
      have hrunning := (running_of_run_step hs).trans hr
      rw [List.length_cons, hafter]
      by_cases hgo : 1 < n ∧ u.atBreakpoint = false
      · have hpos := h.goes_on hrunning (by omega) hgo.2
        refine iff_of_false (by omega) (not_not_intro ⟨rfl, hp, hgo⟩)
      · have hzero : xs.length + r.failures = 0 := by
          refine h.ends_at_once ?_
          by_cases hn : 1 < n
          · exact .inr (by simpa [hn] using hgo)
          · exact .inl (by omega)
        exact iff_of_true (by omega) fun hgo' => hgo hgo'.2.2
  · rcases (h.follows hr).last i hi ht with ⟨hk, b, rfl⟩ | hfirst'
    · exact iff_of_true ⟨hk, rfl⟩ fun h' => hfirst ⟨h'.1, h'.2.1⟩
    · exact absurd hfirst' hfirst

/-! ### Whole runs -/

theorem Ran.resumes {budget : Option Int} {o : Outcome (Session M S) (Option (Snapshot S))}
    (h : Ran budget s xs r o) : ∃ t, Resumes (allowed budget) s.begun xs r t := by
  cases h with
  | mk h => exact ⟨_, h⟩

theorem Ran.follows {budget : Option Int} {o : Outcome (Session M S) (Option (Snapshot S))}
    (h : Ran budget s xs r o) :
    let t := s.after (xs.length + r.failures)
    Follows s.atBreakpoint s xs.length r t ∧ o.state = t.withRunning false ∧
      o.result = r.result t.debugger.last := by
  cases h with
  | @mk t l h =>
    have hf : Follows s.atBreakpoint (s.withRunning true) xs.length r t := h.follows rfl
    have ht := hf.state_eq
    rw [after_withRunning] at ht
    subst ht
    exact ⟨hf.of_withRunning, rfl, rfl⟩

theorem Ending.result_eq_ok_iff {α : Type} (y : α) (r : Ending) :
    (∃ z, r.result y = .ok z) ↔ r.failures = 0 := by
  cases r <;> simp [Ending.result, Ending.failures]

theorem Ran.amountsTo {budget : Option Int} {o : Outcome (Session M S) (Option (Snapshot S))}
    (h : Ran budget s xs r o) : s.AmountsTo xs.length o := by
  obtain ⟨hf, hstate, hresult⟩ := h.follows
  refine ⟨hf.succeeds, ?_⟩
  rw [hresult, hstate]
  cases r with
  | failed e => exact ⟨rfl, hf.explains⟩
  | spent | stopped | before | after => exact ⟨rfl, rfl⟩

end Chip8.Session
