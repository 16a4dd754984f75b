import Chip8.Debugger
import Chip8.Proofs.Action

/-!
# The course of a run

A run executes instructions one after the other and then ends, for a reason (`Ending`).
`Advances` and `Resumes` follow `Session.advance` and `Session.resume` through the instructions that
are executed, and `Ran` says how the whole run turns out. Every run has a course (`exists_ran`). The
list of breakpoints is not touched on the way, so that a run ends at none that was not in the list
when it began (`Ran.mem_breakpoints`). A run that ends before its budget does turns out the same with
every larger one (`Ran.run_eq_of_le`), so that it does not matter how large the budget is that stands
for none.
-/

namespace Chip8.Session

open HasCore

variable {M S : Type} [Processor M S]

/-- Why a run ended. -/
inductive Ending where
  /-- The budget was used up. -/
  | spent
  /-- The debugger had been told to stop. -/
  | stopped
  /-- The breakpoint is on the next instruction. -/
  | before (b : Breakpoint)
  /-- The latest instruction did what the breakpoint looks for. -/
  | after (b : Breakpoint)
  | failed (e : Error)

namespace Ending

def breakpoint? : Ending → Option Breakpoint
  | before b | after b => some b
  | spent | stopped | failed _ => none

def result {α : Type} (x : α) : Ending → Except Error α
  | failed e => .error e
  | spent | stopped | before _ | after _ => .ok x

end Ending

/-- With a budget, `s` executes instructions up to `t`, where the run ends. -/
inductive Advances : Nat → Session M S → List (Snapshot S) → Ending → Session M S → Prop
  | spent (s : Session M S) : Advances 0 s [] .spent s
  | stopped {n : Nat} {s : Session M S} (h : s.debugger.running = false) :
    Advances (n + 1) s [] .stopped s
  | before {n : Nat} {s : Session M S} {b : Breakpoint} (hr : s.debugger.running = true)
    (hb : b ∈ s.debugger.breakpoints) (h : b.stopsAt (Processor.pcOf s.machine) = true) :
    Advances (n + 1) s [] (.before b) s
  | failed {n : Nat} {s t : Session M S} {e : Error} {l : List Notice}
    (hr : s.debugger.running = true)
    (hp : s.debugger.stopsAt (Processor.pcOf s.machine) = false)
    (hs : step.run s = ⟨t, .error e, l⟩) : Advances (n + 1) s [] (.failed e) t
  | after {n : Nat} {s t : Session M S} {x : Snapshot S} {b : Breakpoint} {l : List Notice}
    (hr : s.debugger.running = true)
    (hp : s.debugger.stopsAt (Processor.pcOf s.machine) = false)
    (hs : step.run s = ⟨t, .ok x, l⟩) (hb : b ∈ t.debugger.breakpoints)
    (h : b.stopsAfter (M := M) x t.debugger.before = true) : Advances (n + 1) s [x] (.after b) t
  | step {n : Nat} {s t u : Session M S} {x : Snapshot S} {xs : List (Snapshot S)} {r : Ending}
    {l : List Notice} (hr : s.debugger.running = true)
    (hp : s.debugger.stopsAt (Processor.pcOf s.machine) = false)
    (hs : step.run s = ⟨t, .ok x, l⟩) (ha : t.debugger.stopsAfter (M := M) x = false)
    (h : Advances n t xs r u) : Advances (n + 1) s (x :: xs) r u

/-- As `Advances`, but the first instruction is executed also if there is a breakpoint on it. -/
inductive Resumes (n : Nat) (s : Session M S) : List (Snapshot S) → Ending → Session M S → Prop
  | onward {t : Session M S} {xs : List (Snapshot S)} {r : Ending}
    (hp : s.debugger.stopsAt (Processor.pcOf s.machine) = false) (h : Advances n s xs r t) :
    Resumes n s xs r t
  | failed {t : Session M S} {e : Error} {l : List Notice}
    (hp : s.debugger.stopsAt (Processor.pcOf s.machine) = true)
    (hs : step.run s = ⟨t, .error e, l⟩) : Resumes n s [] (.failed e) t
  | off {t u : Session M S} {x : Snapshot S} {xs : List (Snapshot S)} {r : Ending}
    {l : List Notice} (hp : s.debugger.stopsAt (Processor.pcOf s.machine) = true)
    (hs : step.run s = ⟨t, .ok x, l⟩) (h : Advances (n - 1) t xs r u) : Resumes n s (x :: xs) r u

/-- The session at the beginning of a run. -/
def begun (s : Session M S) : Session M S :=
  { s with debugger := { s.debugger with running := true } }

/-- A run of `s` executes the instructions, ends for the reason, and turns out so. -/
inductive Ran (budget : Option Int) (s : Session M S) (xs : List (Snapshot S)) (r : Ending) :
    Outcome (Session M S) (Option (Snapshot S)) → Prop
  | mk {t : Session M S} {l : List Notice}
    (h : Resumes ((budget.map Int.toNat).getD unlimited) s.begun xs r t) :
    Ran budget s xs r ⟨{ t with debugger := t.debugger.stop }, r.result t.debugger.last, l⟩

variable {s t : Session M S} {n : Nat} {xs : List (Snapshot S)} {r : Ending} {b : Breakpoint}

/-! ### The list of breakpoints -/

theorem wp_step_breakpoints (s : Session M S) :
    step.wp (fun _ t => t.debugger.breakpoints = s.debugger.breakpoints)
      (fun _ t => t.debugger.breakpoints = s.debugger.breakpoints) s := by
  unfold step onMachine modifyDebugger
  rw [Action.wp_bind, Action.wp_modify, Action.wp_bind, Action.wp_onPart]
  refine Action.wp_of_forall (fun x m => ?_) fun _ _ => rfl
  rw [Action.wp_bind, Action.wp_modify, Action.wp_bind, Action.wp_gets]
  split
  · rfl
  · rfl

theorem breakpoints_step {x : Snapshot S} {l : List Notice} (h : step.run s = ⟨t, .ok x, l⟩) :
    t.debugger.breakpoints = s.debugger.breakpoints :=
  (Action.wp_of_run_ok h).1 (wp_step_breakpoints s)

theorem Advances.mem_breakpoints (h : Advances n s xs r t) (hb : r.breakpoint? = some b) :
    b ∈ s.debugger.breakpoints := by
  induction h with
  | spent | stopped | failed => cases hb
  | before _ hm => exact Option.some.inj hb ▸ hm
  | after _ _ hs hm => exact Option.some.inj hb ▸ breakpoints_step hs ▸ hm
  | step _ _ hs _ _ ih => exact breakpoints_step hs ▸ ih hb

theorem Resumes.mem_breakpoints (h : Resumes n s xs r t) (hb : r.breakpoint? = some b) :
    b ∈ s.debugger.breakpoints := by
  cases h with
  | onward _ h => exact h.mem_breakpoints hb
  | failed => cases hb
  | off _ hs h => exact breakpoints_step hs ▸ h.mem_breakpoints hb

theorem Ran.mem_breakpoints {budget : Option Int} {o : Outcome (Session M S) (Option (Snapshot S))}
    (h : Ran budget s xs r o) (hb : r.breakpoint? = some b) : b ∈ s.debugger.breakpoints := by
  cases h with
  | mk h => exact h.mem_breakpoints hb

/-! ### Every run has a course -/

theorem exists_advances (n executed : Nat) (s : Session M S) :
    ∃ xs r t l, Advances n s xs r t ∧ (advance n executed).run s = ⟨t, r.result (), l⟩ := by
  induction n generalizing executed s with
  | zero => exact ⟨[], .spent, s, [], .spent s, rfl⟩
  | succ n ih =>
    unfold advance
    rw [Action.run_bind_of_ok (Action.run_get s)]
    dsimp only
    cases hr : s.debugger.running with
    | false => exact ⟨[], .stopped, s, [], .stopped hr, rfl⟩
    | true =>
      cases hp : s.debugger.stopsAt (Processor.pcOf s.machine) with
      | true =>
        obtain ⟨b, hb, h⟩ := List.any_eq_true.1 hp
        exact ⟨[], .before b, s, _, .before hr hb h, rfl⟩
      | false =>
        simp only [Bool.not_true, Bool.false_eq_true, if_false]
        rcases hs : step.run s with ⟨t, e | x, l⟩
        · obtain ⟨l', hf⟩ := Action.exists_run_onFault_error hs fun _ => .stoppedByFault executed
          exact ⟨[], .failed e, t, l', .failed hr hp hs, Action.run_bind_error hf _⟩
        · have hf := Action.run_onFault_ok hs id fun _ => .stoppedByFault executed
          rw [Action.run_bind_ok hf, Action.run_bind_of_ok (Action.run_gets ..)]
          cases ha : t.debugger.stopsAfter (M := M) x with
          | true =>
            obtain ⟨b, hb, h⟩ := List.any_eq_true.1 ha
            exact ⟨[x], .after b, t, _, .after hr hp hs hb h, rfl⟩
          | false =>
            obtain ⟨xs, r, u, l', h, hu⟩ := ih (executed + 1) t
            refine ⟨x :: xs, r, u, l ++ l', .step hr hp hs ha h, ?_⟩
            simp only [Bool.false_eq_true, if_false]
            rw [hu]

theorem exists_resumes (n : Nat) (s : Session M S) :
    ∃ xs r t l, Resumes n s xs r t ∧ (resume n).run s = ⟨t, r.result (), l⟩ := by
  unfold resume
  rw [Action.run_bind_of_ok (Action.run_get s)]
  cases hp : s.debugger.stopsAt (Processor.pcOf s.machine) with
  | false =>
    obtain ⟨xs, r, t, l, h, ht⟩ := exists_advances n 0 s
    exact ⟨xs, r, t, l, .onward hp h, ht⟩
  | true =>
    rw [if_pos rfl]
    rcases hs : step.run s with ⟨t, e | x, l⟩
    · obtain ⟨l', hf⟩ := Action.exists_run_onFault_error hs fun _ => .stoppedByFault 0
      exact ⟨[], .failed e, t, l', .failed hp hs, Action.run_bind_error hf _⟩
    · have hf := Action.run_onFault_ok hs id fun _ => .stoppedByFault 0
      obtain ⟨xs, r, u, l', h, hu⟩ := exists_advances (n - 1) 1 t
      refine ⟨x :: xs, r, u, l ++ l', .off hp hs h, ?_⟩
      rw [Action.run_bind_ok hf, hu]

theorem exists_ran (budget : Option Int) (s : Session M S) :
    ∃ xs r, Ran budget s xs r ((run budget).run s) := by
  obtain ⟨xs, r, t, l, h, ht⟩ := exists_resumes ((budget.map Int.toNat).getD unlimited) s.begun
  have he := Action.run_atEnd ht fun s => { s with debugger := s.debugger.stop }
  have hb : (modifyDebugger fun d => { d with running := true } : Action (Session M S) Unit).run s =
      ⟨s.begun, .ok (), []⟩ := rfl
  refine ⟨xs, r, ?_⟩
  unfold run
  rw [Action.run_bind_of_ok hb]
  cases r with
  | failed e =>
    rw [Action.run_bind_error he]
    exact .mk h
  | spent | stopped | before | after =>
    rw [Action.run_bind_ok he]
    exact .mk h

/-! ### Larger budgets -/

/-- The number of instructions that a run may execute. -/
def allowed (budget : Option Int) : Nat := (budget.map Int.toNat).getD unlimited

/-- The budget is felt only where the loop goes on behind an instruction. -/
theorem run_advance_congr {m executed : Nat} (hle : n + 1 ≤ m)
    (h : ∀ t x l, step.run s = ⟨t, .ok x, l⟩ → s.debugger.running = true →
      s.debugger.stopsAt (Processor.pcOf s.machine) = false →
        t.debugger.stopsAfter (M := M) x = false →
          (advance (m - 1) (executed + 1)).run t = (advance n (executed + 1)).run t) :
    (advance m executed).run s = (advance (n + 1) executed).run s := by
  obtain ⟨m, rfl⟩ := Nat.exists_eq_add_of_le' (Nat.one_le_of_lt hle)
  unfold advance
  rw [Action.run_bind_of_ok (Action.run_get s), Action.run_bind_of_ok (Action.run_get s)]
  dsimp only
  cases hr : s.debugger.running with
  | false => rfl
  | true =>
    cases hp : s.debugger.stopsAt (Processor.pcOf s.machine) with
    | true => rfl
    | false =>
      simp only [Bool.not_true, Bool.false_eq_true, if_false]
      rcases hs : step.run s with ⟨t, e | x, l⟩
      · obtain ⟨l', hf⟩ := Action.exists_run_onFault_error hs fun _ => .stoppedByFault executed
        rw [Action.run_bind_error hf, Action.run_bind_error hf]
      · have hf := Action.run_onFault_ok hs id fun _ => .stoppedByFault executed
        rw [Action.run_bind_ok hf, Action.run_bind_ok hf, Action.run_bind_of_ok (Action.run_gets ..),
          Action.run_bind_of_ok (Action.run_gets ..)]
        cases ha : t.debugger.stopsAfter (M := M) x with
        | true => rfl
        | false =>
          simp only [Bool.false_eq_true, if_false]
          rw [show (advance m (executed + 1)).run t = _ from h t x l hs hr hp ha]

theorem Advances.run_eq_of_le {m executed : Nat} (h : Advances n s xs r t) (hr : r ≠ .spent)
    (hle : n ≤ m) : (advance m executed).run s = (advance n executed).run s := by
  induction h generalizing m executed with
  | spent => exact absurd rfl hr
  | stopped hn => exact run_advance_congr hle fun _ _ _ _ hr' => nomatch hn.symm.trans hr'
  | before _ hb h =>
    have hp : Debugger.stopsAt _ _ = true := List.any_eq_true.2 ⟨_, hb, h⟩
    exact run_advance_congr hle fun _ _ _ _ _ hp' => nomatch hp.symm.trans hp'
  | failed _ _ hs => exact run_advance_congr hle fun _ _ _ hs' => nomatch hs.symm.trans hs'
  | @after _ _ t x _ _ _ _ hs hb h =>
    have ha : t.debugger.stopsAfter (M := M) x = true := List.any_eq_true.2 ⟨_, hb, h⟩
    refine run_advance_congr hle fun _ _ _ hs' _ _ ha' => ?_
    cases hs.symm.trans hs'
    exact nomatch ha.symm.trans ha'
  | step _ _ hs _ _ ih =>
    refine run_advance_congr hle fun _ _ _ hs' _ _ _ => ?_
    cases hs.symm.trans hs'
    exact ih hr (Nat.le_sub_one_of_lt hle)

theorem Resumes.run_eq_of_le {m : Nat} (h : Resumes n s xs r t) (hr : r ≠ .spent) (hle : n ≤ m) :
    (resume m).run s = (resume n).run s := by
  unfold resume
  rw [Action.run_bind_of_ok (Action.run_get s), Action.run_bind_of_ok (Action.run_get s)]
  cases h with
  | onward hp h =>
    rw [hp]
    exact h.run_eq_of_le hr hle
  | failed hp hs =>
    obtain ⟨l', hf⟩ := Action.exists_run_onFault_error hs fun _ => .stoppedByFault 0
    rw [if_pos hp, if_pos hp, Action.run_bind_error hf, Action.run_bind_error hf]
  | off hp hs h =>
    have hf := Action.run_onFault_ok hs id fun _ => .stoppedByFault 0
    rw [if_pos hp, if_pos hp, Action.run_bind_ok hf, Action.run_bind_ok hf,
      h.run_eq_of_le hr (Nat.sub_le_sub_right hle 1)]

/-- A run that ends for another reason than its budget is the same with every larger budget. -/
theorem Ran.run_eq_of_le {budget budget' : Option Int}
    {o : Outcome (Session M S) (Option (Snapshot S))} (h : Ran budget s xs r o) (hr : r ≠ .spent)
    (hle : allowed budget ≤ allowed budget') : (run budget').run s = (run budget).run s := by
  cases h with
  | mk h =>
    have hresume : (resume (allowed budget')).run s.begun = (resume (allowed budget)).run s.begun :=
      h.run_eq_of_le hr hle
    have hb : (modifyDebugger fun d => { d with running := true } : Action (Session M S) Unit).run s =
        ⟨s.begun, .ok (), []⟩ := rfl
    unfold run
    rw [Action.run_bind_of_ok hb, Action.run_bind_of_ok hb]
    exact Action.run_bind_congr (Action.run_atEnd_congr hresume _) _

/-- A run without a budget is the run with any budget that is not used up. -/
theorem Ran.run_none_eq {n : Int} {o : Outcome (Session M S) (Option (Snapshot S))}
    (h : Ran (some n) s xs r o) (hr : r ≠ .spent) (hn : n ≤ unlimited) :
    (run none).run s = (run (some n)).run s :=
  h.run_eq_of_le hr (Int.toNat_le.2 hn)

end Chip8.Session
