import Chip8.Proofs.Debugger.Course
import Chip8.Proofs.Machine.Step

/-!
# Steps and runs of a debugger

A run is nothing but steps, so that what a step keeps a run keeps (`keeps_run`), and with it every
command (`Command.keeps`). A step of a machine under a debugger either executes an instruction and
keeps it or stops the machine (`wp_step`). Taking an instruction back is taking back its traffic
(`run_stepBack_cons`).
-/

namespace Chip8

/-- Two debuggers that take back the same. -/
structure Debugger.SameHistory {S : Type} (d d' : Debugger S) : Prop where
  history : d'.history = d.history
  limit : d'.limit = d.limit
  base : d'.base = d.base

namespace Session

section Runs

variable {M S : Type} [Processor M S] {P : Session M S → Prop} {s t : Session M S} {n : Nat}
  {xs : List (Snapshot S)} {r : Ending}

theorem Advances.keeps (hstep : ∀ s, P s → Session.step.wp (fun _ => P) (fun _ => P) s)
    (h : Advances n s xs r t) (hs : P s) : P t := by
  induction h with
  | spent | stopped | before => exact hs
  | failed _ _ h => exact (Action.wp_of_run_error h).1 (hstep _ hs)
  | after _ _ h => exact (Action.wp_of_run_ok h).1 (hstep _ hs)
  | step _ _ h _ _ ih => exact ih ((Action.wp_of_run_ok h).1 (hstep _ hs))

theorem Resumes.keeps (hstep : ∀ s, P s → step.wp (fun _ => P) (fun _ => P) s)
    (h : Resumes n s xs r t) (hs : P s) : P t := by
  cases h with
  | onward _ h => exact h.keeps hstep hs
  | failed _ h => exact (Action.wp_of_run_error h).1 (hstep _ hs)
  | off _ hx h => exact h.keeps hstep ((Action.wp_of_run_ok hx).1 (hstep _ hs))

theorem keeps_run (hstep : ∀ s, P s → step.wp (fun _ => P) (fun _ => P) s)
    (hset : ∀ s d, s.debugger.SameHistory d → P s → P ⟨s.machine, d⟩) (budget : Option Int)
    (h : P s) : P ((run budget).run s).state := by
  obtain ⟨xs, r, hr⟩ := exists_ran budget s
  generalize (run budget).run s = o at hr
  cases hr with
  | mk hr => exact hset _ _ ⟨rfl, rfl, rfl⟩ (hr.keeps hstep (hset s _ ⟨rfl, rfl, rfl⟩ h))

/-- What is done with a debugger. -/
inductive Command where
  | step
  | run (budget : Option Int)
  | stepBack
  | stop
  | addBreakpoint (b : Breakpoint)
  | updateBreakpoint (old new : Breakpoint)
  | removeBreakpoint (b : Breakpoint)

/-- The session that a command leaves behind, also where it fails. -/
def Command.perform : Command → Session M S → Session M S
  | .step, s => (Session.step.run s).state
  | .run budget, s => ((Session.run budget).run s).state
  | .stepBack, s => (Session.stepBack.run s).state
  | .stop, s => { s with debugger := s.debugger.stop }
  | .addBreakpoint b, s => { s with debugger := s.debugger.addBreakpoint b }
  | .updateBreakpoint old new, s => { s with debugger := s.debugger.updateBreakpoint old new }
  | .removeBreakpoint b, s => { s with debugger := s.debugger.removeBreakpoint b }

theorem sameHistory_addBreakpoint (d : Debugger S) (b : Breakpoint) :
    d.SameHistory (d.addBreakpoint b) := by
  unfold Debugger.addBreakpoint
  split <;> exact ⟨rfl, rfl, rfl⟩

theorem Command.keeps (hstep : ∀ s, P s → Session.step.wp (fun _ => P) (fun _ => P) s)
    (hset : ∀ s d, s.debugger.SameHistory d → P s → P ⟨s.machine, d⟩) {c : Command}
    (hback : c = .stepBack → P (Session.stepBack.run s).state) (h : P s) : P (c.perform s) := by
  cases c with
  | step => exact Action.state_of_wp (hstep s h)
  | run budget => exact keeps_run hstep hset budget h
  | stepBack => exact hback rfl
  | stop => exact hset s _ ⟨rfl, rfl, rfl⟩ h
  | addBreakpoint b => exact hset s _ (sameHistory_addBreakpoint s.debugger b) h
  | updateBreakpoint old new => exact hset s _ ⟨rfl, rfl, rfl⟩ h
  | removeBreakpoint b => exact hset s _ ⟨rfl, rfl, rfl⟩ h

end Runs

variable {s t : Session Machine State}

/-- An instruction was executed and kept. -/
structure Executes (s : Session Machine State) (snapshot : Snapshot State)
    (t : Session Machine State) : Prop where
  machine : s.machine.Succeeds snapshot t.machine
  state_eq : (Machine.step.run s.machine).state = t.machine
  debugger : t.debugger = { s.debugger with before := s.machine.state }.keep snapshot

/-- The machine made no step. -/
structure Fails (s t : Session Machine State) : Prop where
  machine : s.machine.Stops t.machine
  debugger : t.debugger = { s.debugger with before := s.machine.state }

theorem wp_step (hm : s.machine.WellFormed) :
    step.wp (fun snapshot t => s.Executes snapshot t)
      (fun _ t => s.Fails t ∨ s.debugger.limit < 0 ∧ ∃ snapshot, s.Executes snapshot t) s := by
  unfold step onMachine modifyDebugger
  rw [Action.wp_bind, Action.wp_modify, Action.wp_bind, Action.wp_onPart]
  refine Action.wp_mono (Action.wp_state (Machine.step_spec hm)) (fun snapshot m h => ?_)
    fun _ m h => .inl ⟨h.1.2, rfl⟩
  have hx : s.Executes snapshot
      ⟨m, { s.debugger with before := s.machine.state }.keep snapshot⟩ := ⟨h.1, h.2, rfl⟩
  rw [Action.wp_bind, Action.wp_modify, Action.wp_bind, Action.wp_gets]
  split
  · exact .inr ⟨‹_›, snapshot, hx⟩
  · exact hx

/-- What holds behind an executed instruction and where none was executed holds behind a step. -/
theorem wp_step_of {P : Session Machine State → Prop} (hm : s.machine.WellFormed)
    (hx : ∀ snapshot t, s.Executes snapshot t → P t) (hf : ∀ t, s.Fails t → P t) :
    step.wp (fun _ => P) (fun _ => P) s := by
  refine Action.wp_mono (wp_step hm) hx fun _ t ht => ?_
  rcases ht with ht | ⟨-, snapshot, ht⟩
  · exact hf t ht
  · exact hx snapshot t ht

/-! ### Taking back -/

theorem run_load {m : Machine} {a v : Int} {b : Bus} (h : m.bus.load a v = .ok b) :
    (HasCore.load a v : Action Machine Unit).run m = ⟨{ m with bus := b }, .ok (), []⟩ := by
  unfold HasCore.load
  dsimp only
  rw [show (HasCore.bus m).load a v = _ from h]
  rfl

theorem run_undoWrites {m : Machine} {as : List Access} {b : Bus} (h : m.bus.unwrite as = .ok b) :
    (undoWrites as : Action Machine Unit).run m = ⟨{ m with bus := b }, .ok (), []⟩ := by
  induction as generalizing b with
  | nil =>
    cases h
    rfl
  | cons a as ih =>
    cases a with
    | read => exact Action.run_bind_of_ok (ih h) _
    | write a v n =>
      obtain ⟨c, hc, hl⟩ := Bus.unwrite_write_eq_ok_iff.1 h
      unfold undoWrites
      rw [Action.run_bind_of_ok (ih hc)]
      exact run_load (m := { m with bus := c }) hl

theorem run_stepBack_nil (h : s.debugger.history = []) : stepBack.run s = ⟨s, .ok none, []⟩ := by
  unfold stepBack
  rw [Action.run_bind_of_ok (Action.run_gets ..), h]
  rfl

theorem run_stepBack_cons {undone : Snapshot State} {rest : List (Snapshot State)} {b : Bus}
    (h : s.debugger.history = undone :: rest)
    (hb : s.machine.bus.unwrite undone.accesses = .ok b) :
    stepBack.run s =
      ⟨{  machine := { s.machine with
            bus := b
            state := (rest.head?.map (·.state)).getD s.debugger.base }
          debugger := { s.debugger with history := rest, last := rest.head? } },
        .ok rest.head?, []⟩ := by
  have hu : (onMachine (undoWrites undone.accesses) : Action (Session Machine State) Unit).run
      ⟨s.machine, { s.debugger with history := rest }⟩ =
        ⟨⟨{ s.machine with bus := b }, { s.debugger with history := rest }⟩, .ok (), []⟩ := by
    simp only [onMachine, Action.onPart, run_undoWrites hb]
  unfold stepBack
  rw [Action.run_bind_of_ok (Action.run_gets ..), h]
  dsimp only
  rw [modifyDebugger, Action.run_bind_of_ok (Action.run_modify ..), Action.run_bind_of_ok hu]
  rfl

end Session

end Chip8
