import Chip8.Proofs.Debugger.Run
import Chip8.Proofs.Machine.Reached

/-!
# Taking instructions back

A `Chronicle` follows a session and holds the machines as they were right before each instruction
that was executed and not taken back. The kept history leads back through these machines one by one
(`Rewinds`): the accesses of an instruction undo its writes, and the registers before it are those
behind the instruction kept before it, or the base where there is none. Forgetting the oldest
instructions moves the base forward and keeps this so (`Rewinds.take`).
-/

namespace Chip8

namespace Machine

/-- The machine after so many steps, whether or not they succeed. -/
def after (m : Machine) : Nat → Machine
  | 0 => m
  | n + 1 => (step.run (m.after n)).state

/-- The machines that so many steps begin with, the latest first. -/
def stages (m : Machine) : Nat → List Machine
  | 0 => []
  | n + 1 => m.after n :: m.stages n

end Machine

namespace Session

/-- The registers behind the latest kept instruction. -/
def behind (base : State) (kept : List (Snapshot State)) : State :=
  (kept.head?.map (·.state)).getD base

theorem behind_take (base : State) (kept : List (Snapshot State)) (n : Nat) :
    behind ((kept[n]?.map (·.state)).getD base) (kept.take n) = behind base kept := by
  cases n <;> cases kept <;> rfl

theorem behind_of_executes {snapshot : Snapshot State} {s t : Session Machine State}
    (hx : s.Executes snapshot t) :
    behind t.debugger.base t.debugger.history = t.machine.state := by
  rw [hx.debugger, ← hx.machine.state_eq]
  exact behind_take _ (snapshot :: _) _

/-- From the memory `b` the kept instructions lead back through the machines `log`, which have at
most `depth` return addresses. -/
inductive Rewinds (depth : Int) (base : State) : Bus → List (Snapshot State) → List Machine → Prop
  | nil (b : Bus) (log : List Machine) : Rewinds depth base b [] log
  | cons {b c c' : Bus} {m : Machine} {s : Snapshot State} {rest : List (Snapshot State)}
    {log : List Machine} (hb : m.bus.Alike c) (ht : c.Trafficked s.accesses c') (hc : c'.Alike b)
    (hr : m.state.Ranged depth) (hs : m.state = behind base rest)
    (h : Rewinds depth base m.bus rest log) : Rewinds depth base b (s :: rest) (m :: log)

namespace Rewinds

variable {depth : Int} {base : State} {b b' : Bus} {kept rest : List (Snapshot State)}
  {s : Snapshot State} {log : List Machine}

theorem congr (h : Rewinds depth base b kept log) (hb : b.Alike b') :
    Rewinds depth base b' kept log := by
  cases h with
  | nil => exact .nil b' log
  | cons hm ht hc hr hs h => exact .cons hm ht (hc.trans hb) hr hs h

theorem take (h : Rewinds depth base b kept log) (n : Nat) :
    Rewinds depth ((kept[n]?.map (·.state)).getD base) b (kept.take n) log := by
  induction h generalizing n with
  | nil b log =>
    rw [List.take_nil]
    exact .nil b log
  | @cons b c c' m s rest log hb ht hc hr hs h ih =>
    cases n with
    | zero => exact .nil b _
    | succ n => exact .cons hb ht hc hr (hs.trans (behind_take base rest n).symm) (ih n)

/-- The latest kept instruction can be taken back, and leads to the latest machine of the log. -/
theorem exists_unwrite (h : Rewinds depth base b (s :: rest) log) :
    ∃ m log' b', log = m :: log' ∧ b.unwrite s.accesses = .ok b' ∧ m.bus.Alike b' ∧
      m.state.Ranged depth ∧ m.state = behind base rest ∧ Rewinds depth base b' rest log' := by
  cases h with
  | @cons _ c c' m _ _ log hb ht hc hr hs h =>
    obtain ⟨b', hu, hb', -⟩ := ht.exists_unwrite hc
    have hm := hb.trans hb'
    exact ⟨m, log, b', rfl, hu, hm, hr, hs, h.congr hm⟩

end Rewinds

/-! ### Sessions and their logs -/

/-- The session keeps what it needs to go back through the machines of the log. -/
structure Logged (limit : Int) (s : Session Machine State) (log : List Machine) : Prop where
  wellFormed : s.machine.WellFormed
  limit_eq : s.debugger.limit = limit
  length : (s.debugger.history.length : Int) ≤ limit
  rewinds : Rewinds s.machine.stackLimit s.debugger.base s.machine.bus s.debugger.history log
  state_eq : s.machine.refusal? = none →
    s.machine.state = behind s.debugger.base s.debugger.history

variable {d : Dialect} {e : Entropy} {m : Machine} {limit : Int} {s t : Session Machine State}
  {log : List Machine}

namespace Logged

theorem start (hm : m.WellFormed) (hl : 0 ≤ limit) : Logged limit (.start m limit) [] :=
  ⟨hm, rfl, hl, .nil .., fun _ => rfl⟩

theorem withDebugger {d : Debugger State} (h : Logged limit s log)
    (hd : s.debugger.SameHistory d) : Logged limit ⟨s.machine, d⟩ log := by
  obtain ⟨hw, he, hl, hr, hs⟩ := h
  rw [← hd.history] at hl hr hs
  rw [← hd.base] at hr hs
  exact ⟨hw, hd.limit.trans he, hl, hr, hs⟩

theorem executes {snapshot : Snapshot State} (h : Logged limit s log)
    (hx : s.Executes snapshot t) : Logged limit t (s.machine :: log) := by
  have hs := behind_of_executes hx
  obtain ⟨m, d⟩ := t
  obtain ⟨hm, -, rfl⟩ := hx
  obtain ⟨b, c, hb, ht, hc⟩ := hm.traffic
  -- all of the history and the new instruction at first; `keep` then forgets what is too much
  have hr := Rewinds.cons hb ht hc h.wellFormed.ranged (h.state_eq hm.ready) h.rewinds
  refine ⟨hm.wellFormed, h.limit_eq, ?_, ?_, fun _ => hs.symm⟩
  · have hl := h.length
    have he := h.limit_eq
    show ((snapshot :: s.debugger.history).take s.debugger.limit.toNat).length ≤ limit
    rw [List.length_take]
    omega
  · rw [show m.stackLimit = s.machine.stackLimit from Machine.stackLimit_congr hm.dialect]
    exact hr.take s.debugger.limit.toNat

theorem fails (h : Logged limit s log) (hf : s.Fails t) : Logged limit t log := by
  obtain ⟨m, d⟩ := t
  obtain ⟨hm, rfl⟩ := hf
  refine ⟨hm.wellFormed, h.limit_eq, h.length, ?_, fun hr => absurd hr hm.refuses⟩
  rw [show m.stackLimit = s.machine.stackLimit from Machine.stackLimit_congr hm.dialect]
  exact h.rewinds.congr hm.alike

theorem stepBack {undone : Snapshot State} {rest : List (Snapshot State)} (h : Logged limit s log)
    (hh : s.debugger.history = undone :: rest) :
    ∃ m log', log = m :: log' ∧ Logged limit (stepBack.run s).state log' ∧
      (stepBack.run s).state.debugger.history = rest ∧
      (stepBack.run s).state.machine.state = m.state ∧
      m.bus.Alike (stepBack.run s).state.machine.bus := by
  have hr := h.rewinds
  have hl := h.length
  rw [hh] at hr hl
  rw [List.length_cons] at hl
  obtain ⟨m, log', b, rfl, hu, hb, hm, hs, hr⟩ := hr.exists_unwrite
  rw [run_stepBack_cons hh hu]
  rw [hs] at hm
  have hw := (h.wellFormed.withBus (Bus.layout_unwrite hu)).withState hm
  have hl' : (rest.length : Int) ≤ limit := by omega
  exact ⟨m, log', rfl, ⟨hw, h.limit_eq, hl', hr, fun _ => rfl⟩, rfl, hs.symm, hb⟩

end Logged

/-- The session when so many instructions are taken back. -/
def back (s : Session Machine State) : Nat → Session Machine State
  | 0 => s
  | n + 1 => back (stepBack.run s).state n

theorem Logged.back (h : Logged limit s log) {k : Nat} (hk : k < s.debugger.history.length) :
    ∃ m, log[k]? = some m ∧ (s.back (k + 1)).machine.state = m.state ∧
      m.bus.Alike (s.back (k + 1)).machine.bus := by
  induction k generalizing s log with
  | zero =>
    cases hh : s.debugger.history with
    | nil => simp [hh] at hk
    | cons undone rest =>
      obtain ⟨m, log, rfl, -, -, hs, hb⟩ := h.stepBack hh
      exact ⟨m, rfl, hs, hb⟩
  | succ k ih =>
    cases hh : s.debugger.history with
    | nil => simp [hh] at hk
    | cons undone rest =>
      obtain ⟨m, log, rfl, ht, hr, -⟩ := h.stepBack hh
      rw [hh, List.length_cons] at hk
      exact ih ht (by rw [hr]; omega)

/-! ### Steps and runs -/

/-- The session `t` came from `s`, whose log was `log`, by executing `n` instructions. -/
structure Came (limit : Int) (log : List Machine) (s : Session Machine State) (n : Nat)
    (t : Session Machine State) : Prop where
  cycles : t.machine.cycles = s.machine.cycles + n
  logged : Logged limit t (s.machine.stages n ++ log)
  machine_eq : t.machine.refusal? = none → t.machine = s.machine.after n
  length : t.debugger.history.length = min limit.toNat (s.debugger.history.length + n)

namespace Came

variable {n : Nat} {u : Session Machine State}

theorem refl (h : Logged limit s log) : Came limit log s 0 s := by
  have hl := h.length
  exact ⟨rfl, h, fun _ => rfl, by omega⟩

theorem withDebugger {d : Debugger State} (h : Came limit log s n t)
    (hd : t.debugger.SameHistory d) : Came limit log s n ⟨t.machine, d⟩ :=
  ⟨h.cycles, h.logged.withDebugger hd, h.machine_eq, hd.history ▸ h.length⟩

theorem executes {snapshot : Snapshot State} (h : Came limit log s n t)
    (hx : t.Executes snapshot u) : Came limit log s (n + 1) u := by
  have hm := h.machine_eq hx.machine.ready
  refine ⟨?_, ?_, fun _ => ?_, ?_⟩
  · rw [hx.machine.cycles, h.cycles]
    rfl
  · -- `stages (n + 1)` begins with the machine after `n` steps, which is the one that was executed
    have hl := h.logged.executes hx
    rw [hm] at hl
    exact hl
  · rw [← hx.state_eq, hm]
    rfl
  · have hl := h.length
    rw [hx.debugger]
    show ((snapshot :: t.debugger.history).take t.debugger.limit.toNat).length = _
    rw [List.length_take, List.length_cons, h.logged.limit_eq]
    omega

theorem fails (h : Came limit log s n t) (hf : t.Fails u) : Came limit log s n u := by
  refine ⟨hf.machine.cycles.trans h.cycles, h.logged.fails hf,
    fun hr => absurd hr hf.machine.refuses, ?_⟩
  rw [hf.debugger]
  exact h.length

theorem wp_step (h : Came limit log s n t) :
    Session.step.wp (fun _ u => ∃ n, Came limit log s n u) (fun _ u => ∃ n, Came limit log s n u)
      t :=
  wp_step_of h.logged.wellFormed (fun _ _ hx => ⟨n + 1, h.executes hx⟩)
    fun _ hf => ⟨n, h.fails hf⟩

end Came

theorem exists_came {c : Command} (h : Logged limit s log) (hc : c ≠ .stepBack) :
    ∃ n, Came limit log s n (c.perform s) :=
  Command.keeps (P := fun t => ∃ n, Came limit log s n t) (fun _ ⟨_, ht⟩ => ht.wp_step)
    (fun _ _ hd ⟨n, ht⟩ => ⟨n, ht.withDebugger hd⟩) (fun h => absurd h hc) ⟨0, .refl h⟩

/-! ### Chronicles -/

/-- A session, and the machines right before each instruction that was executed and not taken back,
the latest first. -/
structure Chronicle where
  session : Session Machine State
  log : List Machine

namespace Chronicle

def start (m : Machine) (limit : Int) : Chronicle := ⟨.start m limit, []⟩

def perform (r : Chronicle) (c : Command) : Chronicle :=
  let s := c.perform r.session
  ⟨s, match c with
    | .stepBack => if r.session.debugger.history.isEmpty then r.log else r.log.tail
    | _ => r.session.machine.stages (s.machine.cycles - r.session.machine.cycles) ++ r.log⟩

def performAll (r : Chronicle) (cs : List Command) : Chronicle := cs.foldl perform r

variable {r : Chronicle} {c : Command}

theorem log_perform (hc : c ≠ .stepBack) :
    (r.perform c).log = r.session.machine.stages
      ((c.perform r.session).machine.cycles - r.session.machine.cycles) ++ r.log := by
  cases c with
  | stepBack => exact absurd rfl hc
  | _ => rfl

theorem logged_perform (h : Logged limit r.session r.log) (c : Command) :
    Logged limit (r.perform c).session (r.perform c).log := by
  by_cases hc : c = .stepBack
  · subst hc
    show Logged limit (Session.stepBack.run r.session).state (ite _ _ _)
    cases hh : r.session.debugger.history with
    | nil =>
      rw [run_stepBack_nil hh]
      exact h
    | cons undone rest =>
      obtain ⟨m, log, hlog, ht, -⟩ := h.stepBack hh
      rw [hlog]
      exact ht
  · obtain ⟨n, hn⟩ := exists_came h hc
    rw [log_perform hc, hn.cycles, Nat.add_sub_cancel_left]
    exact hn.logged

theorem logged_performAll (h : Logged limit r.session r.log) (cs : List Command) :
    Logged limit (r.performAll cs).session (r.performAll cs).log := by
  induction cs generalizing r with
  | nil => exact h
  | cons c cs ih => exact ih (logged_perform h c)

theorem length_performAll {cs : List Command} (h : Logged limit r.session r.log)
    (hcs : ∀ c ∈ cs, c ≠ .stepBack) :
    ∃ n, (r.performAll cs).session.machine.cycles = r.session.machine.cycles + n ∧
      (r.performAll cs).session.debugger.history.length =
        min limit.toNat (r.session.debugger.history.length + n) := by
  induction cs generalizing r with
  | nil =>
    have hl := h.length
    refine ⟨0, rfl, ?_⟩
    show r.session.debugger.history.length = _
    omega
  | cons c cs ih =>
    rw [List.forall_mem_cons] at hcs
    obtain ⟨k, hk⟩ := exists_came h hcs.1
    obtain ⟨n, hc, hn⟩ := ih (logged_perform h c) hcs.2
    have hkc : (r.perform c).session.machine.cycles = r.session.machine.cycles + k := hk.cycles
    have hkl : (r.perform c).session.debugger.history.length = _ := hk.length
    refine ⟨k + n, ?_, ?_⟩
    · show ((r.perform c).performAll cs).session.machine.cycles = _
      rw [hc, hkc, Nat.add_assoc]
    · show ((r.perform c).performAll cs).session.debugger.history.length = _
      rw [hn, hkl]
      omega

end Chronicle

/-- Whatever is done with a debugger from its making on, as many instructions can be taken back as
it keeps, and taking back leads through the registers and the memory that there were before each of
them. It keeps as many as were executed, up to the limit. -/
theorem undo_exact (h : Machine.Reached d e m) (hl : 0 ≤ limit) (cs : List Command) :
    let r := (Chronicle.start m limit).performAll cs
    let kept := r.session.debugger.history.length
    (kept : Int) ≤ limit ∧
      (∀ k < kept, ∃ u, r.log[k]? = some u ∧ (r.session.back (k + 1)).machine.state = u.state ∧
        ∀ a, (r.session.back (k + 1)).machine.bus.byte? a = u.bus.byte? a) ∧
      ((∀ c ∈ cs, c ≠ .stepBack) →
        (kept : Int) = min limit (r.session.machine.cycles - m.cycles)) := by
  intro r kept
  have hs : Logged limit (.start m limit) [] := .start h.fit.wellFormed hl
  have hr : Logged limit r.session r.log := Chronicle.logged_performAll (r := .start m limit) hs cs
  refine ⟨hr.length, fun k hk => ?_, fun hcs => ?_⟩
  · obtain ⟨u, hu, hstate, hbus⟩ := hr.back hk
    exact ⟨u, hu, hstate, fun a => (hbus.byte?_eq a).symm⟩
  · obtain ⟨n, hc, hn⟩ := Chronicle.length_performAll (r := .start m limit) hs hcs
    have hc : r.session.machine.cycles = m.cycles + n := hc
    have hn : kept = min limit.toNat (0 + n) := hn
    omega

theorem undo_exact_into_font :
    ∃ m r, m = (Machine.Deed.loadRom [0x60, 0xFE, 0xA0, 0x4E, 0xF0, 0x33]).run
        (Machine.booted {} {}) ∧
      r = (Chronicle.start m 2).performAll [.step, .run (some 2), .stepBack, .run none] ∧
      Machine.Reached {} {} m ∧ (0 : Int) ≤ 2 ∧ r.session.debugger.history.length = 2 ∧
      ∃ u, r.log[1]? = some u ∧ (r.session.back 2).machine.state = u.state ∧
        ∀ a, (r.session.back 2).machine.bus.byte? a = u.bus.byte? a := by
  obtain ⟨m, hm⟩ : ∃ m, m = (Machine.Deed.loadRom [0x60, 0xFE, 0xA0, 0x4E, 0xF0, 0x33]).run
    (Machine.booted {} {}) := ⟨_, rfl⟩
  obtain ⟨r, hr⟩ : ∃ r, r = (Chronicle.start m 2).performAll
    [.step, .run (some 2), .stepBack, .run none] := ⟨_, rfl⟩
  have hreached : Machine.Reached {} {} m := by
    rw [hm]
    exact .act (.boot (Machine.boot_standard {} {})) _
  have hk : r.session.debugger.history.length = 2 := by
    rw [hr, hm]
    decide +kernel
  have hu := (undo_exact hreached (by decide : (0 : Int) ≤ 2)
    [.step, .run (some 2), .stepBack, .run none]).2.1 1
  rw [← hr] at hu
  exact ⟨m, r, hm, hr, hreached, by decide, hk, hu (by rw [hk]; decide)⟩

end Session

end Chip8
