import Chip8.Proofs.Machine.Execute

/-!
# What a step can do

`Stepped m o` lists the ways in which a step of `m` can end, with everything that comes of each: it
is refused; the word does not lie within the memory; the word is no instruction; the instruction
fails, by a fault or otherwise; or it is executed and recorded. On the standard layout there is no
other way (`stepped`), and from a well-formed machine an instruction fails only by a fault that
leaves all as it was (`WellFormed.stepped`).
-/

namespace Chip8

namespace Machine

variable {m t : Machine}

/-- The machine with its accesses forgotten. -/
def quiet (m : Machine) : Machine := { m with bus := { m.bus with accesses := [] } }

def halt (m : Machine) : Machine := { m with state := { m.state with halted := true } }

/-- The machine behind the fetch of a word, of which nothing is executed yet. -/
def fetched (m : Machine) (high low : UInt8) : Machine :=
  { m with bus := { m.bus with
      accesses := [.read m.state.pc high, .read (m.state.pc + 1) low] } }

/-- The machine about to execute the word that it fetched. -/
def passed (m : Machine) (high low : UInt8) : Machine :=
  { m.fetched high low with state := m.state.advance 2 }

/-- The machine with one more instruction counted, and its accesses taken away. -/
def counted (m : Machine) : Machine :=
  { m with cycles := m.cycles + 1, bus := { m.bus with accesses := [] } }

/-- The bytes of the word at the program counter, which a machine that may go on fetches. -/
structure Fetches (m : Machine) (high low : UInt8) : Prop where
  ready : m.refusal? = none
  inside : m.canFetch = true
  high_eq : m.bus.byte? m.state.pc = some high
  low_eq : m.bus.byte? (m.state.pc + 1) = some low

inductive Stepped (m : Machine) : Outcome Machine (Snapshot State) → Prop
  | refused {f : Fault} (h : m.refusal? = some f) : Stepped m ⟨m.quiet, .error (.fault f), []⟩
  | outside (h : m.refusal? = none) (hf : m.canFetch = false) :
    Stepped m ⟨m.quiet.halt, .error (.fault (.fetchOutOfBounds m.state.pc)),
      [.failed m.state.pc (.fetchOutOfBounds m.state.pc)]⟩
  | unknown {high low : UInt8} (h : m.Fetches high low)
    (hi : Instruction.ofWord? (.ofBytes high low) = none) :
    Stepped m ⟨(m.fetched high low).halt,
      .error (.fault (.unknownInstruction (.ofBytes high low) (some m.state.pc))),
      [.failed m.state.pc (.unknownInstruction (.ofBytes high low) (some m.state.pc))]⟩
  | faulted {high low : UInt8} {i : Instruction} {t : Machine} {f : Fault} {l : List Notice}
    (h : m.Fetches high low) (hi : Instruction.ofWord? (.ofBytes high low) = some i)
    (hx : (execute i).run (m.passed high low) = ⟨t, .error (.fault f), l⟩) :
    Stepped m ⟨t.halt, .error (.fault f), l ++ [.failed m.state.pc f]⟩
  | broke {high low : UInt8} {i : Instruction} {t : Machine} {e : Error} {l : List Notice}
    (h : m.Fetches high low) (hi : Instruction.ofWord? (.ofBytes high low) = some i)
    (hx : (execute i).run (m.passed high low) = ⟨t, .error e, l⟩) (he : ∀ f, e ≠ .fault f) :
    Stepped m ⟨t, .error e, l⟩
  | executed {high low : UInt8} {i : Instruction} {t : Machine} {l : List Notice}
    (h : m.Fetches high low) (hi : Instruction.ofWord? (.ofBytes high low) = some i)
    (hx : (execute i).run (m.passed high low) = ⟨t, .ok (), l⟩) :
    Stepped m ⟨t.counted, .ok {
        address := m.state.pc
        instruction := i
        cycle := t.cycles + 1
        drew := i.draws
        state := t.state
        accesses := t.bus.accesses }, l ++ [.executed (traceText m.state.pc i)]⟩

theorem canFetch_iff (hm : m.bus.Standard) :
    m.canFetch = true ↔ 0 ≤ m.state.pc ∧ m.state.pc + 1 < 0x1000 := by
  unfold canFetch
  rw [hm.size]
  simp

theorem passed_pc {high low : UInt8} (hm : m.bus.Standard) (h : m.Fetches high low) :
    (m.passed high low).state.pc = m.state.pc + 2 := by
  have hp := (canFetch_iff hm).1 h.inside
  show (m.state.pc + 2) % 0x10000 = _
  omega

/-! ### The stages of a step -/

theorem run_fetch_outside (hf : m.canFetch = false) :
    (Processor.fetch : Action Machine Word).run m =
      ⟨m, .error (.fault (.fetchOutOfBounds m.state.pc)), []⟩ := by
  unfold Processor.fetch
  rw [Action.run_bind_of_ok (Action.run_get m)]
  show (ite (m.canFetch = true) _ _ : Action Machine Word).run m = _
  rw [if_neg (by simp [hf])]
  rfl

/-- A fetch within the bounds reads one byte after the other. -/
theorem run_fetch_inside (hf : m.canFetch = true) :
    (Processor.fetch : Action Machine Word).run m =
      (HasCore.read m.state.pc >>= fun high =>
        HasCore.read (m.state.pc + 1) >>= fun low => pure (.ofBytes high low) :
          Action Machine Word).run m := by
  unfold Processor.fetch
  rw [Action.run_bind_of_ok (Action.run_get m)]
  show (ite (m.canFetch = true) _ _ : Action Machine Word).run m = _
  rw [if_pos hf]
  rfl

theorem run_read {a : Int} {n : UInt8} (h : m.bus.byte? a = some n) :
    (HasCore.read a : Action Machine UInt8).run m =
      ⟨{ m with bus := { m.bus with accesses := m.bus.accesses ++ [.read a n] } }, .ok n, []⟩ :=
  run_read_of_ok (Bus.read_eq_ok_iff.2 ⟨h, rfl⟩)

theorem run_fetch {high low : UInt8} (hf : m.canFetch = true)
    (hh : m.bus.byte? m.state.pc = some high) (hl : m.bus.byte? (m.state.pc + 1) = some low) :
    (Processor.fetch : Action Machine Word).run m.quiet =
      ⟨m.fetched high low, .ok (.ofBytes high low), []⟩ := by
  let t : Machine := { m with bus := { m.bus with accesses := [.read m.state.pc high] } }
  have h₁ : (HasCore.read m.state.pc : Action Machine UInt8).run m.quiet = ⟨t, .ok high, []⟩ :=
    run_read (m := m.quiet) hh
  have h₂ : (HasCore.read (m.state.pc + 1) : Action Machine UInt8).run t =
      ⟨m.fetched high low, .ok low, []⟩ := run_read (m := t) hl
  rw [run_fetch_inside (m := m.quiet) hf]
  exact (Action.run_bind_of_ok h₁ _).trans (Action.run_bind_of_ok h₂ _)

theorem byte?_of_run_read {a : Int} {n : UInt8} {l : List Notice}
    (h : (HasCore.read a : Action Machine UInt8).run m = ⟨t, .ok n, l⟩) : m.bus.byte? a = some n := by
  unfold HasCore.read at h
  dsimp only at h
  rcases hr : (HasCore.bus m).read a with e | ⟨v, b⟩
  · rw [hr] at h
    cases h
  · rw [hr] at h
    cases h
    exact (Bus.read_eq_ok_iff.1 hr).1

/-- A word is fetched from two bytes that are there. -/
theorem exists_fetches_of_run {w : Word} {l : List Notice} (hr : m.refusal? = none)
    (h : (Processor.fetch : Action Machine Word).run m.quiet = ⟨t, .ok w, l⟩) :
    ∃ high low, m.Fetches high low ∧ w = .ofBytes high low ∧ t = m.fetched high low := by
  cases hf : m.canFetch with
  | false =>
    rw [run_fetch_outside (m := m.quiet) hf] at h
    cases h
  | true =>
    have hreads := h
    rw [run_fetch_inside (m := m.quiet) hf] at hreads
    obtain ⟨u, high, _, _, hhigh, hrest, -⟩ := Action.run_bind_eq_ok.1 hreads
    obtain ⟨_, low, _, _, hlow, -, -⟩ := Action.run_bind_eq_ok.1 hrest
    have hh : m.bus.byte? m.state.pc = some high := byte?_of_run_read (m := m.quiet) hhigh
    have hu := (run_read (m := m.quiet) hh).symm.trans hhigh
    cases hu
    have hl := byte?_of_run_read hlow
    rw [run_fetch hf hh hl] at h
    cases h
    exact ⟨high, low, ⟨hr, hf, hh, hl⟩, rfl, rfl⟩

theorem run_perform_unknown {high low : UInt8} (h : m.Fetches high low)
    (hi : Instruction.ofWord? (.ofBytes high low) = none) :
    (Processor.perform : Action Machine Instruction).run m.quiet =
      ⟨m.fetched high low,
        .error (.fault (.unknownInstruction (.ofBytes high low) (some m.state.pc))), []⟩ := by
  have hd : Processor.decode (m.fetched high low) (.ofBytes high low) =
      .error (.unknownInstruction (.ofBytes high low) (some m.state.pc)) := by
    show Machine.decode (m.fetched high low) _ = _
    unfold Machine.decode
    rw [hi]
    rfl
  unfold Processor.perform
  rw [Action.run_bind_of_ok (run_fetch h.inside h.high_eq h.low_eq),
    Action.run_bind_of_ok (Action.run_get _), hd]
  rfl

theorem run_perform {high low : UInt8} {i : Instruction} (h : m.Fetches high low)
    (hi : Instruction.ofWord? (.ofBytes high low) = some i) :
    (Processor.perform : Action Machine Instruction).run m.quiet =
      (execute i >>= fun _ => pure i).run (m.passed high low) := by
  have hd : Processor.decode (m.fetched high low) (.ofBytes high low) = .ok i := by
    show Machine.decode (m.fetched high low) _ = _
    unfold Machine.decode
    rw [hi]
  unfold Processor.perform
  rw [Action.run_bind_of_ok (run_fetch h.inside h.high_eq h.low_eq),
    Action.run_bind_of_ok (Action.run_get _), hd]
  rfl

theorem run_step_refused {f : Fault} (h : m.refusal? = some f) :
    step.run m = ⟨m.quiet, .error (.fault f), []⟩ := by
  have hr : Processor.refusal? m.quiet = some f := h
  have hq : (HasCore.takeAccesses : Action Machine _).run m = ⟨m.quiet, .ok m.bus.accesses, []⟩ := rfl
  unfold step Processor.step
  rw [Action.run_bind_of_ok hq, Action.run_bind_of_ok (Action.run_get _), hr]
  rfl

theorem run_step (h : m.refusal? = none) :
    step.run m =
      ((Processor.perform.onFault (fun m => m.halt) (.failed m.state.pc)) >>=
        Processor.record m.state.pc : Action Machine _).run m.quiet := by
  have hr : Processor.refusal? m.quiet = none := h
  have hq : (HasCore.takeAccesses : Action Machine _).run m = ⟨m.quiet, .ok m.bus.accesses, []⟩ := rfl
  unfold step Processor.step
  rw [Action.run_bind_of_ok hq, Action.run_bind_of_ok (Action.run_get _), hr]
  rfl

theorem run_step_faulted {t : Machine} {f : Fault} {l : List Notice} (h : m.refusal? = none)
    (hp : (Processor.perform : Action Machine Instruction).run m.quiet = ⟨t, .error (.fault f), l⟩) :
    step.run m = ⟨t.halt, .error (.fault f), l ++ [.failed m.state.pc f]⟩ := by
  have ho : (Processor.perform.onFault (fun m => m.halt) (.failed m.state.pc) :
      Action Machine Instruction).run m.quiet =
        ⟨t.halt, .error (.fault f), l ++ [.failed m.state.pc f]⟩ := by
    unfold Action.onFault
    dsimp only
    rw [hp]
  rw [run_step h, Action.run_bind_error ho]

theorem run_step_outside (h : m.refusal? = none) (hf : m.canFetch = false) :
    step.run m = ⟨m.quiet.halt, .error (.fault (.fetchOutOfBounds m.state.pc)),
      [.failed m.state.pc (.fetchOutOfBounds m.state.pc)]⟩ := by
  have hp : (Processor.perform : Action Machine Instruction).run m.quiet = _ :=
    Action.run_bind_error (run_fetch_outside (m := m.quiet) hf) _
  exact run_step_faulted h hp

theorem run_step_broke {t : Machine} {e : Error} {l : List Notice} (h : m.refusal? = none)
    (hp : (Processor.perform : Action Machine Instruction).run m.quiet = ⟨t, .error e, l⟩)
    (he : ∀ f, e ≠ .fault f) : step.run m = ⟨t, .error e, l⟩ := by
  have ho : (Processor.perform.onFault (fun m => m.halt) (.failed m.state.pc) :
      Action Machine Instruction).run m.quiet = ⟨t, .error e, l⟩ := by
    unfold Action.onFault
    dsimp only
    rw [hp]
    cases e with
    | fault f => exact absurd rfl (he f)
    | _ => rfl
  rw [run_step h, Action.run_bind_error ho]

/-- A fault halts the machine, and any other error leaves it as it is. -/
theorem run_step_error {t : Machine} {e : Error} {l : List Notice} (h : m.refusal? = none)
    (hp : (Processor.perform : Action Machine Instruction).run m.quiet = ⟨t, .error e, l⟩) :
    (∃ f, e = .fault f ∧ step.run m = ⟨t.halt, .error e, l ++ [.failed m.state.pc f]⟩) ∨
      (∀ f, e ≠ .fault f) ∧ step.run m = ⟨t, .error e, l⟩ := by
  by_cases he : ∃ f, e = .fault f
  · obtain ⟨f, rfl⟩ := he
    exact .inl ⟨f, rfl, run_step_faulted h hp⟩
  · have he : ∀ f, e ≠ .fault f := fun f hf => he ⟨f, hf⟩
    exact .inr ⟨he, run_step_broke h hp he⟩

theorem run_step_executed {t : Machine} {i : Instruction} {l : List Notice} (h : m.refusal? = none)
    (hp : (Processor.perform : Action Machine Instruction).run m.quiet = ⟨t, .ok i, l⟩) :
    step.run m =
      ⟨t.counted, .ok {
        address := m.state.pc
        instruction := i
        cycle := t.cycles + 1
        drew := i.draws
        state := t.state
        accesses := t.bus.accesses }, l ++ [.executed (traceText m.state.pc i)]⟩ := by
  have ho : (Processor.perform.onFault (fun m => m.halt) (.failed m.state.pc) :
      Action Machine Instruction).run m.quiet = ⟨t, .ok i, l⟩ := by
    unfold Action.onFault
    dsimp only
    rw [hp]
  rw [run_step h, Action.run_bind_ok ho]
  rfl

/-- A word whose instruction is carried out makes a step that is recorded. -/
theorem run_step_of_execute {high low : UInt8} {i : Instruction} {t : Machine} {l : List Notice}
    (h : m.Fetches high low) (hi : Instruction.ofWord? (.ofBytes high low) = some i)
    (hx : (execute i).run (m.passed high low) = ⟨t, .ok (), l⟩) :
    step.run m =
      ⟨t.counted, .ok {
        address := m.state.pc
        instruction := i
        cycle := t.cycles + 1
        drew := i.draws
        state := t.state
        accesses := t.bus.accesses }, l ++ [.executed (traceText m.state.pc i)]⟩ := by
  have hp := run_perform h hi
  rw [Action.run_bind_ok hx, Action.run_pure, List.append_nil] at hp
  exact run_step_executed h.ready hp

/-- A step that succeeds has performed the instruction in its snapshot. -/
theorem performed_of_step {x : Snapshot State} (h : (step.run m).result = .ok x) :
    m.refusal? = none ∧ ∃ u l, (Processor.perform : Action Machine Instruction).run m.quiet =
      ⟨u, .ok x.instruction, l⟩ := by
  cases hr : m.refusal? with
  | some f =>
    rw [run_step_refused hr] at h
    cases h
  | none =>
    refine ⟨rfl, ?_⟩
    rcases hp : (Processor.perform : Action Machine Instruction).run m.quiet with ⟨u, e | i, l⟩
    · rcases run_step_error hr hp with ⟨f, -, ho⟩ | ⟨-, ho⟩
      all_goals
        rw [ho] at h
        cases h
    · rw [run_step_executed hr hp] at h
      cases h
      exact ⟨u, l, rfl⟩

/-- A snapshot holds the count and the registers of the machine behind the step. -/
theorem snapshot_of_step {x : Snapshot State} (h : (step.run m).result = .ok x) :
    x.cycle = (step.run m).state.cycles ∧ x.state = (step.run m).state.state := by
  obtain ⟨hr, u, l, hp⟩ := performed_of_step h
  rw [run_step_executed hr hp] at h ⊢
  have hx := Except.ok.inj h
  exact ⟨congrArg Snapshot.cycle hx.symm, congrArg Snapshot.state hx.symm⟩

/-! ### All ways of a step -/

theorem exists_fetches (hm : m.bus.Standard) (h : m.refusal? = none) (hf : m.canFetch = true) :
    ∃ high low, m.Fetches high low := by
  have hp := (canFetch_iff hm).1 hf
  have hm₀ : m.bus.Mapped m.state.pc := hm.mapped_iff.2 (by omega)
  have hm₁ : m.bus.Mapped (m.state.pc + 1) := hm.mapped_iff.2 (by omega)
  obtain ⟨high, hh⟩ := Bus.exists_byte? hm₀
  obtain ⟨low, hl⟩ := Bus.exists_byte? hm₁
  exact ⟨high, low, h, hf, hh, hl⟩

theorem stepped (hm : m.bus.Standard) : Stepped m (step.run m) := by
  cases hr : m.refusal? with
  | some f =>
    rw [run_step_refused hr]
    exact .refused hr
  | none =>
    cases hf : m.canFetch with
    | false =>
      rw [run_step_outside hr hf]
      exact .outside hr hf
    | true =>
      obtain ⟨high, low, h⟩ := exists_fetches hm hr hf
      cases hi : Instruction.ofWord? (.ofBytes high low) with
      | none =>
        rw [run_step_faulted hr (run_perform_unknown h hi)]
        exact .unknown h hi
      | some i =>
        rcases hx : (execute i).run (m.passed high low) with ⟨t, e | ⟨⟨⟩⟩, l⟩
        · have hp := run_perform h hi
          rw [Action.run_bind_error hx] at hp
          rcases run_step_error hr hp with ⟨f, rfl, ho⟩ | ⟨he, ho⟩
          · rw [ho]
            exact .faulted h hi hx
          · rw [ho]
            exact .broke h hi hx he
        · rw [run_step_of_execute h hi hx]
          exact .executed h hi hx

/-- The kind of the instruction that a step executes, if it succeeds. -/
def executed? (m : Machine) : Option Opcode :=
  (step.run m).result.toOption.map (·.instruction.opcode)

theorem exists_run_step {o : Opcode} (h : m.executed? = some o) :
    ∃ s, step.run m = ⟨(step.run m).state, .ok s, (step.run m).notices⟩ ∧
      s.instruction.opcode = o := by
  unfold executed? at h
  rcases hr : step.run m with ⟨t, e | s, l⟩
  · rw [hr] at h
    cases h
  · rw [hr] at h
    exact ⟨s, rfl, Option.some.inj h⟩

/-! ### Steps of a well-formed machine -/

/-- A step that was recorded leads to `t`. -/
structure Succeeds (m : Machine) (s : Snapshot State) (t : Machine) : Prop where
  ready : m.refusal? = none
  wellFormed : t.WellFormed
  state_eq : s.state = t.state
  traffic : ∃ b c, m.bus.Alike b ∧ b.Trafficked s.accesses c ∧ c.Alike t.bus
  cycles : t.cycles = m.cycles + 1
  dialect : t.dialect = m.dialect
  goes_on : t.refusal? = none

/-- A step that failed leads to `t`, which makes no further step. -/
structure Stops (m t : Machine) : Prop where
  wellFormed : t.WellFormed
  alike : m.bus.Alike t.bus
  cycles : t.cycles = m.cycles
  dialect : t.dialect = m.dialect
  refuses : t.refusal? ≠ none
  state_of_refused : m.refusal? ≠ none → t.state = m.state

theorem refusal?_eq_none_iff :
    m.refusal? = none ↔ m.loaded = true ∧ m.state.halted = false := by
  unfold refusal?
  cases m.loaded <;> cases m.state.halted <;> simp

theorem refusal?_congr (hl : t.loaded = m.loaded) (hh : t.state.halted = m.state.halted) :
    t.refusal? = m.refusal? := by
  unfold refusal?
  rw [hl, hh]

theorem refusal?_halt (m : Machine) : m.halt.refusal? ≠ none := fun h =>
  nomatch (refusal?_eq_none_iff.1 h).2

namespace WellFormed

theorem quiet (hm : m.WellFormed) : m.quiet.WellFormed := hm.withBus rfl

theorem halt (hm : m.WellFormed) : m.halt.WellFormed := hm.withState (hm.ranged.withHalted true)

theorem fetched (hm : m.WellFormed) (high low : UInt8) : (m.fetched high low).WellFormed :=
  hm.withBus rfl

theorem counted (hm : m.WellFormed) : m.counted.WellFormed :=
  ⟨hm.standard, hm.screen, hm.ranged⟩

theorem passed {high low : UInt8} (hm : m.WellFormed) (h : m.Fetches high low) :
    (m.passed high low).WellFormed ∧
      2 ≤ (m.passed high low).state.pc ∧ (m.passed high low).state.pc ≤ 0x1000 := by
  have hp := (canFetch_iff hm.standard).1 h.inside
  refine ⟨(hm.fetched high low).withState (hm.ranged.advance (by omega)), ?_⟩
  rw [passed_pc hm.standard h]
  omega

end WellFormed

theorem Fetches.trafficked {high low : UInt8} (h : m.Fetches high low) :
    m.quiet.bus.Trafficked [.read m.state.pc high, .read (m.state.pc + 1) low]
      (m.passed high low).bus :=
  .read (Bus.read_eq_ok_iff.2 ⟨h.high_eq, rfl⟩)
    (.read (Bus.read_eq_ok_iff.2 ⟨h.low_eq, rfl⟩) (.refl _))

theorem step_spec (hm : m.WellFormed) :
    step.wp (m.Succeeds) (fun e t => (∃ f, e = .fault f) ∧ m.Stops t) m := by
  have hs := stepped hm.standard
  generalize ho : step.run m = o at hs
  cases hs with
  | @refused f h =>
    rw [Action.wp_of_run_error ho]
    have hr : m.quiet.refusal? ≠ none := fun h' => nomatch h.symm.trans h'
    exact ⟨⟨f, rfl⟩, hm.quiet, .withAccesses .., rfl, rfl, hr, fun _ => rfl⟩
  | outside h hf =>
    rw [Action.wp_of_run_error ho]
    exact ⟨⟨_, rfl⟩, hm.quiet.halt, .withAccesses .., rfl, rfl, refusal?_halt _,
      fun h' => absurd h h'⟩
  | unknown h hi =>
    rw [Action.wp_of_run_error ho]
    exact ⟨⟨_, rfl⟩, (hm.fetched _ _).halt, .withAccesses .., rfl, rfl, refusal?_halt _,
      fun h' => absurd h.ready h'⟩
  | faulted h hi hx =>
    rw [Action.wp_of_run_error ho]
    obtain ⟨hp, hpc⟩ := hm.passed h
    obtain ⟨rfl, -⟩ := (Action.wp_of_run_error hx).1 (execute_spec hp hpc _)
    exact ⟨⟨_, rfl⟩, hp.halt, .withAccesses .., rfl, rfl, refusal?_halt _,
      fun h' => absurd h.ready h'⟩
  | broke h hi hx he =>
    obtain ⟨hp, hpc⟩ := hm.passed h
    obtain ⟨-, f, rfl⟩ := (Action.wp_of_run_error hx).1 (execute_spec hp hpc _)
    exact absurd rfl (he f)
  | @executed high low i t _ h hi hx =>
    rw [Action.wp_of_run_ok ho]
    obtain ⟨hp, hpc⟩ := hm.passed h
    obtain ⟨ht, hk⟩ := (Action.wp_of_run_ok hx).1 (execute_spec hp hpc i)
    obtain ⟨as, has⟩ := hk.traffic
    refine ⟨h.ready, ht.counted, rfl, ⟨m.quiet.bus, t.bus, .withAccesses .., ?_, .withAccesses ..⟩,
      congrArg (· + 1) hk.cycles, hk.dialect, ?_⟩
    · rw [show t.bus.accesses = _ from has.accesses_eq]
      exact h.trafficked.trans has
    · rw [← h.ready]
      exact refusal?_congr hk.loaded hk.halted

end Machine

end Chip8
