import Chip8.Proofs.Machine.Reached

/-!
# Steps that fail

`m.FailsBy f t`: a step of `m` fails by the fault `f` and leaves `t` behind. A refusal leaves all as it
was; a fault of the fetch or of the word halts the machine; a fault of an instruction halts it with
the program counter behind the instruction. There is no other failure (`run_step_eq_error_iff`). A
machine that halted stays so, whatever the host does to it short of a reset, of switching it off, or
of putting other registers in (`failing_step`).
-/

namespace Chip8.Machine

variable {m t : Machine} {i : Instruction} {f : Fault} {high low : UInt8}

/-- The failures of a step. The machine left behind is always `m` but for its accesses, for the halt,
and, where an instruction failed, for the program counter that has passed it. -/
inductive FailsBy (m : Machine) : Fault → Machine → Prop
  | notLoaded (h : m.loaded = false) : FailsBy m .notLoaded m.quiet
  | halted (h : m.loaded = true) (hh : m.state.halted = true) : FailsBy m .halted m.quiet
  | outside (h : m.refusal? = none) (hp : m.state.pc < 0 ∨ 0xFFF < m.state.pc + 1) :
    FailsBy m (.fetchOutOfBounds m.state.pc) m.quiet.halt
  | undecodable {high low : UInt8} (h : m.Fetches high low)
    (hi : Instruction.ofWord? (.ofBytes high low) = none) :
    FailsBy m (.unknownInstruction (.ofBytes high low) (some m.state.pc)) (m.fetched high low).halt
  | sys {high low : UInt8} {i : Instruction} (h : m.Fetches high low)
    (hi : Instruction.ofWord? (.ofBytes high low) = some i) (ho : i.opcode = .sys)
    (hd : m.dialect.sysIsFatal = true) :
    FailsBy m (.unknownInstruction (.ofBytes high low) (some m.state.pc)) (m.passed high low).halt
  | underflow {high low : UInt8} {i : Instruction} (h : m.Fetches high low)
    (hi : Instruction.ofWord? (.ofBytes high low) = some i) (ho : i.opcode = .ret)
    (hs : m.state.stack = []) :
    FailsBy m (.stackUnderflow m.state.pc) (m.passed high low).halt
  | overflow {high low : UInt8} {i : Instruction} (h : m.Fetches high low)
    (hi : Instruction.ofWord? (.ofBytes high low) = some i) (ho : i.opcode = .call)
    (hd : m.dialect.stackDepth ≤ m.state.depth) :
    FailsBy m (.stackOverflow i.address m.dialect.stackDepth) (m.passed high low).halt

theorem refusal?_eq_some_iff :
    m.refusal? = some f ↔
      f = .notLoaded ∧ m.loaded = false ∨ f = .halted ∧ m.loaded = true ∧ m.state.halted = true := by
  unfold refusal?
  cases m.loaded <;> cases m.state.halted <;> simp [eq_comm]

theorem canFetch_eq_false_iff (hm : m.bus.Standard) :
    m.canFetch = false ↔ m.state.pc < 0 ∨ 0xFFF < m.state.pc + 1 := by
  rw [← Bool.not_eq_true, canFetch_iff hm]
  omega

/-- Behind the fetch the instruction before the program counter is the one that was fetched. -/
theorem lastPc_passed (hm : m.bus.Standard) (h : m.Fetches high low) :
    (m.passed high low).state.lastPc = m.state.pc := by
  have hp := (canFetch_iff hm).1 h.inside
  unfold State.lastPc
  rw [passed_pc hm h]
  omega

/-! ### What fails and how -/

theorem FailsBy.of_balks (hm : m.bus.Standard) (h : m.Fetches high low)
    (hi : Instruction.ofWord? (.ofBytes high low) = some i) (hf : (m.passed high low).Balks i f) :
    m.FailsBy f (m.passed high low).halt := by
  have hpc := lastPc_passed hm h
  cases hf with
  | sys ho hd =>
    rw [hpc, Instruction.word_ofWord? hi]
    exact .sys h hi ho hd
  | ret ho hs =>
    rw [hpc]
    exact .underflow h hi ho hs
  | call ho hd => exact .overflow h hi ho hd

theorem run_step_of_balks (h : m.Fetches high low)
    (hi : Instruction.ofWord? (.ofBytes high low) = some i) (hf : (m.passed high low).Balks i f) :
    step.run m = ⟨(m.passed high low).halt, .error (.fault f), [.failed m.state.pc f]⟩ := by
  have hp := run_perform h hi
  rw [Action.run_bind_error (run_execute_of_balks hf)] at hp
  exact run_step_faulted h.ready hp

theorem run_step_of_failsBy (hm : m.bus.Standard) (h : m.FailsBy f t) :
    ∃ l, step.run m = ⟨t, .error (.fault f), l⟩ := by
  cases h with
  | notLoaded h => exact ⟨_, run_step_refused (refusal?_eq_some_iff.2 (.inl ⟨rfl, h⟩))⟩
  | halted h hh => exact ⟨_, run_step_refused (refusal?_eq_some_iff.2 (.inr ⟨rfl, h, hh⟩))⟩
  | outside h hp => exact ⟨_, run_step_outside h ((canFetch_eq_false_iff hm).2 hp)⟩
  | undecodable h hi => exact ⟨_, run_step_faulted h.ready (run_perform_unknown h hi)⟩
  | @sys high low i h hi ho hd =>
    have hb := Balks.sys (m := m.passed high low) ho hd
    rw [lastPc_passed hm h, Instruction.word_ofWord? hi] at hb
    exact ⟨_, run_step_of_balks h hi hb⟩
  | @underflow high low i h hi ho hs =>
    have hb := Balks.ret (m := m.passed high low) ho hs
    rw [lastPc_passed hm h] at hb
    exact ⟨_, run_step_of_balks h hi hb⟩
  | overflow h hi ho hd => exact ⟨_, run_step_of_balks h hi (.call ho hd)⟩

theorem failsBy_of_run_step {x : Error} {l : List Notice} (hm : m.WellFormed)
    (ho : step.run m = ⟨t, .error x, l⟩) : ∃ f, x = .fault f ∧ m.FailsBy f t := by
  have hs := stepped hm.standard
  generalize hr : step.run m = o at hs
  rw [hr] at ho
  cases hs with
  | @refused f h =>
    cases ho
    refine ⟨f, rfl, ?_⟩
    rcases refusal?_eq_some_iff.1 h with ⟨rfl, hl⟩ | ⟨rfl, hl, hh⟩
    · exact .notLoaded hl
    · exact .halted hl hh
  | outside h hf =>
    cases ho
    exact ⟨_, rfl, .outside h ((canFetch_eq_false_iff hm.standard).1 hf)⟩
  | unknown h hi =>
    cases ho
    exact ⟨_, rfl, .undecodable h hi⟩
  | faulted h hi hx =>
    cases ho
    obtain ⟨hw, hpc⟩ := hm.passed h
    obtain ⟨_, hf, rfl, ⟨⟩, -⟩ := balks_of_run_execute hw hpc hx
    exact ⟨_, rfl, .of_balks hm.standard h hi hf⟩
  | broke h hi hx he =>
    obtain ⟨hw, hpc⟩ := hm.passed h
    obtain ⟨f, -, -, rfl, -⟩ := balks_of_run_execute hw hpc hx
    exact absurd rfl (he f)
  | executed h hi hx => cases ho

/-- A step fails by the listed faults and by nothing else. -/
theorem run_step_eq_error_iff (hm : m.WellFormed) {x : Error} :
    (∃ l, step.run m = ⟨t, .error x, l⟩) ↔ ∃ f, x = .fault f ∧ m.FailsBy f t := by
  constructor
  · rintro ⟨l, ho⟩
    exact failsBy_of_run_step hm ho
  · rintro ⟨f, rfl, hf⟩
    exact run_step_of_failsBy hm.standard hf

/-! ### Halted machines -/

/-- The machine after deeds of its host. -/
def runAll (m : Machine) (cs : List Deed) : Machine := cs.foldl (fun m c => c.run m) m

/-- What every deed of a kind keeps, deeds of the kind keep one after another. -/
theorem runAll_keeps {P : Machine → Prop} {Q : Deed → Prop} {cs : List Deed}
    (hdeed : ∀ m c, P m → Q c → P (c.run m)) (h : P m) (hcs : ∀ c ∈ cs, Q c) : P (m.runAll cs) := by
  induction cs generalizing m with
  | nil => exact h
  | cons c cs ih =>
    obtain ⟨hc, hcs⟩ := List.forall_mem_cons.1 hcs
    exact ih (hdeed m c h hc) hcs

/-- A machine that refuses to go on since it halted. -/
structure Stuck (m : Machine) : Prop where
  standard : m.bus.Standard
  loaded : m.loaded = true
  halted : m.state.halted = true

namespace Stuck

theorem of_failsBy (hm : m.bus.Standard) (h : m.FailsBy f t) (hf : f ≠ .notLoaded) : t.Stuck := by
  have hl {high low : UInt8} (h : m.Fetches high low) : m.loaded = true :=
    (refusal?_eq_none_iff.1 h.ready).1
  cases h with
  | notLoaded h => exact absurd rfl hf
  | halted h hh => exact ⟨hm, h, hh⟩
  | outside h hp => exact ⟨hm, (refusal?_eq_none_iff.1 h).1, rfl⟩
  | undecodable h => exact ⟨hm, hl h, rfl⟩
  | sys h => exact ⟨hm, hl h, rfl⟩
  | underflow h => exact ⟨hm, hl h, rfl⟩
  | overflow h => exact ⟨hm, hl h, rfl⟩

theorem run_step (h : m.Stuck) : step.run m = ⟨m.quiet, .error (.fault .halted), []⟩ :=
  run_step_refused (refusal?_eq_some_iff.2 (.inr ⟨rfl, h.loaded, h.halted⟩))

theorem run (h : m.Stuck) {c : Deed} (hr : c ≠ .reset) (hp : c ≠ .powerCycle) : (c.run m).Stuck := by
  have hd := done h.standard c
  generalize c.run m = t at hd
  cases hd with
  | refused => exact h
  | @loaded data =>
    exact ⟨h.standard.congr (Bus.layout_loadAll m.bus programStart data), rfl, h.halted⟩
  | step =>
    rw [h.run_step]
    exact ⟨h.standard, h.loaded, h.halted⟩
  | tickTimers | press | release | clearKeys => exact ⟨h.standard, h.loaded, h.halted⟩
  | reset => exact absurd rfl hr
  | powerCycle => exact absurd rfl hp

theorem runAll (h : m.Stuck) {cs : List Deed} (hcs : ∀ c ∈ cs, c ≠ .reset ∧ c ≠ .powerCycle) :
    (m.runAll cs).Stuck :=
  runAll_keeps (fun _ _ h hc => h.run hc.1 hc.2) h hcs

end Stuck

/-- A step fails exactly by the listed faults, each of which leaves the listed machine. Any fault but
the lack of a program leaves a machine that refuses to step through whatever its host does, until
the host resets it, switches it off and on, or puts back registers that are not halted. -/
theorem failing_step (hm : m.WellFormed) :
    (∀ x t, (∃ l, step.run m = ⟨t, .error x, l⟩) ↔ ∃ f, x = .fault f ∧ m.FailsBy f t) ∧
      ∀ f t, m.FailsBy f t → f ≠ .notLoaded →
        ∀ cs : List Deed, (∀ c ∈ cs, c ≠ .reset ∧ c ≠ .powerCycle) →
          let u := t.runAll cs
          step.run u = ⟨u.quiet, .error (.fault .halted), []⟩ ∧
            (reset.run u).state.refusal? = none ∧
            (powerCycle.run u).state.refusal? = some .notLoaded ∧
            ∀ s : State, { u with state := s }.refusal? = none ↔ s.halted = false := by
  refine ⟨fun x t => run_step_eq_error_iff hm, fun f t hf hn cs hcs => ?_⟩
  have hu := (Stuck.of_failsBy hm.standard hf hn).runAll hcs
  refine ⟨hu.run_step, refusal?_eq_none_iff.2 ⟨hu.loaded, rfl⟩, ?_, fun s => ?_⟩
  · rw [run_powerCycle hu.standard]
    exact refusal?_eq_some_iff.2 (.inl ⟨rfl, rfl⟩)
  · rw [refusal?_eq_none_iff]
    exact and_iff_right hu.loaded

/-- A machine with a program that returns to nowhere. -/
def stray : Machine := (Deed.loadRom [0x00, 0xEE]).run (booted {} {})

theorem failing_step_of_stray :
    ∃ t, stray.WellFormed ∧ stray.FailsBy (.stackUnderflow 0x200) t ∧
      Fault.stackUnderflow 0x200 ≠ .notLoaded ∧
      (∃ l, step.run stray = ⟨t, .error (.fault (.stackUnderflow 0x200)), l⟩) ∧
      (step.run (t.runAll [.tickTimers, .press 3, .loadRom [0x12, 0x00], .step])).result =
        .error (.fault .halted) := by
  have hr : Reached {} {} stray := .act (.boot (boot_standard {} {})) _
  have hw := hr.fit.wellFormed
  obtain ⟨hready, hinside, hpc, hhigh, hlow, hstack⟩ :
      stray.refusal? = none ∧ stray.canFetch = true ∧ stray.state.pc = 0x200 ∧
        stray.bus.byte? 0x200 = some 0x00 ∧ stray.bus.byte? 0x201 = some 0xEE ∧
        stray.state.stack = [] := by decide +kernel
  have hf : stray.Fetches 0x00 0xEE := ⟨hready, hinside, hpc ▸ hhigh, hpc ▸ hlow⟩
  have ht := FailsBy.underflow hf (i := ⟨.ret, 0x00EE⟩) (by decide) rfl hstack
  rw [hpc] at ht
  obtain ⟨hiff, hstuck⟩ := failing_step hw
  have hn : Fault.stackUnderflow 0x200 ≠ .notLoaded := nofun
  obtain ⟨hlast, -⟩ :=
    hstuck _ _ ht hn [.tickTimers, .press 3, .loadRom [0x12, 0x00], .step] (by simp)
  exact ⟨_, hw, ht, hn, (hiff _ _).2 ⟨_, rfl, ht⟩, by rw [hlast]⟩

end Chip8.Machine
