import Chip8.Proofs.Bus.Extent
import Chip8.Proofs.Machine.Reached

/-!
# Fetches off the memory

A machine is off its memory if one of the two addresses of the word at its program counter is not
mapped. Below zero and at the end of the memory the next step then fails by a fault, which halts the
machine (`FetchFaults`). In a gap it fails for the lack of a byte, and the machine does not halt
(`FetchMisses`). So it is on layouts without gaps, and on no other ones, that every fetch off the
memory is a fault (`off_memory_faults_iff_gapless`).
-/

namespace Chip8.Machine

variable {m t : Machine} {a : Int}

def OffMemory (m : Machine) : Prop := ¬ m.bus.Mapped m.state.pc ∨ ¬ m.bus.Mapped (m.state.pc + 1)

/-- The step fails by a fetch out of bounds at the program counter and halts the machine. -/
def FetchFaults (m : Machine) : Prop :=
  step.run m = ⟨m.quiet.halt, .error (.fault (.fetchOutOfBounds m.state.pc)),
    [.failed m.state.pc (.fetchOutOfBounds m.state.pc)]⟩

/-- The step fails at the first of the two addresses that is not mapped. Only the record of accesses
changes, and nothing tells of the failure but the error. -/
inductive FetchMisses (m : Machine) : Prop
  | high (h : ¬ m.bus.Mapped m.state.pc)
    (hs : step.run m = ⟨m.quiet, .error (.bus (.unmapped m.state.pc)), []⟩)
  | low {n : UInt8} (hn : m.bus.byte? m.state.pc = some n) (h : ¬ m.bus.Mapped (m.state.pc + 1))
    (hs : step.run m = ⟨{ m with bus := { m.bus with accesses := [.read m.state.pc n] } },
      .error (.bus (.unmapped (m.state.pc + 1))), []⟩)

theorem run_read_of_not_mapped (h : ¬ m.bus.Mapped a) :
    (HasCore.read a : Action Machine UInt8).run m = ⟨m, .error (.bus (.unmapped a)), []⟩ := by
  unfold HasCore.read
  dsimp only
  rw [show (HasCore.bus m).read a = _ from Bus.read_of_not_mapped h]

/-! ### What becomes of a fetch -/

theorem run_step_of_run_fetch {e : Bus.Error} (hr : m.refusal? = none)
    (h : (Processor.fetch : Action Machine Word).run m.quiet = ⟨t, .error (.bus e), []⟩) :
    step.run m = ⟨t, .error (.bus e), []⟩ := by
  have hp : (Processor.perform : Action Machine Instruction).run m.quiet = _ :=
    Action.run_bind_error h _
  exact run_step_broke hr hp nofun

theorem fetchMisses_of_inside (hr : m.refusal? = none) (hf : m.canFetch = true) (ho : m.OffMemory) :
    m.FetchMisses := by
  by_cases hm : m.bus.Mapped m.state.pc
  · obtain ⟨n, hn⟩ := Bus.exists_byte? hm
    have hlow : ¬ m.bus.Mapped (m.state.pc + 1) := ho.resolve_left (not_not_intro hm)
    let t : Machine := { m with bus := { m.bus with accesses := [.read m.state.pc n] } }
    have hhigh : (HasCore.read m.state.pc : Action Machine UInt8).run m.quiet = ⟨t, .ok n, []⟩ :=
      run_read (m := m.quiet) hn
    refine .low hn hlow (run_step_of_run_fetch hr ?_)
    rw [run_fetch_inside (m := m.quiet) hf]
    exact (Action.run_bind_of_ok hhigh _).trans
      (Action.run_bind_error (run_read_of_not_mapped (m := t) hlow) _)
  · refine .high hm (run_step_of_run_fetch hr ?_)
    rw [run_fetch_inside (m := m.quiet) hf]
    exact Action.run_bind_error (run_read_of_not_mapped (m := m.quiet) hm) _

theorem FetchMisses.not_faults (h : m.FetchMisses) : ¬ m.FetchFaults := by
  intro hf
  cases h with
  | high _ hs | low _ _ hs => cases congrArg Outcome.result (hf.symm.trans hs)

theorem canFetch_eq_false_iff_size :
    m.canFetch = false ↔ m.state.pc < 0 ∨ m.bus.size ≤ m.state.pc + 1 := by
  unfold canFetch
  rw [← Bool.not_eq_true, Bool.and_eq_true, decide_eq_true_eq, decide_eq_true_eq]
  omega

theorem fetchFaults_iff (hr : m.refusal? = none) (ho : m.OffMemory) :
    m.FetchFaults ↔ m.state.pc < 0 ∨ m.bus.size ≤ m.state.pc + 1 := by
  rw [← canFetch_eq_false_iff_size]
  refine ⟨fun h => ?_, run_step_outside hr⟩
  cases hf : m.canFetch with
  | false => rfl
  | true => exact absurd h (fetchMisses_of_inside hr hf ho).not_faults

theorem fetchMisses_of_not_faults (hr : m.refusal? = none) (ho : m.OffMemory) (h : ¬ m.FetchFaults) :
    m.FetchMisses := by
  cases hf : m.canFetch with
  | false => exact absurd (run_step_outside hr hf) h
  | true => exact fetchMisses_of_inside hr hf ho

theorem outside_of_gapless (hg : m.bus.Gapless) (ho : m.OffMemory) :
    m.state.pc < 0 ∨ m.bus.size ≤ m.state.pc + 1 := by
  refine Classical.byContradiction fun h => ?_
  rcases ho with ho | ho
  · exact ho (hg _ (by omega) (by omega))
  · exact ho (hg _ (by omega) (by omega))

/-- Machines of a layout that could be registered, with a program and not halted: each of them halts by
a fault wherever its fetch is off the memory, if and only if the layout has no gaps. With gaps or
without, it is a fault where the word reaches over an end of the memory, and else a miss. -/
theorem off_memory_faults_iff_gapless (cs : List Bus.Call) :
    let b := ({} : Bus).calls cs
    ((∀ m : Machine, m.bus.layout = b.layout → m.loaded = true → m.state.halted = false →
        m.OffMemory → m.FetchFaults) ↔ b.Gapless) ∧
      ∀ m : Machine, m.bus.layout = b.layout → m.loaded = true → m.state.halted = false →
        m.OffMemory →
          (m.FetchFaults ↔ m.state.pc < 0 ∨ b.size ≤ m.state.pc + 1) ∧
            (¬ m.FetchFaults → m.FetchMisses) := by
  intro b
  have hone (m : Machine) (hb : m.bus.layout = b.layout) (hl : m.loaded = true)
      (hh : m.state.halted = false) (ho : m.OffMemory) :
      (m.FetchFaults ↔ m.state.pc < 0 ∨ b.size ≤ m.state.pc + 1) ∧
        (¬ m.FetchFaults → m.FetchMisses) := by
    have hr : m.refusal? = none := refusal?_eq_none_iff.2 ⟨hl, hh⟩
    rw [← Bus.size_congr hb]
    exact ⟨fetchFaults_iff hr ho, fetchMisses_of_not_faults hr ho⟩
  refine ⟨⟨fun h => ?_, fun hg m hb hl hh ho => ?_⟩, hone⟩
  · refine Classical.byContradiction fun hg => ?_
    obtain ⟨a, h₀, ha, hm⟩ := Bus.exists_gap (Bus.filled_calls cs) hg
    let m : Machine := { bus := b, state := { pc := a }, loaded := true }
    have hm : m.OffMemory := .inl hm
    rcases ((hone m rfl rfl rfl hm).1).1 (h m rfl rfl rfl hm) with hlt | hle
    · exact absurd h₀ (Int.not_le.2 hlt)
    · exact absurd ha (Int.not_lt.2 hle)
  · have hg : m.bus.Gapless := hg.congr hb
    refine ((hone m hb hl hh ho).1).2 ?_
    rw [← Bus.size_congr hb]
    exact outside_of_gapless hg ho

/-- Registrations that leave a gap between the font and the programs. -/
def gapped : List Bus.Call :=
  [.register 0 79 (some (.blank .rom 80)), .register 0x200 0xFFF (some (.blank .ram 0xE00))]

/-- A machine whose program has jumped into the gap. -/
def jumper : Machine :=
  (step.run ((loadRom [0x11, 0x00]).run
    { bus := (Font.loadInto (({} : Bus).calls gapped)).1, state := {} }).state).state

theorem off_memory_misses_in_gap :
    (∃ m, boot (({} : Bus).calls gapped) {} {} {} = .ok m ∧
        jumper = (step.run ((loadRom [0x11, 0x00]).run m).state).state) ∧
      ¬ (({} : Bus).calls gapped).Gapless ∧ jumper.OffMemory ∧ jumper.FetchMisses ∧
      jumper.state.halted = false := by
  have hfont : (Font.loadInto (({} : Bus).calls gapped)).2 = .ok () :=
    Bus.loadAll_ok (by decide +kernel)
  obtain ⟨hlayout, hl, hh, hpc⟩ : jumper.bus.layout = (({} : Bus).calls gapped).layout ∧
      jumper.loaded = true ∧ jumper.state.halted = false ∧ jumper.state.pc = 0x100 := by
    decide +kernel
  have hgap : ¬ (({} : Bus).calls gapped).Mapped 0x100 := by decide +kernel
  have hsize : (({} : Bus).calls gapped).size = 0x1000 := by decide +kernel
  have ho : jumper.OffMemory := .inl fun h => hgap ((Bus.mapped_congr hlayout _).1 (hpc ▸ h))
  obtain ⟨-, hone⟩ := off_memory_faults_iff_gapless gapped
  obtain ⟨hiff, hmiss⟩ := hone jumper hlayout hl hh ho
  rw [hpc, hsize] at hiff
  refine ⟨⟨_, boot_of_loadInto hfont, rfl⟩, fun hg => hgap (hg 0x100 (by omega) (by omega)), ho, hmiss ?_, hh⟩
  exact fun hf => absurd (hiff.1 hf) (by omega)

end Chip8.Machine
