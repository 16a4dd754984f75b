import Chip8.Proofs.Machine.PowerCycle
import Chip8.Proofs.Screen.Overhang

/-!
# One program in two dialects

Each choice of a dialect is about a few instructions, and about them only in some situations:
`Instruction.Affected` lists them. Two machines that differ in nothing but the dialect stay so over a
step whose instruction is not affected, and the step turns out the same on both (`step_speaking`). So
they stay over whatever their host does until the first step that is affected
(`dialects_differ_only_where_affected`).
-/

namespace Chip8

/-- On this machine the dialect `d` makes something else of the instruction than the machine's own. -/
def Instruction.Affected (i : Instruction) (m : Machine) (d : Dialect) : Prop :=
  (d.spriteWrap ≠ m.dialect.spriteWrap ∧ i.opcode = .draw ∧
      m.screen.Overhangs (m.state.reg i.x) (m.state.reg i.y) i.nibble) ∨
    (d.stackDepth ≠ m.dialect.stackDepth ∧ i.opcode = .call ∧
      (m.dialect.stackDepth ≤ m.state.depth ∨ d.stackDepth ≤ m.state.depth)) ∨
    (d.shiftUsesVy ≠ m.dialect.shiftUsesVy ∧ i.Shifts ∧ i.x ≠ i.y) ∨
    (d.loadStoreIncrementsI ≠ m.dialect.loadStoreIncrementsI ∧ i.Transfers) ∨
    (d.jumpUsesVx ≠ m.dialect.jumpUsesVx ∧ i.opcode = .jumpOffset ∧ i.x ≠ Word.v0) ∨
    (d.logicResetsVf ≠ m.dialect.logicResetsVf ∧ i.Logical) ∨
    (d.sysIsFatal ≠ m.dialect.sysIsFatal ∧ i.opcode = .sys)

instance (i : Instruction) (m : Machine) (d : Dialect) : Decidable (i.Affected m d) :=
  inferInstanceAs (Decidable (_ ∨ _ ∨ _ ∨ _ ∨ _ ∨ _ ∨ _))

namespace Machine

/-- The machine in another dialect. -/
def speaking (m : Machine) (d : Dialect) : Machine := { m with dialect := d }

/-- The instruction that a step is about to execute. -/
def next? (m : Machine) : Option Instruction :=
  if m.refusal? = none ∧ m.canFetch = true then do
    let high ← m.bus.byte? m.state.pc
    let low ← m.bus.byte? (m.state.pc + 1)
    Instruction.ofWord? (.ofBytes high low)
  else none

/-- The next step executes an instruction of which the dialect `d` makes something else. -/
def Affected (m : Machine) (d : Dialect) : Prop := ∃ i ∈ m.next?, i.Affected m d

instance (m : Machine) (d : Dialect) : Decidable (m.Affected d) :=
  inferInstanceAs (Decidable (∃ i ∈ _, _))

variable {α : Type} {m : Machine} {d : Dialect} {i : Instruction}

theorem Fetches.next?_eq {high low : UInt8} (h : m.Fetches high low) :
    m.next? = Instruction.ofWord? (.ofBytes high low) := by
  unfold next?
  rw [if_pos ⟨h.ready, h.inside⟩, h.high_eq, h.low_eq]
  rfl

/-! ### Instructions -/

/-- Machines of the dialects `d` and `d'` that differ in nothing else. -/
def Translated (d d' : Dialect) (m t : Machine) : Prop := m.dialect = d ∧ t = m.speaking d'

theorem coupling_translated (d d' : Dialect) : Coupling (Translated d d') where
  state_eq := by
    rintro m _ ⟨-, rfl⟩
    rfl
  put := by
    rintro m _ ⟨hd, rfl⟩ s
    exact ⟨hd, rfl⟩
  read := by
    rintro m _ ⟨hd, rfl⟩ a
    exact agrees_read_of_bus_eq (R := Translated d d') (t := m.speaking d') ⟨hd, rfl⟩ rfl
      (fun _ => ⟨hd, rfl⟩) a
  write := by
    rintro m _ ⟨hd, rfl⟩ a v
    exact agrees_write_of_bus_eq (R := Translated d d') (t := m.speaking d') ⟨hd, rfl⟩ rfl
      (fun _ => ⟨hd, rfl⟩) a v
  clear := by
    rintro m _ ⟨hd, rfl⟩
    exact ⟨hd, rfl⟩
  counted := by
    rintro m _ ⟨hd, rfl⟩
    exact ⟨hd, rfl⟩
  size_eq := by
    rintro m _ ⟨-, rfl⟩
    rfl
  accesses_eq := by
    rintro m _ ⟨-, rfl⟩
    rfl
  keypad_eq := by
    rintro m _ ⟨-, rfl⟩
    rfl
  loaded_eq := by
    rintro m _ ⟨-, rfl⟩
    rfl

theorem suitsAt_translated (h : ¬ i.Affected m d) :
    SuitsAt (Translated m.dialect d) i m (m.speaking d) := by
  simp only [Instruction.Affected, not_or] at h
  obtain ⟨hwrap, hdepth, hshift, hblock, hjump, hlogic, hsys⟩ := h
  constructor
  case fatal =>
    intro hi
    exact not_not.1 fun hne => hsys ⟨hne, hi⟩
  case calls =>
    intro hi
    by_cases hne : d.stackDepth = m.dialect.stackDepth
    · exact .inl hne
    · exact .inr (not_or.1 fun hle => hdepth ⟨hne, hi, hle⟩)
  case flags =>
    intro hi
    exact not_not.1 fun hne => hlogic ⟨hne, hi⟩
  case shifts =>
    intro hi
    unfold State.shiftSource
    by_cases hne : d.shiftUsesVy = m.dialect.shiftUsesVy
    · rw [← hne]
      rfl
    · have hxy : i.x = i.y := not_not.1 fun hxy => hshift ⟨hne, hi, hxy⟩
      rw [hxy, ite_self, ite_self]
  case jumps =>
    intro hi
    by_cases hne : d.jumpUsesVx = m.dialect.jumpUsesVx
    · rw [← hne]
      rfl
    · have hx : i.x = Word.v0 := not_not.1 fun hx => hjump ⟨hne, hi, hx⟩
      rw [hx, ite_self, ite_self]
  case ends =>
    rintro hi u _ ⟨hu, rfl⟩
    have hd : d.loadStoreIncrementsI = m.dialect.loadStoreIncrementsI :=
      not_not.1 fun hne => hblock ⟨hne, hi⟩
    exact (coupling_translated _ d).endBlock ⟨hu, rfl⟩ i.x (by rw [hu]; exact hd)
  case draws =>
    rintro hi u _ rows ⟨hu, rfl⟩ hs hr
    have hdraw : u.screen.draw (m.state.reg i.x) (m.state.reg i.y) rows d.spriteWrap =
        u.screen.draw (m.state.reg i.x) (m.state.reg i.y) rows m.dialect.spriteWrap := by
      by_cases hne : d.spriteWrap = m.dialect.spriteWrap
      · rw [hne]
      · refine Screen.draw_of_not_overhangs (fun hover => hwrap ⟨hne, hi, ?_⟩) _ _
        rwa [hs, hr] at hover
    exact agrees_drawSprite ⟨hu, rfl⟩ hdraw fun _ => ⟨hu, rfl⟩
  case rolls =>
    intro hi
    exact ⟨⟨rfl, rfl⟩, rfl, rfl⟩
  case times =>
    intro hi
    exact ⟨rfl, fun s => ⟨rfl, rfl⟩⟩

/-! ### Steps -/

theorem suitsNextAt_translated (h : ¬ m.Affected d) :
    SuitsNextAt (Translated m.dialect d) m := by
  rintro high low i _ hf hi ⟨-, rfl⟩
  -- between the fetch and the execution nothing happens that `Affected` looks at
  have hpassed : ¬ i.Affected (m.passed high low) d := fun ha => h ⟨i, hf.next?_eq.trans hi, ha⟩
  exact suitsAt_translated hpassed

theorem step_speaking (h : ¬ m.Affected d) :
    step.run (m.speaking d) =
      ⟨(step.run m).state.speaking d, (step.run m).result, (step.run m).notices⟩ := by
  have hs : SameStep (Translated m.dialect d) (step.run m) (step.run (m.speaking d)) :=
    (coupling_translated _ d).sameStep ⟨rfl, rfl⟩ (suitsNextAt_translated h)
  have hstate := hs.state.2
  have hresult := hs.result_eq (by rw [hstate]; rfl) (by rw [hstate]; rfl)
  have hnotices := hs.notices
  rcases ho : step.run (m.speaking d) with ⟨t, r, l⟩
  rw [ho] at hstate hresult hnotices
  rw [← hstate, ← hresult, ← hnotices]

/-! ### Runs -/

theorem agrees_onBus (hm : m.dialect = d) (d' : Dialect) (a : Action Bus α) :
    Agrees (Translated d d') (onBus a) (onBus a) m (m.speaking d') :=
  agrees_onBus_of_bus_eq (R := Translated d d') (t := m.speaking d') (fun _ => ⟨hm, rfl⟩) rfl a

theorem agrees_loadRom (m : Machine) (d : Dialect) (data : List UInt8) :
    Agrees (Translated m.dialect d) (loadRom data) (loadRom data) m (m.speaking d) := by
  unfold loadRom
  refine (agrees_onBus rfl d _).bind fun size u _ _ huv => ?_
  obtain ⟨hu, rfl⟩ := huv
  have hloaded : Agrees (Translated m.dialect d) (.modify fun u => { u with loaded := true })
      (.modify fun u => { u with loaded := true }) u (u.speaking d) := agrees_modify ⟨hu, rfl⟩
  exact hloaded.bind fun _ _ _ _ huv => agrees_pure huv size

theorem agrees_powerCycle (m : Machine) (d : Dialect) :
    Agrees (Translated m.dialect d) powerCycle powerCycle m (m.speaking d) := by
  unfold powerCycle loadFont reset
  refine Agrees.bind (agrees_modify ⟨rfl, rfl⟩) fun _ u _ _ huv => ?_
  obtain ⟨hu, rfl⟩ := huv
  refine Agrees.bind (agrees_onBus hu d _) fun _ v _ _ huv => ?_
  obtain ⟨hv, rfl⟩ := huv
  refine Agrees.bind (agrees_modify ⟨hv, rfl⟩) fun _ w _ _ huv => ?_
  obtain ⟨hw, rfl⟩ := huv
  exact agrees_modify ⟨hw, rfl⟩

theorem agrees_keys (m : Machine) (d : Dialect) (f : Keypad → Except Keypad.Error Keypad) :
    Agrees (Translated m.dialect d) (onKeypad f) (onKeypad f) m (m.speaking d) :=
  agrees_onKeypad (R := Translated m.dialect d) (t := m.speaking d) ⟨rfl, rfl⟩ rfl
    (fun _ => ⟨rfl, rfl⟩) f

theorem deed_speaking (c : Deed) (h : c = .step → ¬ m.Affected d) :
    c.run (m.speaking d) = (c.run m).speaking d ∧ c.answer (m.speaking d) = c.answer m := by
  cases c with
  | loadRom data =>
    have ha := agrees_loadRom m d data
    exact ⟨ha.state.2, congrArg (Except.map fun _ => none) ha.result⟩
  | step =>
    have ho := step_speaking (h rfl)
    exact ⟨congrArg Outcome.state ho, congrArg (fun o => o.result.map some) ho⟩
  | press k =>
    have ha := agrees_keys m d (·.press k)
    exact ⟨ha.state.2, congrArg (Except.map fun _ => none) ha.result⟩
  | release k =>
    have ha := agrees_keys m d (·.release k)
    exact ⟨ha.state.2, congrArg (Except.map fun _ => none) ha.result⟩
  | powerCycle =>
    have ha := agrees_powerCycle m d
    exact ⟨ha.state.2, congrArg (Except.map fun _ => none) ha.result⟩
  | tickTimers | clearKeys | reset => exact ⟨rfl, rfl⟩

/-- As long as no step executes an instruction of which the other dialect makes something else, a
machine answers its host in both dialects the same and comes to the same state. -/
theorem dialects_differ_only_where_affected (cs : List Deed)
    (h : ∀ k, cs[k]? = some .step → ¬ (m.runAll (cs.take k)).Affected d) :
    (m.speaking d).answers cs = m.answers cs ∧
      (m.speaking d).runAll cs = (m.runAll cs).speaking d := by
  induction cs generalizing m with
  | nil => exact ⟨rfl, rfl⟩
  | cons c cs ih =>
    have hfirst : c = .step → ¬ m.Affected d := fun hc => h 0 (congrArg some hc)
    obtain ⟨hrun, hanswer⟩ := deed_speaking c hfirst
    obtain ⟨hanswers, hrest⟩ := ih (m := c.run m) fun k hk => h (k + 1) hk
    unfold answers
    rw [hanswer, hrun, hanswers]
    refine ⟨rfl, ?_⟩
    show (c.run (m.speaking d)).runAll cs = _
    rw [hrun]
    exact hrest

/-- A dialect with every choice made the other way. -/
def contrary : Dialect where
  spriteWrap := true
  stackDepth := 1
  shiftUsesVy := true
  loadStoreIncrementsI := true
  jumpUsesVx := true
  logicResetsVf := true
  sysIsFatal := false

/-- A call, a sprite, a shift and a jump with an offset, with keys and timers between them. -/
def neutral : List Deed :=
  [.loadRom [0x22, 0x06, 0x00, 0x00, 0x00, 0x00, 0xD0, 0x15, 0x81, 0x16, 0xB0, 0x00], .step,
    .press 3, .step, .tickTimers, .step, .release 3, .step]

theorem dialects_differ_only_where_affected_neutral :
    let m := booted {} {}
    (∀ k, neutral[k]? = some .step → ¬ (m.runAll (neutral.take k)).Affected contrary) ∧
      (m.speaking contrary).answers neutral = m.answers neutral ∧
      (m.speaking contrary).runAll neutral = (m.runAll neutral).speaking contrary ∧
      (m.runAll neutral).state.pc = 0 := by
  intro m
  obtain ⟨hnone, hpc⟩ :
      (∀ k < neutral.length, ¬ (m.runAll (neutral.take k)).Affected contrary) ∧
        (m.runAll neutral).state.pc = 0 := by
    decide +kernel
  have h : ∀ k, neutral[k]? = some .step → ¬ (m.runAll (neutral.take k)).Affected contrary := by
    intro k hk
    exact hnone k (List.getElem?_eq_some_iff.1 hk).1
  obtain ⟨hanswers, hrun⟩ := dialects_differ_only_where_affected neutral h
  exact ⟨h, hanswers, hrun, hpc⟩

end Machine

end Chip8
