import Chip8.Proofs.Machine.Failure
import Chip8.Proofs.Machine.Frame
import Chip8.Proofs.Machine.Word
import Mathlib.Order.Bounds.Basic
import Mathlib.Order.Fin.Basic
import Mathlib.Tactic.IntervalCases

/-!
# Waiting for a key

A word `FX0A` waits for a key by coming back to itself. While all keys are up, steps and ticks come and
go and nothing is lost (`Waited`); the first step that finds a key down takes it (`Woken`). A machine
that was switched on, loaded and worked by its host waits at such a word and nowhere else
(`Vigilant`).
-/

namespace Chip8

def Word.IsWait (w : Word) : Prop := w.family = 0xF ∧ w.byte = 0x0A

theorem Word.isWait_of_ofWord? {w : Word} (h : Instruction.ofWord? w = some ⟨.waitKey, w⟩) :
    w.IsWait := by
  have hfamily : w.family < 16 := by
    have := w.toNat_lt
    unfold Word.family
    omega
  simp only [Instruction.ofWord?, Option.map_eq_some_iff, Instruction.mk.injEq, and_true,
    exists_eq_right] at h
  unfold Opcode.ofWord? at h
  unfold IsWait
  generalize w.family = f at *
  interval_cases f
  case «15» =>
    simp only [Opcode.ofMisc?] at h
    split at h <;> simp_all
  all_goals
    simp only [Opcode.ofArithmetic?, Opcode.ofKeys?] at h
    repeat' split at h
    all_goals cases h

/-! ### Keys -/

namespace Keypad

variable {p : Keypad} {k : Fin 16}

def Idle (p : Keypad) : Prop := ∀ k, p.isDown k = false

theorem first?_eq_none_iff : p.first? = none ↔ p.Idle := by
  simp [first?, Idle]

theorem isLeast_of_first? (h : p.first? = some k) : IsLeast {j | p.isDown j = true} k := by
  unfold first? at h
  obtain ⟨hk, i, hi, rfl, hbefore⟩ := List.find?_eq_some_iff_getElem.1 h
  refine ⟨hk, fun j hj => ?_⟩
  by_contra hlt
  have hji : (j : Nat) < i := by simpa [Fin.lt_def] using hlt
  have := hbefore j hji
  simp_all

theorem isDown_put (p : Keypad) (k j : Fin 16) (b : Bool) :
    (p.put k b).isDown j = if k = j then b else p.isDown j := by
  simp [put, isDown, Vector.getElem_set, Fin.ext_iff]

end Keypad

namespace Machine

variable {m t u : Machine} {w : Word} {c : Deed} {cs ds : List Deed}

namespace Deed

def isStep : Deed → Bool
  | step => true
  | _ => false

def isTick : Deed → Bool
  | tickTimers => true
  | _ => false

/-- The host steps, ticks the timers or works the keys. -/
def Bides : Deed → Prop
  | step | tickTimers | press _ | release _ | clearKeys => True
  | loadRom _ | reset | powerCycle => False

/-- The keys that are down after a deed, given those before it. A number of no key moves none. -/
def keysAfter (down : Fin 16 → Bool) : Deed → Fin 16 → Bool
  | press k => fun j => if k = (j : Nat) then true else down j
  | release k => fun j => if k = (j : Nat) then false else down j
  | clearKeys => fun _ => false
  | _ => down

end Deed

theorem run_put_of_valid (j : Fin 16) (b : Bool) (m : Machine) :
    (onKeypad fun p => (Keypad.key? (j : Nat)).map (p.put · b)).run m =
      ⟨{ m with keypad := m.keypad.put j b }, .ok (), []⟩ := by
  have hj : 0 ≤ ((j : Nat) : Int) ∧ ((j : Nat) : Int) < 16 := by omega
  simp [onKeypad, Keypad.key?, hj, Except.map]

theorem run_put_of_invalid {k : Int} (hk : ¬ (0 ≤ k ∧ k < 16)) (b : Bool) (m : Machine) :
    (onKeypad fun p => (Keypad.key? k).map (p.put · b)).run m =
      ⟨m, .error (.keypad ⟨k⟩), []⟩ := by
  simp [onKeypad, Keypad.key?, hk, Except.map]

theorem exists_run_put (k : Int) (b : Bool) (m : Machine) :
    ∃ p, ((onKeypad fun p => (Keypad.key? k).map (p.put · b)).run m).state = { m with keypad := p } ∧
      ∀ j : Fin 16, p.isDown j = if k = (j : Nat) then b else m.keypad.isDown j := by
  by_cases hk : 0 ≤ k ∧ k < 16
  · obtain ⟨i, rfl⟩ : ∃ i : Fin 16, k = (i : Nat) := ⟨⟨k.toNat, by omega⟩, by simp [hk.1]⟩
    refine ⟨_, congrArg Outcome.state (run_put_of_valid i b m), fun j => ?_⟩
    rw [Keypad.isDown_put]
    simp [Fin.ext_iff]
  · refine ⟨m.keypad, congrArg Outcome.state (run_put_of_invalid hk b m), fun j => ?_⟩
    rw [if_neg (by omega)]

/-! ### Waiting -/

/-- `t` has come of `m` by deeds that left all as it was but for the timers, the keys, the mark of a
machine that waits, and the count of the steps. -/
structure Waited (m : Machine) (cs : List Deed) (t : Machine) : Prop where
  same : ∀ p : Part, p ≠ .delay → p ≠ .sound → p ≠ .waiting → p ≠ .keypad → p.Same m t
  delay : t.state.delay = max 0 (m.state.delay - cs.countP Deed.isTick)
  sound : t.state.sound = max 0 (m.state.sound - cs.countP Deed.isTick)
  waiting : t.state.waitingForKey = (m.state.waitingForKey || cs.any Deed.isStep)
  keys : t.keypad.isDown = cs.foldl Deed.keysAfter m.keypad.isDown
  cycles : t.cycles = m.cycles + cs.countP Deed.isStep

/-- `u` has come of `t` by a step that took a key into the register of `w`. -/
structure Woken (t : Machine) (w : Word) (key : Fin 16) (u : Machine) : Prop where
  key : u.state.reg w.x = key
  waiting : u.state.waitingForKey = false
  pc : u.state.pc = t.state.pc + 2
  same : ∀ p : Part, p ≠ .register w.x → p ≠ .waiting → p ≠ .pc → p.Same t u

namespace Waited

theorem nil (hd : 0 ≤ m.state.delay) (hs : 0 ≤ m.state.sound) : m.Waited [] m where
  same p _ _ _ _ := .refl p m
  delay := by simp [hd]
  sound := by simp [hs]
  waiting := by simp
  keys := rfl
  cycles := rfl

theorem append (h : m.Waited cs t) (h' : t.Waited ds u) : m.Waited (cs ++ ds) u where
  same p hd hs hw hk := (h.same p hd hs hw hk).trans (h'.same p hd hs hw hk)
  delay := by
    rw [h'.delay, h.delay, List.countP_append]
    omega
  sound := by
    rw [h'.sound, h.sound, List.countP_append]
    omega
  waiting := by rw [h'.waiting, h.waiting, List.any_append, Bool.or_assoc]
  keys := by rw [h'.keys, h.keys, List.foldl_append]
  cycles := by
    rw [h'.cycles, h.cycles, List.countP_append]
    omega

end Waited

theorem run_waitKey_of_idle (hk : m.keypad.Idle) (x : Fin 16) :
    (waitKey x).run m =
      ⟨{ m with state := { m.state with waitingForKey := true, pc := m.state.lastPc } }, .ok (),
        []⟩ := by
  unfold waitKey
  rw [Action.run_bind_of_ok (Action.run_gets ..), Keypad.first?_eq_none_iff.2 hk]
  rfl

theorem run_waitKey_of_first {key : Fin 16} (hk : m.keypad.first? = some key) (x : Fin 16) :
    (waitKey x).run m =
      ⟨{ m with state := State.setReg { m.state with waitingForKey := false } x key }, .ok (),
        []⟩ := by
  unfold waitKey
  rw [Action.run_bind_of_ok (Action.run_gets ..), hk]
  rfl

/-- A word that waits stands at the program counter. -/
structure Waits (m : Machine) (w : Word) : Prop where
  standard : m.bus.Standard
  faces : m.Faces w
  isWait : w.IsWait
  delay : 0 ≤ m.state.delay
  sound : 0 ≤ m.state.sound

namespace Waits

theorem of_wellFormed (h : m.WellFormed) (hf : m.Faces w) (hw : w.IsWait) : m.Waits w :=
  ⟨h.standard, hf, hw, h.ranged.delay.1, h.ranged.sound.1⟩

theorem of_waited (h : m.Waits w) (ht : m.Waited cs t) (hb : t.bus.Standard) : t.Waits w := by
  obtain ⟨high, low, hf, hbytes⟩ := h.faces
  have hpc : t.state.pc = m.state.pc := ht.same .pc nofun nofun nofun nofun
  have hbyte : ∀ a, t.bus.byte? a = m.bus.byte? a := ht.same .memory nofun nofun nofun nofun
  have hloaded : t.loaded = m.loaded := ht.same .loaded nofun nofun nofun nofun
  have hhalted : t.state.halted = m.state.halted := ht.same .halted nofun nofun nofun nofun
  have hfetches : t.Fetches high low := by
    refine ⟨?_, ?_, ?_, ?_⟩
    · rw [refusal?_congr hloaded hhalted, hf.ready]
    · rw [canFetch_iff hb, hpc]
      exact (canFetch_iff h.standard).1 hf.inside
    · rw [hbyte, hpc, hf.high_eq]
    · rw [hbyte, hpc, hf.low_eq]
  refine ⟨hb, ⟨high, low, hfetches, hbytes⟩, h.isWait, ?_, ?_⟩
  · rw [ht.delay]
    omega
  · rw [ht.sound]
    omega

theorem exists_step {high low : UInt8} (hw : w.IsWait) (hf : m.Fetches high low)
    (hbytes : .ofBytes high low = w)
    (hx : (waitKey w.x).run (m.passed high low) = ⟨t, .ok (), []⟩) :
    ∃ s l, step.run m = ⟨t.counted, .ok s, l⟩ ∧ s.instruction = ⟨.waitKey, w⟩ := by
  subst hbytes
  have hi := Instruction.ofWord?_misc (o := .waitKey) hw.1 (by rw [hw.2]; rfl)
  exact ⟨_, _, run_step_of_execute hf hi hx, rfl⟩

/-- With all keys up the program counter is taken back to the word. -/
theorem step_idle (h : m.Waits w) (hk : m.keypad.Idle) :
    ∃ t s l, step.run m = ⟨t, .ok s, l⟩ ∧ s.instruction = ⟨.waitKey, w⟩ ∧ t.bus.Standard ∧
      m.Waited [.step] t := by
  obtain ⟨high, low, hf, hbytes⟩ := h.faces
  obtain ⟨s, l, hstep, hs⟩ := exists_step h.isWait hf hbytes
    (run_waitKey_of_idle (m := m.passed high low) hk w.x)
  refine ⟨_, s, l, hstep, hs, h.standard, ?_, ?_, ?_, ?_, rfl, rfl⟩
  · intro p _ _ hp _
    cases p with
    | pc => exact lastPc_passed h.standard hf
    | waiting => exact absurd rfl hp
    | memory => exact fun _ => rfl
    | _ => rfl
  · exact (Waited.nil h.delay h.sound).delay
  · exact (Waited.nil h.delay h.sound).sound
  · exact (Bool.or_true _).symm

theorem step_woken (h : m.Waits w) {key : Fin 16} (hk : m.keypad.first? = some key) :
    ∃ t s l, step.run m = ⟨t, .ok s, l⟩ ∧ s.instruction = ⟨.waitKey, w⟩ ∧ m.Woken w key t := by
  obtain ⟨high, low, hf, hbytes⟩ := h.faces
  obtain ⟨s, l, hstep, hs⟩ := exists_step h.isWait hf hbytes
    (run_waitKey_of_first (m := m.passed high low) hk w.x)
  refine ⟨_, s, l, hstep, hs, ?_, rfl, passed_pc h.standard hf, ?_⟩
  · exact (State.reg_setReg ..).trans (if_pos rfl)
  · intro p hx hw hpc
    cases p with
    | register y =>
      refine (State.reg_setReg ..).trans (if_neg ?_)
      rintro rfl
      exact hx rfl
    | pc => exact absurd rfl hpc
    | waiting => exact absurd rfl hw
    | memory => exact fun _ => rfl
    | _ => rfl

theorem tick (h : m.Waits w) : m.Waited [.tickTimers] (Deed.tickTimers.run m) where
  same p hd hs _ _ := by
    cases p with
    | delay => exact absurd rfl hd
    | sound => exact absurd rfl hs
    | memory => exact fun _ => rfl
    | _ => rfl
  delay := by
    have := h.delay
    show (if 0 < m.state.delay then m.state.delay - 1 else m.state.delay) =
      max 0 (m.state.delay - (1 : Nat))
    omega
  sound := by
    have := h.sound
    show (if 0 < m.state.sound then m.state.sound - 1 else m.state.sound) =
      max 0 (m.state.sound - (1 : Nat))
    omega
  waiting := (Bool.or_false _).symm
  keys := rfl
  cycles := rfl

theorem keys (h : m.Waits w) {p : Keypad} (hp : p.isDown = c.keysAfter m.keypad.isDown)
    (hstep : c.isStep = false) (htick : c.isTick = false) :
    m.Waited [c] { m with keypad := p } where
  same q _ _ _ hq := by
    cases q with
    | keypad => exact absurd rfl hq
    | memory => exact fun _ => rfl
    | _ => rfl
  delay := by simpa [htick] using (Waited.nil h.delay h.sound).delay
  sound := by simpa [htick] using (Waited.nil h.delay h.sound).sound
  waiting := by simp [hstep]
  keys := hp
  cycles := by simp [hstep]

theorem deed (h : m.Waits w) (hc : c.Bides) (hk : c = .step → m.keypad.Idle) :
    m.Waited [c] (c.run m) ∧ (c.run m).Waits w := by
  suffices hw : m.Waited [c] (c.run m) ∧ (c.run m).bus.Standard from
    ⟨hw.1, h.of_waited hw.1 hw.2⟩
  cases c with
  | step =>
    obtain ⟨t, s, l, hstep, -, hb, hw⟩ := h.step_idle (hk rfl)
    rw [show Deed.step.run m = t from congrArg Outcome.state hstep]
    exact ⟨hw, hb⟩
  | tickTimers => exact ⟨h.tick, h.standard⟩
  | press k =>
    obtain ⟨p, hp, hdown⟩ := exists_run_put k true m
    rw [show (Deed.press k).run m = _ from hp]
    exact ⟨h.keys (funext hdown) rfl rfl, h.standard⟩
  | release k =>
    obtain ⟨p, hp, hdown⟩ := exists_run_put k false m
    rw [show (Deed.release k).run m = _ from hp]
    exact ⟨h.keys (funext hdown) rfl rfl, h.standard⟩
  | clearKeys =>
    have hup : ({} : Keypad).isDown = fun _ => false := funext (by decide)
    exact ⟨h.keys hup rfl rfl, h.standard⟩
  | loadRom | reset | powerCycle => exact hc.elim

/-- As long as every step finds all keys up, nothing is lost. -/
theorem runAll (h : m.Waits w) (hcs : ∀ c ∈ cs, c.Bides)
    (hk : ∀ k, cs[k]? = some .step → (m.runAll (cs.take k)).keypad.Idle) :
    m.Waited cs (m.runAll cs) ∧ (m.runAll cs).Waits w := by
  induction cs generalizing m with
  | nil => exact ⟨.nil h.delay h.sound, h⟩
  | cons c cs ih =>
    obtain ⟨hc, hcs⟩ := List.forall_mem_cons.1 hcs
    obtain ⟨hfirst, hw⟩ := h.deed hc fun hstep => hk 0 (congrArg some hstep)
    obtain ⟨hrest, hend⟩ := ih hw hcs fun k hstep => hk (k + 1) hstep
    exact ⟨hfirst.append hrest, hend⟩

end Waits

/-! ### Where machines wait -/

/-- A machine that is marked as waiting has come back to a word that waits. -/
def Vigilant (m : Machine) : Prop :=
  m.state.waitingForKey = true → ∃ w, m.Faces w ∧ w.IsWait

/-- No other word marks a machine, and no failure does. -/
theorem faces_of_step (hm : m.WellFormed) (hn : m.state.waitingForKey = false)
    (h : (step.run m).state.state.waitingForKey = true) : ∃ w, m.Faces w ∧ w.IsWait := by
  have hs := stepped hm.standard
  generalize step.run m = o at h hs
  cases hs with
  | refused | outside | unknown => exact absurd (hn.symm.trans h) nofun
  | faulted hf hi hx =>
    obtain ⟨hp, hpc⟩ := hm.passed hf
    obtain ⟨-, -, rfl, -⟩ := balks_of_run_execute hp hpc hx
    exact absurd (hn.symm.trans h) nofun
  | broke hf hi hx he =>
    obtain ⟨hp, hpc⟩ := hm.passed hf
    obtain ⟨f, -, -, rfl, -⟩ := balks_of_run_execute hp hpc hx
    exact absurd rfl (he f)
  | @executed high low i t l hf hi hx =>
    by_cases ho : i.opcode = .waitKey
    · obtain ⟨o, w⟩ := i
      obtain rfl : o = .waitKey := ho
      obtain rfl := Instruction.word_ofWord? hi
      exact ⟨_, ⟨high, low, hf, rfl⟩, Word.isWait_of_ofWord? hi⟩
    · have hsame : t.state.waitingForKey = m.state.waitingForKey :=
        (causes_execute _ i hx).changes .waiting ho
      exact absurd (hn.symm.trans (hsame.symm.trans h)) nofun

theorem Vigilant.step (hm : m.WellFormed) (hv : m.Vigilant) : (step.run m).state.Vigilant := by
  intro h
  obtain ⟨w, hf, hw⟩ : ∃ w, m.Faces w ∧ w.IsWait := by
    cases hn : m.state.waitingForKey with
    | true => exact hv hn
    | false => exact faces_of_step hm hn h
  have hwaits := Waits.of_wellFormed hm hf hw
  cases hk : m.keypad.first? with
  | none =>
    have hend := hwaits.deed (c := .step) trivial fun _ => Keypad.first?_eq_none_iff.1 hk
    exact ⟨w, hend.2.faces, hw⟩
  | some key =>
    obtain ⟨t, s, l, hstep, -, hwoken⟩ := hwaits.step_woken hk
    rw [hstep] at h
    exact absurd (hwoken.waiting.symm.trans h) nofun

theorem Vigilant.deed (hm : m.WellFormed) (hv : m.Vigilant) (hc : ∀ data, c ≠ .loadRom data) :
    (c.run m).Vigilant := by
  have hd := done hm.standard c
  generalize c.run m = t at hd
  cases hd with
  | refused | loaded => exact absurd rfl (hc _)
  | step => exact hv.step hm
  | tickTimers | press | release | clearKeys =>
    intro h
    obtain ⟨w, ⟨high, low, hf, hbytes⟩, hw⟩ := hv h
    exact ⟨w, ⟨high, low, ⟨hf.ready, hf.inside, hf.high_eq, hf.low_eq⟩, hbytes⟩, hw⟩
  | reset | powerCycle => exact nofun

theorem Reached.runAll {d : Dialect} {e : Entropy} (h : Reached d e m) (cs : List Deed) :
    Reached d e (m.runAll cs) :=
  runAll_keeps (Q := fun _ => True) (fun _ c h _ => .act h c) h fun _ _ => trivial

theorem Vigilant.runAll {d : Dialect} {e : Entropy} (hr : Reached d e m) (hv : m.Vigilant)
    (hcs : ∀ c ∈ cs, ∀ data, c ≠ .loadRom data) : (m.runAll cs).Vigilant :=
  (runAll_keeps (P := fun m => Reached d e m ∧ m.Vigilant)
    (fun _ c h hc => ⟨.act h.1 c, h.2.deed h.1.fit.wellFormed hc⟩) ⟨hr, hv⟩ hcs).2

/-- A machine that has no program, and does not wait. -/
structure Unloaded (m : Machine) : Prop where
  standard : m.bus.Standard
  loaded : m.loaded = false
  waiting : m.state.waitingForKey = false

namespace Unloaded

theorem deed (h : m.Unloaded) (hc : ∀ data, c ≠ .loadRom data) : (c.run m).Unloaded := by
  have hd := done h.standard c
  generalize c.run m = t at hd
  cases hd with
  | refused | loaded => exact absurd rfl (hc _)
  | step =>
    rw [run_step_refused (refusal?_eq_some_iff.2 (.inl ⟨rfl, h.loaded⟩))]
    exact ⟨h.standard, h.loaded, h.waiting⟩
  | tickTimers | press | release | clearKeys => exact ⟨h.standard, h.loaded, h.waiting⟩
  | reset => exact ⟨h.standard, h.loaded, rfl⟩
  | powerCycle =>
    obtain ⟨-, hs, -⟩ := Bus.loadInto_of_standard (h.standard.congr (Bus.layout_powerOff m.bus))
    exact ⟨hs, rfl, rfl⟩

theorem runAll (h : m.Unloaded) (hcs : ∀ c ∈ cs, ∀ data, c ≠ .loadRom data) :
    (m.runAll cs).Unloaded :=
  runAll_keeps (fun _ _ h hc => h.deed hc) h hcs

/-- Registers outlast a load, and those of a machine that had no program do not wait. -/
theorem vigilant_loadRom (h : m.Unloaded) (data : List UInt8) :
    ((Deed.loadRom data).run m).Vigilant := by
  have hd := done h.standard (.loadRom data)
  generalize (Deed.loadRom data).run m = t at hd
  intro hw
  cases hd with
  | refused | loaded => exact absurd (h.waiting.symm.trans hw) nofun

end Unloaded

/-- A machine with a word that waits at its program counter keeps all it has, through steps that find
no key down, ticks, and any working of the keys. The next step takes the least key that is down, if
there is one. A key of a wrong number is refused. A machine that is loaded once is marked as waiting
only where such a word stands. -/
theorem wait_loses_nothing :
    (∀ (m : Machine) (w : Word) (cs : List Deed), m.WellFormed → m.Faces w → w.IsWait →
      (∀ c ∈ cs, c.Bides) →
      (∀ k, cs[k]? = some .step → (m.runAll (cs.take k)).keypad.Idle) →
        let t := m.runAll cs
        m.Waited cs t ∧ ∃ u s l, step.run t = ⟨u, .ok s, l⟩ ∧ s.instruction = ⟨.waitKey, w⟩ ∧
          (t.keypad.Idle ∨
            ∃ key, IsLeast {j | t.keypad.isDown j = true} key ∧ t.Woken w key u)) ∧
      (∀ (m : Machine) (k : Int), ¬ (0 ≤ k ∧ k < 16) →
        (press k).run m = ⟨m, .error (.keypad ⟨k⟩), []⟩ ∧
          (release k).run m = ⟨m, .error (.keypad ⟨k⟩), []⟩) ∧
      ∀ (d : Dialect) (e : Entropy) (m : Machine) (ds : List Deed) (data : List UInt8)
        (cs : List Deed), boot standardBus {} d e = .ok m →
          (∀ c ∈ ds ++ cs, ∀ data, c ≠ .loadRom data) →
            let t := m.runAll (ds ++ .loadRom data :: cs)
            t.state.waitingForKey = true → ∃ w, t.Faces w ∧ w.IsWait := by
  refine ⟨?_, ?_, ?_⟩
  · intro m w cs hm hf hw hcs hk
    obtain ⟨hwaited, hend⟩ := (Waits.of_wellFormed hm hf hw).runAll hcs hk
    refine ⟨hwaited, ?_⟩
    cases hfirst : (m.runAll cs).keypad.first? with
    | none =>
      have hidle := Keypad.first?_eq_none_iff.1 hfirst
      obtain ⟨u, s, l, hstep, hs, -⟩ := hend.step_idle hidle
      exact ⟨u, s, l, hstep, hs, .inl hidle⟩
    | some key =>
      obtain ⟨u, s, l, hstep, hs, hwoken⟩ := hend.step_woken hfirst
      exact ⟨u, s, l, hstep, hs, .inr ⟨key, Keypad.isLeast_of_first? hfirst, hwoken⟩⟩
  · intro m k hk
    exact ⟨run_put_of_invalid hk true m, run_put_of_invalid hk false m⟩
  · intro d e m ds data cs hboot hcs
    obtain ⟨hds, hcs⟩ := List.forall_mem_append.1 hcs
    have hr : Reached d e (m.runAll ds) := (Reached.boot hboot).runAll ds
    obtain rfl : booted d e = m := Except.ok.inj ((boot_standard d e).symm.trans hboot)
    have hunloaded : (booted d e).Unloaded := ⟨(Fit.boot hboot).wellFormed.standard, rfl, rfl⟩
    have hv := Vigilant.runAll (.act hr (.loadRom data))
      ((hunloaded.runAll hds).vigilant_loadRom data) hcs
    rw [show (booted d e).runAll (ds ++ .loadRom data :: cs) = _ from List.foldl_append ..]
    exact hv

/-- A machine with a program that waits for a key. -/
def expecting : Machine := (Deed.loadRom [0xF3, 0x0A]).run (booted {} {})

/-- A step without a key, and then two keys and one that is none. -/
theorem wait_loses_nothing_until_pressed :
    let cs : List Deed := [.step, .tickTimers, .press 9, .press 20, .press 4]
    let t := expecting.runAll cs
    expecting.WellFormed ∧ expecting.Faces 0xF30A ∧ Word.IsWait 0xF30A ∧ t.state.pc = 0x200 ∧
      t.cycles = 1 ∧ t.state.waitingForKey = true ∧ (∃ w, t.Faces w ∧ w.IsWait) ∧
      (press 20).run t = ⟨t, .error (.keypad ⟨20⟩), []⟩ ∧
      ∃ u s l, step.run t = ⟨u, .ok s, l⟩ ∧ u.state.reg 3 = 4 ∧ u.state.pc = 0x202 := by
  intro cs
  dsimp only
  have hr : Reached {} {} expecting := .act (.boot (boot_standard {} {})) _
  have hm := hr.fit.wellFormed
  obtain ⟨hready, hinside, hhigh, hlow, hpc, hcycles, hup⟩ :
      expecting.refusal? = none ∧ expecting.canFetch = true ∧
        expecting.bus.byte? expecting.state.pc = some 0xF3 ∧
        expecting.bus.byte? (expecting.state.pc + 1) = some 0x0A ∧ expecting.state.pc = 0x200 ∧
        expecting.cycles = 0 ∧ ∀ k, expecting.keypad.isDown k = false := by decide +kernel
  have hf : expecting.Faces 0xF30A := ⟨0xF3, 0x0A, ⟨hready, hinside, hhigh, hlow⟩, rfl⟩
  have hw : Word.IsWait 0xF30A := ⟨by decide, by decide⟩
  have hcs : ∀ c ∈ cs, c.Bides := by simp [cs, Deed.Bides]
  have hidle : ∀ k, cs[k]? = some .step → (expecting.runAll (cs.take k)).keypad.Idle := by
    have hstart : expecting.runAll (cs.take 0) = expecting := rfl
    rintro (_ | _ | _ | _ | _ | k) hk
    · rw [hstart]
      exact hup
    all_goals cases hk
  obtain ⟨hwaits, hkeys, hwords⟩ := wait_loses_nothing
  obtain ⟨hwaited, u, s, l, hstep, -, hwoken⟩ := hwaits expecting _ cs hm hf hw hcs hidle
  have hdown : (expecting.runAll cs).keypad.isDown = fun j => decide (j = 4 ∨ j = 9) := by
    rw [hwaited.keys, funext hup]
    funext j
    revert j
    decide
  have hwaiting : (expecting.runAll cs).state.waitingForKey = true :=
    hwaited.waiting.trans (Bool.or_true _)
  have hstays : (expecting.runAll cs).state.pc = 0x200 :=
    Eq.trans (hwaited.same .pc nofun nofun nofun nofun) hpc
  rcases hwoken with hnone | ⟨key, hleast, hwoken⟩
  · have := hnone 4
    rw [hdown] at this
    exact absurd this (by decide)
  · have hfour : key = 4 := by
      refine hleast.unique ⟨?_, fun j hj => ?_⟩
      · exact (congrFun hdown 4).trans (by decide)
      · have hj : j = 4 ∨ j = 9 := of_decide_eq_true ((congrFun hdown j).symm.trans hj)
        rcases hj with rfl | rfl <;> decide
    refine ⟨hm, hf, hw, hstays, ?_, hwaiting, ?_, (hkeys _ 20 (by decide)).1, u, s, l, hstep, ?_, ?_⟩
    · rw [hwaited.cycles, hcycles]
      rfl
    · have hall : (booted {} {}).runAll ([] ++ .loadRom [0xF3, 0x0A] :: cs) = expecting.runAll cs := by
        rw [List.nil_append]
        exact List.foldl_cons ..
      have := hwords {} {} _ [] [0xF3, 0x0A] cs (boot_standard {} {}) (by simp [cs])
      rw [hall] at this
      exact this hwaiting
    · rw [show u.state.reg 3 = _ from hwoken.key, hfour]
      rfl
    · rw [hwoken.pc, hstays]
      rfl

end Machine

end Chip8
