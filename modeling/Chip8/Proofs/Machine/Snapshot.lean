import Chip8.Proofs.Machine.Effect
import Chip8.Proofs.Machine.Reached

/-!
# What a snapshot tells

The accesses in the snapshot of a step are those of its instruction and no others, whatever had been
done to the memory before (`Recorded.accesses_eq`). They tell which bytes were found and what the
memory holds now, and how many writes were lost. The count is that of the steps that have succeeded
since the machine was made or reset (`Tallied`).
-/

namespace Chip8

def Notice.isLoss : Notice → Bool
  | .ignoredWrite .. => true
  | _ => false

/-- A write to where the font stands. -/
def Access.isFontWrite : Access → Bool
  | .read .. => false
  | .write a _ _ => 0 ≤ a && a < 0x50

/-- Where programs can write. -/
def inRam (a : Int) : Bool := 0x50 ≤ a && a < 0x1000

namespace Bus.Standard

variable {b : Bus}

theorem inRam_iff (h : b.Standard) (a : Int) : inRam a = true ↔ b.kind? a = some .ram := by
  rw [h.kind?_eq_ram_iff]
  simp [inRam]

theorem isFontWrite_write (h : b.Standard) (a v : Int) (n : UInt8) :
    Access.isFontWrite (.write a v n) = (b.lostWrite? a).isSome := by
  rw [Bool.eq_iff_iff, lostWrite?_isSome_iff, h.kind?_eq_rom_iff]
  simp [Access.isFontWrite]

theorem countP_losses (h : b.Standard) (as : List Access) :
    (b.losses as).countP Notice.isLoss = as.countP Access.isFontWrite := by
  induction as with
  | nil => rfl
  | cons a as ih =>
    rw [show a :: as = [a] ++ as from rfl, losses_append, List.countP_append, List.countP_append, ih]
    congr 1
    cases a with
    | read => rfl
    | write a v n =>
      rw [losses_write, List.countP_singleton, h.isFontWrite_write]
      cases b.lostWrite? a <;> rfl

end Bus.Standard

namespace Machine

variable {m t : Machine} {s : Snapshot State} {l : List Notice} {n : Nat}

/-- A machine that has made `n` steps since it was switched on or reset. Steps may have failed in
between, and its host may have done other things to it, to its memory and to its registers. -/
inductive Tallied : Nat → Machine → Prop
  | boot {m : Machine} {d : Dialect} {e : Entropy} (h : boot standardBus {} d e = .ok m) :
    Tallied 0 m
  | step {n : Nat} {m t : Machine} {s : Snapshot State} {l : List Notice} (h : Tallied n m)
    (hs : step.run m = ⟨t, .ok s, l⟩) : Tallied (n + 1) t
  | failed {n : Nat} {m t : Machine} {x : Error} {l : List Notice} (h : Tallied n m)
    (hs : Machine.step.run m = ⟨t, .error x, l⟩) : Tallied n t
  | deed {n : Nat} {m : Machine} {c : Deed} (h : Tallied n m)
    (hc : c ≠ .step ∧ c ≠ .reset ∧ c ≠ .powerCycle) : Tallied n (c.run m)
  | reset {n : Nat} {m : Machine} {c : Deed} (h : Tallied n m) (hc : c = .reset ∨ c = .powerCycle) :
    Tallied 0 (c.run m)
  | presented {n : Nat} {m : Machine} (h : Tallied n m) : Tallied n (markPresented.run m).state
  | memory {n : Nat} {m : Machine} {b : Bus} (h : Tallied n m) (hb : b.layout = m.bus.layout) :
    Tallied n { m with bus := b }
  | registers {n : Nat} {m : Machine} {s : State} (h : Tallied n m) (hs : s.Ranged m.stackLimit) :
    Tallied n { m with state := s }

theorem Tallied.sound (h : Tallied n m) : m.WellFormed ∧ m.cycles = n := by
  induction h with
  | @boot m d e h =>
    refine ⟨(Fit.boot h).wellFormed, ?_⟩
    obtain rfl : booted d e = m := Except.ok.inj ((boot_standard d e).symm.trans h)
    rfl
  | @step n m t s l _ hs ih =>
    obtain ⟨hm, hn⟩ := ih
    have ht := (Action.wp_of_run_ok hs).1 (step_spec hm)
    exact ⟨ht.wellFormed, by rw [ht.cycles, hn]⟩
  | @failed n m t x l _ hs ih =>
    obtain ⟨hm, hn⟩ := ih
    obtain ⟨-, ht⟩ := (Action.wp_of_run_error hs).1 (step_spec hm)
    exact ⟨ht.wellFormed, by rw [ht.cycles, hn]⟩
  | @deed n m c _ hc ih =>
    obtain ⟨hm, hn⟩ := ih
    have hd := done hm.standard c
    refine ⟨hm.done hd, ?_⟩
    generalize c.run m = t at hd
    cases hd with
    | step | reset | powerCycle => simp at hc
    | _ => exact hn
  | @reset n m c _ hc ih =>
    have hd := done ih.1.standard c
    refine ⟨ih.1.done hd, ?_⟩
    generalize c.run m = t at hd
    cases hd with
    | reset | powerCycle => rfl
    | _ => simp at hc
  | presented _ ih => exact ⟨⟨ih.1.standard, ih.1.screen.markPresented, ih.1.ranged⟩, ih.2⟩
  | memory _ hb ih => exact ⟨ih.1.withBus hb, ih.2⟩
  | registers _ hs ih => exact ⟨ih.1.withState hs, ih.2⟩

/-- A step from `m` to `t` with the notices `l` is recorded as it was. -/
structure Recorded (m : Machine) (s : Snapshot State) (t : Machine) (l : List Notice) : Prop where
  /-- The accesses are those of the fetch and of the instruction. -/
  accesses_eq : ∃ high low data,
    s.accesses = .read m.state.pc high :: .read (m.state.pc + 1) low :: data ∧
      Instruction.ofWord? (.ofBytes high low) = some s.instruction ∧
      data.map Access.request = s.instruction.requests m.state
  /-- Each access found the byte that was there. -/
  found : ∀ before a after, s.accesses = before ++ a :: after →
    Bus.bytesAfter inRam before m.bus.byte? a.address = some a.found
  memory : t.bus.byte? = Bus.bytesAfter inRam s.accesses m.bus.byte?
  losses : l.countP Notice.isLoss = s.accesses.countP Access.isFontWrite
  cycle : ∀ n, Tallied n m → s.cycle = n + 1

theorem step_recorded (hm : m.WellFormed) (h : step.run m = ⟨t, .ok s, l⟩) : Recorded m s t l := by
  have hs := stepped hm.standard
  rw [h] at hs
  cases hs with
  | @executed high low i t l hf hi hx =>
    obtain ⟨hp, hpc⟩ := hm.passed hf
    obtain ⟨-, hk⟩ := (Action.wp_of_run_ok hx).1 (execute_spec hp hpc i)
    obtain ⟨as, ht, has, rfl⟩ := (causes_execute _ i hx).traffic
    -- The list of accesses is emptied before the fetch, so that it holds no more than these two.
    have hall := hf.trafficked.trans ht
    have haccesses : t.bus.accesses = .read m.state.pc high :: .read (m.state.pc + 1) low :: as :=
      hall.accesses_eq
    have hram := Bus.Standard.inRam_iff hm.quiet.standard
    refine ⟨⟨high, low, as, haccesses, hi, has⟩, fun before a after hb => ?_, ?_, ?_, fun n hn => ?_⟩
    · exact hall.found_eq hm.quiet.standard.unshared hram (haccesses.symm.trans hb)
    · rw [haccesses]
      exact hall.byte?_eq hm.quiet.standard.unshared hram
    · rw [haccesses, List.countP_append, hp.standard.countP_losses]
      rfl
    · show t.cycles + 1 = n + 1
      rw [hk.cycles, ← hn.sound.2]
      rfl

/-- A machine about to store two bytes, the first of them into the font. -/
def inked : Machine :=
  { (Deed.loadRom [0xF1, 0x55]).run (booted {} {}) with state := { index := 0x4F } }

theorem step_recorded_of_store :
    ∃ t s l, inked.WellFormed ∧ step.run inked = ⟨t, .ok s, l⟩ ∧ Tallied 0 inked ∧ s.cycle = 1 ∧
      s.accesses = [.read 0x200 0xF1, .read 0x201 0x55, .write 0x4F 0 0x80, .write 0x50 0 0] ∧
      l.countP Notice.isLoss = 1 ∧ t.bus.byte? 0x4F = inked.bus.byte? 0x4F ∧
      t.bus.byte? 0x50 = some 0 := by
  have ht : Tallied 0 inked := by
    refine .registers (.deed (.boot (boot_standard {} {})) (by simp)) ?_
    exact (State.ranged_initial (stackLimit_nonneg _)).withIndex (by decide)
  have hw := ht.sound.1
  have ha : (step.run inked).result.toOption.map (·.accesses) =
      some [.read 0x200 0xF1, .read 0x201 0x55, .write 0x4F 0 0x80, .write 0x50 0 0] := by
    decide +kernel
  rcases h : step.run inked with ⟨t, e | s, l⟩
  · rw [h] at ha
    cases ha
  · rw [h] at ha
    have ha : s.accesses = _ := Option.some.inj ha
    obtain ⟨-, -, hmemory, hlosses, hcycle⟩ := step_recorded hw h
    rw [ha] at hmemory hlosses
    exact ⟨t, s, l, hw, rfl, ht, hcycle 0 ht, ha, hlosses, by rw [hmemory]; rfl, by rw [hmemory]; rfl⟩

end Machine

end Chip8
