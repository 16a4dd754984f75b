import Chip8.Proofs.Machine.Effect
import Chip8.Proofs.Machine.Word
import Mathlib.Data.Nat.Bitwise

/-!
# Arithmetic and its flag

The words `8XY1` to `8XY7` and `8XYE` leave a result in one register and a flag in the flag register
(`State.Computes`). Both are made from the registers as they were, whichever of them coincide, and the
flag is what stays where both go into one register (`arithmetic_computes`).
-/

namespace Chip8

namespace Bits

/-- Bits that stand in one of two numbers only and bits that stand in both make up all of them. -/
theorem xor_add_and (j k : Nat) : (j ^^^ k) + (j &&& k) = j ||| k := by
  induction j using Nat.strongRecOn generalizing k with
  | ind j ih =>
    rcases Nat.eq_zero_or_pos j with rfl | hj
    · simp
    · have hrest := ih (j / 2) (by omega) (k / 2)
      rw [← Nat.xor_div_two, ← Nat.and_div_two, ← Nat.or_div_two] at hrest
      have hxor := @Nat.xor_mod_two_eq j k
      have hand := @Nat.and_mod_two_eq_one j k
      have hor := @Nat.or_mod_two_eq_one j k
      omega

@[simp] theorem or_ofNat (j k : Nat) : or j k = (j ||| k : Nat) := rfl

@[simp] theorem xor_ofNat (j k : Nat) : xor j k = (j ^^^ k : Nat) := by
  have hsum := xor_add_and j k
  have hand : (j ||| k) &&& (j &&& k) = j &&& k := by
    apply Nat.eq_of_testBit_eq
    intro i
    simp only [Nat.testBit_and, Nat.testBit_or]
    cases j.testBit i <;> cases k.testBit i <;> rfl
  show (((j ||| k) - ((j ||| k) &&& (j &&& k)) : Nat) : Int) = _
  omega

end Bits

namespace State

/-- What a logic operation on the register `x` of `s` leaves: `result` in that register, and a flag
that is cleared or left alone. -/
def Combines (d : Dialect) (x : Fin 16) (s t : State) (result : Nat) : Prop :=
  (¬ ((x : Nat) = 15 ∧ d.logicResetsVf = true) → t.reg x = result) ∧
    if d.logicResetsVf then t.flag = 0 else (x : Nat) ≠ 15 → t.flag = s.flag

/-- What a word of the family `8` leaves of the registers `s`. -/
def Computes (d : Dialect) (w : Word) (s t : State) : Prop :=
  let a := s.reg w.x
  let b := s.reg w.y
  let c := s.reg (if d.shiftUsesVy then w.y else w.x)
  match w.nibble with
  | 0x1 => Combines d w.x s t (a.toNat ||| b.toNat)
  | 0x2 => Combines d w.x s t (a.toNat &&& b.toNat)
  | 0x3 => Combines d w.x s t (a.toNat ^^^ b.toNat)
  | 0x4 =>
    t.flag = (if 256 ≤ a + b then 1 else 0) ∧
      ((w.x : Nat) ≠ 15 → 256 * t.flag + t.reg w.x = a + b)
  | 0x5 =>
    t.flag = (if b ≤ a then 1 else 0) ∧
      ((w.x : Nat) ≠ 15 → t.reg w.x = a - b + 256 * (1 - t.flag))
  | 0x6 => t.flag = c % 2 ∧ ((w.x : Nat) ≠ 15 → 2 * t.reg w.x + t.flag = c)
  | 0x7 =>
    t.flag = (if a ≤ b then 1 else 0) ∧
      ((w.x : Nat) ≠ 15 → t.reg w.x = b - a + 256 * (1 - t.flag))
  | 0xE => t.flag = c / 128 ∧ ((w.x : Nat) ≠ 15 → 256 * t.flag + t.reg w.x = 2 * c)
  | _ => False

variable {d : Dialect} {s : State} {w : Word} {x y : Fin 16} {n f : Int}

@[simp] theorem flag_setFlag (s : State) (f : Int) : (s.setFlag f).flag = f % 256 := by
  simp [flag, setFlag]

theorem reg_setFlag (s : State) (f : Int) (hx : (x : Nat) ≠ 15) :
    (s.setFlag f).reg x = s.reg x := by
  have hne : 15 ≠ x := Ne.symm (Fin.ne_of_val_ne hx)
  simp [setFlag, hne]

/-- A result goes into its register before the flag does. -/
theorem flag_and_reg {t : State} (ht : t = (s.setReg x n).setFlag f) :
    t.flag = f % 256 ∧ ((x : Nat) ≠ 15 → t.reg x = n) := by
  subst ht
  refine ⟨flag_setFlag .., fun hx => ?_⟩
  simp [reg_setFlag _ _ hx]

/-- The logic operations on bytes are those on natural numbers. -/
theorem combines_endLogic {op : Int → Int → Int} {bits : Nat → Nat → Nat}
    (hop : ∀ j k : Nat, op j k = bits j k) (ha : 0 ≤ s.reg x) (hb : 0 ≤ s.reg y) :
    Combines d x s (endLogic d (s.setReg x (op (s.reg x) (s.reg y))))
      (bits (s.reg x).toNat (s.reg y).toNat) := by
  have hresult := hop (s.reg x).toNat (s.reg y).toNat
  rw [Int.toNat_of_nonneg ha, Int.toNat_of_nonneg hb] at hresult
  unfold Combines endLogic
  cases d.logicResetsVf with
  | true =>
    obtain ⟨hflag, hreg⟩ := flag_and_reg (s := s) (x := x) (n := op (s.reg x) (s.reg y)) (f := 0) rfl
    exact ⟨fun hx => (hreg fun h => hx ⟨h, rfl⟩).trans hresult, hflag⟩
  | false =>
    refine ⟨fun _ => ?_, fun hx => ?_⟩
    · simpa using hresult
    · have hne : x ≠ 15 := Fin.ne_of_val_ne hx
      simp [flag, hne]

section

variable (hs : ∀ z, 0 ≤ s.reg z ∧ s.reg z ≤ 0xFF)

include hs

theorem computes_add (hn : w.nibble = 0x4) : Computes d w s (s.add w.x w.y) := by
  have ha := hs w.x
  have hb := hs w.y
  obtain ⟨hflag, hreg⟩ := flag_and_reg (t := s.add w.x w.y) rfl
  simp only [Computes, hn]
  refine ⟨by omega, fun hx => ?_⟩
  have hresult := hreg hx
  omega

theorem computes_sub (hn : w.nibble = 0x5) : Computes d w s (s.sub w.x w.y) := by
  have ha := hs w.x
  have hb := hs w.y
  obtain ⟨hflag, hreg⟩ := flag_and_reg (t := s.sub w.x w.y) rfl
  simp only [Computes, hn]
  refine ⟨by omega, fun hx => ?_⟩
  have hresult := hreg hx
  omega

theorem computes_shiftRight (hn : w.nibble = 0x6) : Computes d w s (s.shiftRight d w.x w.y) := by
  have hc := hs (shiftSource d w.x w.y)
  obtain ⟨hflag, hreg⟩ := flag_and_reg (t := s.shiftRight d w.x w.y) rfl
  unfold shiftSource at hc hflag hreg
  simp only [Computes, hn]
  refine ⟨by omega, fun hx => ?_⟩
  have hresult := hreg hx
  omega

theorem computes_subFrom (hn : w.nibble = 0x7) : Computes d w s (s.subFrom w.x w.y) := by
  have ha := hs w.x
  have hb := hs w.y
  obtain ⟨hflag, hreg⟩ := flag_and_reg (t := s.subFrom w.x w.y) rfl
  simp only [Computes, hn]
  refine ⟨by omega, fun hx => ?_⟩
  have hresult := hreg hx
  omega

theorem computes_shiftLeft (hn : w.nibble = 0xE) : Computes d w s (s.shiftLeft d w.x w.y) := by
  have hc := hs (shiftSource d w.x w.y)
  obtain ⟨hflag, hreg⟩ := flag_and_reg (t := s.shiftLeft d w.x w.y) rfl
  unfold shiftSource at hc hflag hreg
  simp only [Computes, hn]
  refine ⟨by omega, fun hx => ?_⟩
  have hresult := hreg hx
  omega

end

end State

namespace Machine

variable {m : Machine} {w : Word} {o : Opcode}

/-- What arithmetic does to registers goes by the last digit. -/
theorem exists_computes (hr : ∀ z, 0 ≤ m.state.reg z ∧ m.state.reg z ≤ 0xFF)
    (hn : w.nibble ∈ [0x1, 0x2, 0x3, 0x4, 0x5, 0x6, 0x7, 0xE]) :
    ∃ o s, Opcode.ofArithmetic? w.nibble = some o ∧
      (execute ⟨o, w⟩).run m = ⟨{ m with state := s }, .ok (), []⟩ ∧
      State.Computes m.dialect w m.state s := by
  simp only [List.mem_cons, List.not_mem_nil, or_false] at hn
  rcases hn with hn | hn | hn | hn | hn | hn | hn | hn
  · refine ⟨.or, m.state.or m.dialect w.x w.y, by rw [hn]; rfl, rfl, ?_⟩
    simp only [State.Computes, hn]
    exact State.combines_endLogic Bits.or_ofNat (hr _).1 (hr _).1
  · refine ⟨.and, m.state.and m.dialect w.x w.y, by rw [hn]; rfl, rfl, ?_⟩
    simp only [State.Computes, hn]
    exact State.combines_endLogic Bits.and_ofNat (hr _).1 (hr _).1
  · refine ⟨.xor, m.state.xor m.dialect w.x w.y, by rw [hn]; rfl, rfl, ?_⟩
    simp only [State.Computes, hn]
    exact State.combines_endLogic Bits.xor_ofNat (hr _).1 (hr _).1
  · exact ⟨.add, _, by rw [hn]; rfl, rfl, State.computes_add hr hn⟩
  · exact ⟨.sub, _, by rw [hn]; rfl, rfl, State.computes_sub hr hn⟩
  · exact ⟨.shiftRight, _, by rw [hn]; rfl, rfl, State.computes_shiftRight hr hn⟩
  · exact ⟨.subFrom, _, by rw [hn]; rfl, rfl, State.computes_subFrom hr hn⟩
  · exact ⟨.shiftLeft, _, by rw [hn]; rfl, rfl, State.computes_shiftLeft hr hn⟩

theorem changes_arithmetic {n : Nat} {d : Dialect} {p : Part} (ho : Opcode.ofArithmetic? n = some o)
    (hp : Instruction.Changes d ⟨o, w⟩ p) : p = .register w.x ∨ p = .register 15 := by
  unfold Opcode.ofArithmetic? at ho
  split at ho <;> cases ho
  all_goals
    cases p with
    | register r =>
      simp only [Instruction.Changes, Instruction.x] at hp
      simp only [Part.register.injEq]
      tauto
    | _ => simp [Instruction.Changes] at hp

/-- Arithmetic is always carried out. It leaves a result and a flag that are made of the registers as
they were, and everything else as it was. -/
theorem arithmetic_computes (hr : ∀ z, 0 ≤ m.state.reg z ∧ m.state.reg z ≤ 0xFF)
    (hf : w.family = 0x8) (hn : w.nibble ∈ [0x1, 0x2, 0x3, 0x4, 0x5, 0x6, 0x7, 0xE]) :
    ∃ t, (executeWord w.toNat).run m = ⟨t, .ok (), []⟩ ∧
      State.Computes m.dialect w m.state t.state ∧ t.cycles = m.cycles ∧
      ∀ p : Part, p ≠ .register w.x → p ≠ .register 15 → p.Same m t := by
  obtain ⟨o, s, ho, hx, hs⟩ := exists_computes hr hn
  have hrun := run_executeWord (Instruction.ofWord?_arithmetic hf ho) m
  refine ⟨{ m with state := s }, hrun.trans hx, hs, rfl, fun p hpx hpf => ?_⟩
  refine (causes_execute m _ hx).changes p fun hp => ?_
  rcases changes_arithmetic ho hp with h | h
  · exact hpx h
  · exact hpf h

/-- A sum into the flag register, where the carry is what stays. -/
theorem arithmetic_computes_carry :
    ∃ m : Machine, (∀ z, 0 ≤ m.state.reg z ∧ m.state.reg z ≤ 0xFF) ∧ Word.family 0x8F24 = 0x8 ∧
      Word.nibble 0x8F24 = 0x4 ∧ m.state.reg 15 = 200 ∧ m.state.reg 2 = 100 ∧
      ∃ t, (executeWord (UInt16.toNat 0x8F24)).run m = ⟨t, .ok (), []⟩ ∧ t.state.reg 15 = 1 ∧
        t.state.reg 2 = 100 := by
  let m : Machine := { bus := standardBus, state := (({} : State).setReg 15 200).setReg 2 100 }
  have hr : ∀ z, 0 ≤ m.state.reg z ∧ m.state.reg z ≤ 0xFF := by decide
  obtain ⟨t, ht, ⟨hflag, -⟩, -, hsame⟩ :=
    arithmetic_computes (m := m) (w := 0x8F24) hr (by decide) (by decide)
  exact ⟨m, hr, by decide, by decide, by decide, by decide, t, ht, hflag,
    hsame (.register 2) (by decide) (by decide)⟩

end Machine

end Chip8
