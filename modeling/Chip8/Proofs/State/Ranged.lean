import Chip8.Font
import Chip8.State.Arithmetic

/-!
# Registers within their ranges

`Ranged limit s`: general registers and timers are bytes, the index has twelve bits, there are at
most `limit` return addresses and each can stand behind a call, and the program counter is at most
an address of twelve bits with a byte added to it. The operations on registers keep to these ranges:
a result is cut to a byte before it is stored, and a flag when it is.
-/

namespace Chip8.State

structure Ranged (limit : Int) (s : State) : Prop where
  reg : ∀ x, 0 ≤ s.reg x ∧ s.reg x ≤ 0xFF
  index : 0 ≤ s.index ∧ s.index ≤ 0xFFF
  pc : 0 ≤ s.pc ∧ s.pc ≤ 0x10FE
  depth : (s.depth : Int) ≤ limit
  stack : ∀ a ∈ s.stack, 2 ≤ a ∧ a ≤ 0x1000
  delay : 0 ≤ s.delay ∧ s.delay ≤ 0xFF
  sound : 0 ≤ s.sound ∧ s.sound ≤ 0xFF

variable {s : State} {limit n : Int} {x y : Fin 16}

@[simp] theorem reg_setReg (s : State) (x y : Fin 16) (n : Int) :
    (s.setReg x n).reg y = if x = y then n else s.reg y := by
  have reg_eq (s : State) (x : Fin 16) : s.reg x = s.v[x] := rfl
  unfold setReg
  simp [reg_eq, Vector.getElem_setIfInBounds, Fin.ext_iff]

theorem indexed_range (s : State) (k : Nat) : 0 ≤ s.indexed k ∧ s.indexed k < 0x1000 := by
  unfold indexed
  omega

theorem ranged_initial (h : 0 ≤ limit) : Ranged limit {} := by
  refine ⟨fun x => ?_, ?_, ?_, h, fun a ha => ?_, ?_, ?_⟩
  · have hx : ({} : State).reg x = ({} : State).v[x] := rfl
    simp [hx]
  · decide
  · decide
  · cases ha
  · decide
  · decide

namespace Ranged

theorem setReg (h : s.Ranged limit) (hn : 0 ≤ n ∧ n ≤ 0xFF) : (s.setReg x n).Ranged limit := by
  refine ⟨fun y => ?_, h.index, h.pc, h.depth, h.stack, h.delay, h.sound⟩
  rw [reg_setReg]
  split
  · exact hn
  · exact h.reg y

theorem setFlag (h : s.Ranged limit) (n : Int) : (s.setFlag n).Ranged limit :=
  h.setReg (by omega)

theorem withPc (h : s.Ranged limit) (hn : 0 ≤ n ∧ n ≤ 0x10FE) :
    Ranged limit { s with pc := n } :=
  ⟨h.reg, h.index, hn, h.depth, h.stack, h.delay, h.sound⟩

theorem withIndex (h : s.Ranged limit) (hn : 0 ≤ n ∧ n ≤ 0xFFF) :
    Ranged limit { s with index := n } :=
  ⟨h.reg, hn, h.pc, h.depth, h.stack, h.delay, h.sound⟩

theorem withDelay (h : s.Ranged limit) (hn : 0 ≤ n ∧ n ≤ 0xFF) :
    Ranged limit { s with delay := n } :=
  ⟨h.reg, h.index, h.pc, h.depth, h.stack, hn, h.sound⟩

theorem withSound (h : s.Ranged limit) (hn : 0 ≤ n ∧ n ≤ 0xFF) :
    Ranged limit { s with sound := n } :=
  ⟨h.reg, h.index, h.pc, h.depth, h.stack, h.delay, hn⟩

theorem withHalted (h : s.Ranged limit) (b : Bool) : Ranged limit { s with halted := b } :=
  ⟨h.reg, h.index, h.pc, h.depth, h.stack, h.delay, h.sound⟩

theorem withWaiting (h : s.Ranged limit) (b : Bool) : Ranged limit { s with waitingForKey := b } :=
  ⟨h.reg, h.index, h.pc, h.depth, h.stack, h.delay, h.sound⟩

theorem advance (h : s.Ranged limit) (hp : s.pc ≤ 0x1000) : (s.advance 2).Ranged limit := by
  have := h.pc
  exact h.withPc (by omega)

theorem tickTimers (h : s.Ranged limit) : s.tickTimers.Ranged limit := by
  have hd := h.delay
  have hs := h.sound
  refine ⟨h.reg, h.index, h.pc, h.depth, h.stack, ?_, ?_⟩
  · show 0 ≤ ite _ _ _ ∧ ite _ _ _ ≤ (0xFF : Int)
    split <;> omega
  · show 0 ≤ ite _ _ _ ∧ ite _ _ _ ≤ (0xFF : Int)
    split <;> omega

theorem push (h : s.Ranged limit) (hd : (s.depth : Int) < limit) (hp : 2 ≤ s.pc ∧ s.pc ≤ 0x1000)
    (hn : 0 ≤ n ∧ n ≤ 0x10FE) : Ranged limit { s with stack := s.pc :: s.stack, pc := n } := by
  refine ⟨h.reg, h.index, hn, ?_, fun a ha => ?_, h.delay, h.sound⟩
  · show ((s.stack.length + 1 : Nat) : Int) ≤ limit
    unfold State.depth at hd
    omega
  · rcases List.mem_cons.1 ha with rfl | ha
    · exact hp
    · exact h.stack a ha

theorem pop {a : Int} {rest : List Int} (h : s.Ranged limit) (hs : s.stack = a :: rest) :
    Ranged limit { s with stack := rest, pc := a } := by
  have ha := h.stack a (by simp [hs])
  have hp : 0 ≤ a ∧ a ≤ 0x10FE := by omega
  refine ⟨h.reg, h.index, hp, ?_, fun b hb => h.stack b ?_, h.delay, h.sound⟩
  · have hd := h.depth
    unfold State.depth at hd
    rw [hs, List.length_cons] at hd
    show (rest.length : Int) ≤ limit
    omega
  · rw [hs]
    exact List.mem_cons_of_mem a hb

end Ranged

/-! ### Arithmetic -/

private theorem byte_cases (h : 0 ≤ n ∧ n ≤ 0xFF) : ∃ k : Nat, n = k ∧ k < 256 :=
  ⟨n.toNat, by omega, by omega⟩

theorem or_range {a b : Int} (ha : 0 ≤ a ∧ a ≤ 0xFF) (hb : 0 ≤ b ∧ b ≤ 0xFF) :
    0 ≤ Bits.or a b ∧ Bits.or a b ≤ 0xFF := by
  obtain ⟨j, rfl, hj⟩ := byte_cases ha
  obtain ⟨k, rfl, hk⟩ := byte_cases hb
  have hjk := Nat.or_lt_two_pow (n := 8) hj hk
  show 0 ≤ ((j ||| k : Nat) : Int) ∧ ((j ||| k : Nat) : Int) ≤ 0xFF
  omega

theorem and_range {a b : Int} (ha : 0 ≤ a) (hb : 0 ≤ b ∧ b ≤ 0xFF) :
    0 ≤ Bits.and a b ∧ Bits.and a b ≤ 0xFF := by
  obtain ⟨j, rfl⟩ := Int.eq_ofNat_of_zero_le ha
  obtain ⟨k, rfl, hk⟩ := byte_cases hb
  have hjk : j &&& k ≤ k := Nat.and_le_right
  show 0 ≤ ((j &&& k : Nat) : Int) ∧ ((j &&& k : Nat) : Int) ≤ 0xFF
  omega

theorem xor_range {a b : Int} (ha : 0 ≤ a ∧ a ≤ 0xFF) (hb : 0 ≤ b ∧ b ≤ 0xFF) :
    0 ≤ Bits.xor a b ∧ Bits.xor a b ≤ 0xFF := by
  obtain ⟨j, rfl, hj⟩ := byte_cases ha
  obtain ⟨k, rfl, hk⟩ := byte_cases hb
  have hjk := Nat.or_lt_two_pow (n := 8) hj hk
  show 0 ≤ (((j ||| k) - ((j ||| k) &&& (j &&& k)) : Nat) : Int) ∧
    (((j ||| k) - ((j ||| k) &&& (j &&& k)) : Nat) : Int) ≤ 0xFF
  omega

theorem glyph_range (n : Int) : 0 ≤ Font.address n ∧ Font.address n ≤ 0xFFF := by
  unfold Font.address Font.start Font.glyphHeight
  omega

theorem decimalDigits_range (h : 0 ≤ n ∧ n ≤ 0xFF) :
    ∀ k ∈ decimalDigits n, 0 ≤ k ∧ k ≤ 0xFF := by
  simp only [decimalDigits, List.mem_cons, List.not_mem_nil, or_false]
  rintro k (rfl | rfl | rfl) <;> omega

namespace Ranged

theorem addByte (h : s.Ranged limit) (k : Nat) : (s.addByte x k).Ranged limit :=
  h.setReg (by omega)

theorem endLogic (h : s.Ranged limit) (d : Dialect) : (State.endLogic d s).Ranged limit := by
  unfold State.endLogic
  split
  · exact h.setFlag 0
  · exact h

theorem or (h : s.Ranged limit) (d : Dialect) : (State.or d s x y).Ranged limit :=
  (h.setReg (or_range (h.reg x) (h.reg y))).endLogic d

theorem and (h : s.Ranged limit) (d : Dialect) : (State.and d s x y).Ranged limit :=
  (h.setReg (and_range (h.reg x).1 (h.reg y))).endLogic d

theorem xor (h : s.Ranged limit) (d : Dialect) : (State.xor d s x y).Ranged limit :=
  (h.setReg (xor_range (h.reg x) (h.reg y))).endLogic d

theorem add (h : s.Ranged limit) : (s.add x y).Ranged limit :=
  (h.setReg (by omega)).setFlag _

theorem sub (h : s.Ranged limit) : (s.sub x y).Ranged limit :=
  (h.setReg (by omega)).setFlag _

theorem subFrom (h : s.Ranged limit) : (s.subFrom x y).Ranged limit :=
  (h.setReg (by omega)).setFlag _

theorem shiftRight (h : s.Ranged limit) (d : Dialect) : (State.shiftRight d s x y).Ranged limit := by
  have := h.reg (shiftSource d x y)
  exact (h.setReg (by omega)).setFlag _

theorem shiftLeft (h : s.Ranged limit) (d : Dialect) : (State.shiftLeft d s x y).Ranged limit :=
  (h.setReg (by omega)).setFlag _

end Ranged

end Chip8.State
