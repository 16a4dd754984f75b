import Chip8.Proofs.Machine.Step

/-!
# Words that are carried out

A machine carries a word out by a step, if the word stands at its program counter (`Faces`), or by
itself (`executeWord`). Either way it executes the instruction of the word.
-/

namespace Chip8

namespace Instruction

variable {w : Word} {o : Opcode} {i : Instruction}

theorem ofWord?_arithmetic (hf : w.family = 0x8) (ho : Opcode.ofArithmetic? w.nibble = some o) :
    ofWord? w = some ⟨o, w⟩ := by
  unfold ofWord? Opcode.ofWord?
  rw [hf]
  show (Opcode.ofArithmetic? w.nibble).map _ = _
  rw [ho]
  rfl

theorem ofWord?_draw (hf : w.family = 0xD) : ofWord? w = some ⟨.draw, w⟩ := by
  unfold ofWord? Opcode.ofWord?
  rw [hf]
  rfl

theorem ofWord?_misc (hf : w.family = 0xF) (ho : Opcode.ofMisc? w.byte = some o) :
    ofWord? w = some ⟨o, w⟩ := by
  unfold ofWord? Opcode.ofWord?
  rw [hf]
  show (Opcode.ofMisc? w.byte).map _ = _
  rw [ho]
  rfl

theorem decode_of_ofWord? (h : ofWord? w = some i) : decode w.toNat = .ok i := by
  have hlt := w.toNat_lt
  have hw : UInt16.ofNat (w.toNat : Int).toNat = w := UInt16.ofNat_toNat
  unfold decode
  dsimp only
  rw [if_pos (by omega), hw, h]

end Instruction

namespace Machine

variable {w : Word} {i : Instruction}

/-- The machine may go on, and a word stands at its program counter. -/
def Faces (m : Machine) (w : Word) : Prop := ∃ high low, m.Fetches high low ∧ .ofBytes high low = w

theorem run_executeWord (h : Instruction.ofWord? w = some i) (m : Machine) :
    (executeWord w.toNat).run m = (execute i).run m := by
  unfold executeWord
  rw [Instruction.decode_of_ofWord? h]
  exact Action.run_bind_of_ok (Action.run_lift ..) _

end Machine

end Chip8
