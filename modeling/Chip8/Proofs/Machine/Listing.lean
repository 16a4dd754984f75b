import Chip8.Listing
import Chip8.Proofs.Machine.Lasting
import Chip8.Proofs.Machine.Reached
import Chip8.Proofs.Text.Hex

/-!
# Listings and steps

A listing looks at the word at the program counter on a way of its own, and a step on another. They
agree (`listing_agrees_with_step`): the line shows the word that the step fetches, as the text that the
step is recorded by, and it shows plain data just where the decoder knows no instruction. No
instruction reads like plain data (`Instruction.text_ne_data`).
-/

namespace Chip8

/-! ### Texts -/

theorem Opcode.take_mnemonic (o : Opcode) :
    2 ≤ o.mnemonic.toList.length ∧ o.mnemonic.toList.take 2 ≠ ['D', 'W'] := by
  cases o <;> decide

namespace Instruction

theorem exists_text_eq (i : Instruction) : ∃ rest, i.text = i.opcode.mnemonic ++ rest := by
  unfold text
  cases i.operands with
  | nil => exact ⟨"", (String.append_empty).symm⟩
  | cons o os => exact ⟨_, String.append_assoc ..⟩

theorem text_ne_data (i : Instruction) (w : Word) : i.text ≠ "DW $" ++ w.hex := by
  intro h
  obtain ⟨rest, hrest⟩ := i.exists_text_eq
  obtain ⟨hlen, hne⟩ := i.opcode.take_mnemonic
  have htake : (i.opcode.mnemonic.toList ++ rest.toList).take 2 = ['D', 'W'] := by
    rw [← String.toList_append, ← hrest, h, String.toList_append]
    rfl
  rw [List.take_append_of_le_length hlen] at htake
  exact hne htake

end Instruction

theorem Listing.Line.text_eq_data_iff (l : Line) :
    l.text = "DW $" ++ l.word.hex ↔ Instruction.ofWord? l.word = none := by
  unfold text
  cases Instruction.ofWord? l.word with
  | none => exact iff_of_true rfl rfl
  | some i => exact iff_of_false (i.text_ne_data l.word) nofun

theorem traceText_eq {a : Int} {l : Listing.Line} {i : Instruction} (ha : 0 ≤ a ∧ a < 0x10000)
    (hi : Instruction.ofWord? l.word = some i) :
    traceText a i = "0x" ++ (Text.Hex.fixed 4 a.toNat).map Char.toLower ++ ": " ++ l.text := by
  have htext : l.text = i.text := by
    unfold Listing.Line.text
    rw [hi]
  unfold traceText
  rw [htext, Text.Hex.padded_eq (k := 3) ha.1 (by omega)]

namespace Machine

/-- Show the instructions that begin in `length` bytes from `start` on. -/
def listing (start length : Int) : Action Machine (List Listing.Line) := do
  let m ← .get
  .lift ((Listing.ofRange m.bus start length).mapError .bus)

/-- The decoder, given the word that a step of the machine fetches, fails by the fault. -/
def Rejects (m : Machine) (f : Fault) : Prop :=
  ∃ t w l, (Processor.fetch : Action Machine Word).run m.quiet = ⟨t, .ok w, l⟩ ∧
    (Processor.decode t w : Except Fault Instruction) = .error f

variable {m : Machine} {high low : UInt8} {f : Fault}

/-! ### The two ways to a word -/

namespace Fetches

theorem unique {high' low' : UInt8} (h : m.Fetches high low) (h' : m.Fetches high' low') :
    Word.ofBytes high' low' = .ofBytes high low := by
  have hh : high' = high := Option.some.inj (h'.high_eq.symm.trans h.high_eq)
  have hl : low' = low := Option.some.inj (h'.low_eq.symm.trans h.low_eq)
  rw [hh, hl]

theorem run_listing (h : m.Fetches high low) (hm : m.bus.Standard) :
    (listing m.state.pc 2).run m = ⟨m, .ok [⟨m.state.pc, .ofBytes high low⟩], []⟩ := by
  have hp := (canFetch_iff hm).1 h.inside
  have hline : Listing.line m.bus m.state.pc = .ok ⟨m.state.pc, .ofBytes high low⟩ := by
    unfold Listing.line
    rw [Bus.peek_eq_ok_iff.2 h.high_eq, Bus.peek_eq_ok_iff.2 h.low_eq]
    rfl
  have hrange : Listing.ofRange m.bus m.state.pc 2 = .ok [⟨m.state.pc, .ofBytes high low⟩] := by
    -- a second word would begin behind the range
    unfold Listing.ofRange
    rw [hm.size, Listing.linesUpTo, if_pos (by omega), hline, Listing.linesUpTo, if_neg (by omega)]
    rfl
  unfold listing
  rw [Action.run_bind_of_ok (Action.run_get m), hrange]
  rfl

theorem rejects_iff (h : m.Fetches high low) :
    m.Rejects f ↔ Instruction.ofWord? (.ofBytes high low) = none ∧
      f = .unknownInstruction (.ofBytes high low) (some m.state.pc) := by
  have hdecode : m.Rejects f ↔ (m.fetched high low).decode (.ofBytes high low) = .error f := by
    unfold Rejects
    rw [run_fetch h.inside h.high_eq h.low_eq]
    constructor
    · rintro ⟨t, w, l, hr, hd⟩
      cases hr
      exact hd
    · intro hd
      exact ⟨_, _, _, rfl, hd⟩
  rw [hdecode]
  unfold decode
  cases Instruction.ofWord? (.ofBytes high low) with
  | none =>
    constructor
    · intro he
      cases he
      exact ⟨rfl, rfl⟩
    · rintro ⟨-, rfl⟩
      rfl
  | some i => exact iff_of_false nofun fun h => nomatch h.1

theorem recorded (h : m.Fetches high low) (hm : m.bus.Standard) {s : Snapshot State}
    (hs : (step.run m).result = .ok s) :
    Instruction.ofWord? (.ofBytes high low) = some s.instruction ∧ s.address = m.state.pc := by
  have hstep := stepped hm
  generalize step.run m = o at hs hstep
  cases hstep with
  | executed h' hi hx =>
    cases hs
    exact ⟨h.unique h' ▸ hi, rfl⟩
  | _ => cases hs

theorem unknown (h : m.Fetches high low) (hm : m.bus.Standard) {w : Word} {a : Option Int}
    (hs : (step.run m).result = .error (.fault (.unknownInstruction w a))) :
    w = .ofBytes high low := by
  have hstep := stepped hm
  generalize step.run m = o at hs hstep
  cases hstep with
  | refused h' => exact nomatch h.ready.symm.trans h'
  | outside h' hf => exact nomatch h.inside.symm.trans hf
  | unknown h' hi =>
    cases hs
    exact h.unique h'
  | faulted h' hi hx =>
    -- the decoder knows the instruction, but the dialect forbids it
    cases hs
    cases balks_of_fault hx with
    | sys ho hd => rw [Instruction.word_ofWord? hi, h.unique h']
  | broke h' hi hx he =>
    cases hs
    exact absurd rfl (he _)
  | executed => cases hs

theorem step_of_none (h : m.Fetches high low)
    (hi : Instruction.ofWord? (.ofBytes high low) = none) :
    (step.run m).result =
      .error (.fault (.unknownInstruction (.ofBytes high low) (some m.state.pc))) := by
  rw [run_step_faulted h.ready (run_perform_unknown h hi)]

end Fetches

/-- A machine that may go on lists the word at its program counter as one line and without a trace. The
next step takes the same word, also where it overwrites it, and is recorded by the same text. The line
is plain data just where the decoder fails; a call of machine code that the dialect forbids fails
too, and is listed as the instruction it is. -/
theorem listing_agrees_with_step (hm : m.bus.Standard) (hr : m.refusal? = none)
    (hp : 0 ≤ m.state.pc ∧ m.state.pc ≤ 0xFFE) :
    ∃ line : Listing.Line,
      (listing m.state.pc 2).run m = ⟨m, .ok [line], []⟩ ∧
      line.address = m.state.pc ∧
      (∀ s, (step.run m).result = .ok s →
        s.instruction.word.hex = line.word.hex ∧
          s.trace = "0x" ++ (Text.Hex.fixed 4 m.state.pc.toNat).map Char.toLower ++ ": " ++
            line.text) ∧
      (line.text = "DW $" ++ line.word.hex ↔
        ∃ w a, (step.run m).result = .error (.fault (.unknownInstruction w a)) ∧
          m.Rejects (.unknownInstruction w a)) ∧
      ∀ w a, (step.run m).result = .error (.fault (.unknownInstruction w a)) →
        w.hex = line.word.hex := by
  obtain ⟨high, low, h⟩ := exists_fetches hm hr ((canFetch_iff hm).2 (by omega))
  refine ⟨⟨m.state.pc, .ofBytes high low⟩, h.run_listing hm, rfl, ?_, ?_, ?_⟩
  · intro s hs
    obtain ⟨hi, ha⟩ := h.recorded hm hs
    refine ⟨congrArg Word.hex (Instruction.word_ofWord? hi), ?_⟩
    unfold Snapshot.trace
    rw [ha]
    exact traceText_eq (by omega) hi
  · rw [Listing.Line.text_eq_data_iff]
    constructor
    · intro hi
      exact ⟨_, _, h.step_of_none hi, h.rejects_iff.2 ⟨hi, rfl⟩⟩
    · rintro ⟨w, a, -, hrej⟩
      exact (h.rejects_iff.1 hrej).1
  · intro w a hs
    exact congrArg Word.hex (h.unknown hm hs)

/-- A machine about to overwrite the instruction that it executes. -/
def erasing : Machine := Deed.step.run ((Deed.loadRom [0xA2, 0x02, 0xF0, 0x55]).run (booted {} {}))

theorem listing_agrees_with_step_erasing :
    erasing.refusal? = none ∧ erasing.state.pc = 0x202 ∧
      (step.run erasing).state.bus.byte? 0x202 = some 0 ∧
      ∃ line s, (listing 0x202 2).run erasing = ⟨erasing, .ok [line], []⟩ ∧
        (step.run erasing).result = .ok s ∧ s.trace = "0x0202: " ++ line.text := by
  have hreached : Reached {} {} erasing := .act (.act (.boot (boot_standard {} {})) _) .step
  obtain ⟨hr, hpc, hbyte, hok⟩ : erasing.refusal? = none ∧ erasing.state.pc = 0x202 ∧
      (step.run erasing).state.bus.byte? 0x202 = some 0 ∧
      (step.run erasing).result.toOption.isSome := by
    decide +kernel
  obtain ⟨line, hlist, -, hrecord, -⟩ :=
    listing_agrees_with_step hreached.fit.wellFormed.standard hr (by rw [hpc]; decide)
  rw [hpc] at hlist hrecord
  cases hs : (step.run erasing).result with
  | error e =>
    rw [hs] at hok
    cases hok
  | ok s =>
    have hmark : "0x" ++ (Text.Hex.fixed 4 (0x202 : Int).toNat).map Char.toLower ++ ": " =
        "0x0202: " := by decide +kernel
    refine ⟨hr, hpc, hbyte, line, s, hlist, rfl, ?_⟩
    rw [(hrecord s hs).2, hmark]

end Machine

end Chip8
