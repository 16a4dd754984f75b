import Chip8.Listing
import Chip8.Proofs.Text.Hex

/-!
# Reading a listing back

A line of a listing shows a mnemonic, a blank, and operands with commas between them. `Listing.word?`
takes a line apart at these marks (`Listing.fields`) and looks up the word of its parts
(`Instruction.assemble`). It finds the word of every line (`Listing.word?_text`), so no two words
read alike, although many instructions share a mnemonic.
-/

namespace Chip8

open Text.Hex

/-! ### Operands -/

namespace Operand

/-- The operand that a listing shows by these letters. -/
def ofChars? : List Char → Option Operand
  | ['I'] => some index
  | ['[', 'I', ']'] => some atIndex
  | ['D', 'T'] => some delay
  | ['S', 'T'] => some sound
  | ['K'] => some key
  | ['F'] => some font
  | ['B'] => some digits
  | 'V' :: ds => some (register ⟨value ds % 16, Nat.mod_lt _ (by decide)⟩)
  | '$' :: ds => some (address (value ds))
  | '#' :: '$' :: ds => some (byte (value ds))
  | '#' :: ds => some (nibble (value ds))
  | _ => none

def ofText? (s : String) : Option Operand := ofChars? s.toList

/-- The number in the operand has no more digits than are shown. -/
def Fits : Operand → Prop
  | address a => a < 16 ^ 3
  | byte b => b < 16 ^ 2
  | nibble n => n < 16 ^ 1
  | _ => True

theorem ofText?_text {o : Operand} (h : o.Fits) : ofText? o.text = some o := by
  unfold ofText?
  cases o with
  | register r =>
    have ht : (register r).text.toList = 'V' :: fixedChars 1 r := by simp [text, fixed]
    have hv : value (fixedChars 1 r) = r := value_fixedChars r.isLt
    have hr : value (fixedChars 1 r) % 16 = r := by rw [hv, Nat.mod_eq_of_lt r.isLt]
    rw [ht]
    exact congrArg (fun x => some (register x)) (Fin.ext hr)
  | address a =>
    have ht : (address a).text.toList = '$' :: fixedChars 3 a := by simp [text, fixed]
    rw [ht]
    show some (address (value (fixedChars 3 a))) = _
    rw [value_fixedChars h]
  | byte b =>
    have ht : (byte b).text.toList = '#' :: '$' :: fixedChars 2 b := by simp [text, fixed]
    rw [ht]
    show some (byte (value (fixedChars 2 b))) = _
    rw [value_fixedChars h]
  | nibble n =>
    -- the mark alone does not tell a nibble from a byte: the digit behind it does
    have hn : n < 16 := h
    have ht : (nibble n).text.toList = ['#', capital n] := by
      simp [text, fixed, fixedChars, Nat.mod_eq_of_lt hn]
    rw [ht]
    interval_cases n <;> rfl
  | _ => rfl

theorem filterMap_ofText? {os : List Operand} (h : ∀ o ∈ os, o.Fits) :
    (os.map text).filterMap ofText? = os := by
  induction os with
  | nil => rfl
  | cons o os ih =>
    rw [List.map_cons, List.filterMap_cons_some (ofText?_text (h o (by simp))),
      ih fun o ho => h o (List.mem_cons_of_mem _ ho)]

end Operand

theorem Instruction.fits_operands (i : Instruction) : ∀ o ∈ i.operands, o.Fits := by
  have ha : (Operand.address i.address).Fits := Nat.mod_lt _ (by decide)
  have hb : (Operand.byte i.byte).Fits := Nat.mod_lt _ (by decide)
  have hn : (Operand.nibble i.nibble).Fits := Nat.mod_lt _ (by decide)
  have hr (r : Fin 16) : (Operand.register r).Fits := trivial
  unfold operands
  cases i.opcode <;> simp [ha, hb, hn, hr] <;> trivial

/-! ### The parts of a line -/

/-- Neither a blank nor a comma is in the text. -/
def Plain (s : String) : Prop := ∀ c ∈ s.toList, c ≠ ' ' ∧ c ≠ ','

-- by the letters of the text, not by all letters that there are
instance (s : String) : Decidable (Plain s) := List.decidableBAll (fun c => c ≠ ' ' ∧ c ≠ ',') s.toList

theorem plain_fixed (k n : Nat) : Plain (fixed k n) := by
  intro c hc
  unfold fixed at hc
  rw [String.toList_ofList] at hc
  obtain ⟨d, hd, rfl⟩ := exists_capital_of_mem hc
  interval_cases d <;> decide

namespace Plain
variable {s t : String}

theorem append (hs : Plain s) (ht : Plain t) : Plain (s ++ t) := by
  intro c hc
  rw [String.toList_append, List.mem_append] at hc
  exact hc.elim (hs c) (ht c)

theorem blank_not_mem (h : Plain s) : ' ' ∉ s.toList := fun hc => (h _ hc).1 rfl

theorem filter_eq (h : Plain s) : s.toList.filter (· ≠ ',') = s.toList :=
  List.filter_eq_self.2 fun c hc => by simpa using (h c hc).2

end Plain

theorem Operand.plain_text (o : Operand) : Plain o.text := by
  cases o with
  | register r => exact .append (by decide) (plain_fixed 1 r)
  | address a => exact .append (by decide) (plain_fixed 3 a)
  | byte b => exact .append (by decide) (plain_fixed 2 b)
  | nibble n => exact .append (by decide) (plain_fixed 1 n)
  | _ => decide

theorem Opcode.plain_mnemonic (o : Opcode) : Plain o.mnemonic := by
  cases o <;> decide

theorem filter_intercalate (p : Char → Bool) (sep : List Char) (ls : List (List Char)) :
    (sep.intercalate ls).filter p = (sep.filter p).intercalate (ls.map (List.filter p)) := by
  induction ls with
  | nil => rfl
  | cons l ls ih =>
    cases ls with
    | nil => simp
    | cons l' ls =>
      rw [List.intercalate_cons_cons, List.filter_append, List.filter_append, ih, List.map_cons,
        List.map_cons, List.map_cons, List.intercalate_cons_cons]

namespace Listing

/-- What stands between the blanks, without the commas. -/
def fields (text : String) : List String :=
  ((text.toList.filter (· ≠ ',')).splitOn ' ').map String.ofList

theorem fields_of_plain {m : String} (hm : Plain m) : fields m = [m] := by
  unfold fields
  rw [hm.filter_eq, List.splitOn_eq_singleton hm.blank_not_mem]
  simp

theorem fields_cons {m : String} {ops : List String} (hm : Plain m) (hops : ∀ o ∈ ops, Plain o)
    (h : ops ≠ []) : fields (m ++ " " ++ ", ".intercalate ops) = m :: ops := by
  have hmap : (ops.map String.toList).map (List.filter (· ≠ ',')) = ops.map String.toList := by
    rw [List.map_map]
    exact List.map_congr_left fun o ho => (hops o ho).filter_eq
  have hfilter : (m ++ " " ++ ", ".intercalate ops).toList.filter (· ≠ ',') =
      [' '].intercalate ((m :: ops).map String.toList) := by
    obtain ⟨o, os, rfl⟩ := List.exists_cons_of_ne_nil h
    rw [String.toList_append, String.toList_append, String.toList_intercalate, List.filter_append,
      List.filter_append, hm.filter_eq, filter_intercalate, hmap, List.map_cons, List.map_cons,
      List.map_cons, List.intercalate_cons_cons]
    rfl
  have hblank : ∀ l ∈ (m :: ops).map String.toList, ' ' ∉ l := by
    intro l hl
    obtain ⟨s, hs, rfl⟩ := List.mem_map.1 hl
    rcases List.mem_cons.1 hs with rfl | hs
    · exact hm.blank_not_mem
    · exact (hops s hs).blank_not_mem
  unfold fields
  rw [hfilter, List.splitOn_intercalate ' ' hblank (by simp), List.map_map]
  simp

end Listing

theorem Instruction.fields_text (i : Instruction) :
    Listing.fields i.text = i.opcode.mnemonic :: i.operands.map Operand.text := by
  unfold text
  cases i.operands with
  | nil => exact Listing.fields_of_plain i.opcode.plain_mnemonic
  | cons o os =>
    refine Listing.fields_cons i.opcode.plain_mnemonic (fun s hs => ?_) (by simp)
    obtain ⟨o', -, rfl⟩ := List.mem_map.1 hs
    exact o'.plain_text

/-! ### Words -/

namespace Word
variable (w : Word)

theorem toNat_eq : w.toNat = 0x1000 * w.family + 0x100 * w.x + 0x10 * w.y + w.nibble := by
  have hx : (w.x : Nat) = w.toNat / 256 % 16 := rfl
  have hy : (w.y : Nat) = w.toNat / 16 % 16 := rfl
  unfold family nibble
  omega

theorem byte_eq : w.byte = 0x10 * w.y + w.nibble := by
  have hy : (w.y : Nat) = w.toNat / 16 % 16 := rfl
  unfold byte nibble
  omega

theorem address_eq : w.address = 0x100 * w.x + w.byte := by
  have hx : (w.x : Nat) = w.toNat / 256 % 16 := rfl
  unfold address byte
  omega

theorem family_lt : w.family < 16 := by
  have hw := w.toNat_lt
  unfold family
  omega

end Word

namespace Instruction

/-- The word of a mnemonic with its operands. Plain data goes by the mnemonic `DW`. -/
def assemble (mnemonic : String) (operands : List Operand) : Option Nat :=
  match mnemonic, operands with
  | "DW", [.address w] => some w
  | "SYS", [.address a] => some a
  | "CLS", [] => some 0x00E0
  | "RET", [] => some 0x00EE
  | "JP", [.address a] => some (0x1000 + a)
  | "CALL", [.address a] => some (0x2000 + a)
  | "SE", [.register x, .byte b] => some (0x3000 + 0x100 * x + b)
  | "SNE", [.register x, .byte b] => some (0x4000 + 0x100 * x + b)
  | "SE", [.register x, .register y] => some (0x5000 + 0x100 * x + 0x10 * y)
  | "LD", [.register x, .byte b] => some (0x6000 + 0x100 * x + b)
  | "ADD", [.register x, .byte b] => some (0x7000 + 0x100 * x + b)
  | "LD", [.register x, .register y] => some (0x8000 + 0x100 * x + 0x10 * y)
  | "OR", [.register x, .register y] => some (0x8001 + 0x100 * x + 0x10 * y)
  | "AND", [.register x, .register y] => some (0x8002 + 0x100 * x + 0x10 * y)
  | "XOR", [.register x, .register y] => some (0x8003 + 0x100 * x + 0x10 * y)
  | "ADD", [.register x, .register y] => some (0x8004 + 0x100 * x + 0x10 * y)
  | "SUB", [.register x, .register y] => some (0x8005 + 0x100 * x + 0x10 * y)
  | "SHR", [.register x, .register y] => some (0x8006 + 0x100 * x + 0x10 * y)
  | "SUBN", [.register x, .register y] => some (0x8007 + 0x100 * x + 0x10 * y)
  | "SHL", [.register x, .register y] => some (0x800E + 0x100 * x + 0x10 * y)
  | "SNE", [.register x, .register y] => some (0x9000 + 0x100 * x + 0x10 * y)
  | "LD", [.index, .address a] => some (0xA000 + a)
  | "JP", [.register _, .address a] => some (0xB000 + a)
  | "RND", [.register x, .byte b] => some (0xC000 + 0x100 * x + b)
  | "DRW", [.register x, .register y, .nibble n] => some (0xD000 + 0x100 * x + 0x10 * y + n)
  | "SKP", [.register x] => some (0xE09E + 0x100 * x)
  | "SKNP", [.register x] => some (0xE0A1 + 0x100 * x)
  | "LD", [.register x, .delay] => some (0xF007 + 0x100 * x)
  | "LD", [.register x, .key] => some (0xF00A + 0x100 * x)
  | "LD", [.delay, .register x] => some (0xF015 + 0x100 * x)
  | "LD", [.sound, .register x] => some (0xF018 + 0x100 * x)
  | "ADD", [.index, .register x] => some (0xF01E + 0x100 * x)
  | "LD", [.font, .register x] => some (0xF029 + 0x100 * x)
  | "LD", [.digits, .register x] => some (0xF033 + 0x100 * x)
  | "LD", [.atIndex, .register x] => some (0xF055 + 0x100 * x)
  | "LD", [.register x, .atIndex] => some (0xF065 + 0x100 * x)
  | _, _ => none

theorem assemble_operands {w : Word} {i : Instruction} (h : ofWord? w = some i) :
    assemble i.opcode.mnemonic i.operands = some w.toNat := by
  have hw := w.toNat_eq
  have hb := w.byte_eq
  have ha := w.address_eq
  have hf := w.family_lt
  simp only [ofWord?, Option.map_eq_some_iff] at h
  obtain ⟨o, ho, rfl⟩ := h
  unfold Opcode.ofWord? at ho
  generalize w.family = f at *
  interval_cases f
  case «0» =>
    replace ho : (if w.address = 0x0E0 then Opcode.cls else
        if w.address = 0x0EE then .ret else .sys) = o := Option.some.inj ho
    split_ifs at ho with hcls hret
    all_goals cases ho
    · exact congrArg some (by omega)
    · exact congrArg some (by omega)
    · exact congrArg some (by show w.address = _; omega)
  -- the other families say which digits are fixed; the operands show the rest
  all_goals
    simp only [Opcode.ofArithmetic?, Opcode.ofKeys?, Opcode.ofMisc?] at ho
    repeat' split at ho
    all_goals cases ho
  all_goals
    refine congrArg some ?_
    dsimp only [address, byte, x, y, nibble]
    omega

end Instruction

namespace Listing

/-- The word that a line shows. -/
def word? (text : String) : Option Nat :=
  match fields text with
  | [] => none
  | m :: ops => Instruction.assemble m (ops.filterMap Operand.ofText?)

theorem word?_text (l : Line) : word? l.text = some l.word.toNat := by
  unfold Line.text
  cases hi : Instruction.ofWord? l.word with
  | some i =>
    unfold word?
    simp only [i.fields_text]
    rw [Operand.filterMap_ofText? i.fits_operands, Instruction.assemble_operands hi]
  | none =>
    have hplain : Plain ("$" ++ l.word.hex) := .append (by decide) (plain_fixed 4 _)
    have hfields : fields ("DW $" ++ l.word.hex) = ["DW", "$" ++ l.word.hex] := by
      have hops : ∀ o ∈ ["$" ++ l.word.hex], Plain o := by simpa using hplain
      have h := fields_cons (m := "DW") (by decide) hops (by simp)
      rwa [String.intercalate_singleton, ← String.append_assoc] at h
    -- data reads as an address of four digits
    have hop : Operand.ofText? ("$" ++ l.word.hex) = some (.address l.word.toNat) := by
      have ht : ("$" ++ l.word.hex).toList = '$' :: fixedChars 4 l.word.toNat := by
        simp [Word.hex, fixed]
      unfold Operand.ofText?
      rw [ht]
      show some (Operand.address (value (fixedChars 4 l.word.toNat))) = _
      rw [value_fixedChars l.word.toNat_lt]
    unfold word?
    simp only [hfields]
    rw [List.filterMap_cons_some hop]
    rfl

theorem word_eq_of_text_eq {l l' : Line} (h : l.text = l'.text) : l.word = l'.word := by
  have hw : some l.word.toNat = some l'.word.toNat := by rw [← word?_text, ← word?_text, h]
  exact UInt16.toNat_inj.1 (Option.some.inj hw)

end Listing

end Chip8
