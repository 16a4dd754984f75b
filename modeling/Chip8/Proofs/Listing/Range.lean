import Chip8.Proofs.Listing.Assembly
import Chip8.Proofs.Machine.Listing

/-!
# The listing of a range

A listing is a dump of the memory taken two bytes after two bytes (`Listing.linesUpTo_eq`). It loses nothing
of the dump: the words spell the bytes, and so does the text, as it gives away the words
(`Machine.listing_loses_nothing`).
-/

namespace Chip8

/-- The first of two bytes is the more significant one. -/
theorem Word.toNat_ofBytes (high low : UInt8) :
    (Word.ofBytes high low).toNat = 256 * high.toNat + low.toNat := by
  have hh := high.toNat_lt
  have hl := low.toNat_lt
  exact UInt16.toNat_ofNat_of_lt (by show _ < 65536; omega)

theorem Word.hex_ofBytes (high low : UInt8) :
    (Word.ofBytes high low).hex = Text.Hex.fixed 2 high.toNat ++ Text.Hex.fixed 2 low.toNat := by
  have hl := low.toNat_lt
  have hchars : Text.Hex.fixedChars 4 (256 * high.toNat + low.toNat) =
      Text.Hex.fixedChars 2 high.toNat ++ Text.Hex.fixedChars 2 low.toNat := by
    have h₁ : (256 * high.toNat + low.toNat) / 16 / 16 / 16 % 16 = high.toNat / 16 % 16 := by omega
    have h₂ : (256 * high.toNat + low.toNat) / 16 / 16 % 16 = high.toNat % 16 := by omega
    have h₃ : (256 * high.toNat + low.toNat) / 16 % 16 = low.toNat / 16 % 16 := by omega
    have h₄ : (256 * high.toNat + low.toNat) % 16 = low.toNat % 16 := by omega
    simp only [Text.Hex.fixedChars, h₁, h₂, h₃, h₄]
    rfl
  unfold hex Text.Hex.fixed
  rw [toNat_ofBytes, hchars, String.ofList_append]

theorem Word.ofBytes_inj {high low high' low' : UInt8}
    (h : Word.ofBytes high low = .ofBytes high' low') : high = high' ∧ low = low' := by
  have hn := congrArg UInt16.toNat h
  rw [toNat_ofBytes, toNat_ofBytes] at hn
  have hl := low.toNat_lt
  have hl' := low'.toNat_lt
  exact ⟨UInt8.toNat_inj.1 (by omega), UInt8.toNat_inj.1 (by omega)⟩

namespace Listing

/-- The lines of bytes that stand from an address on. A byte that is left over has no line. -/
def ofBytes (a : Int) : List UInt8 → List Line
  | high :: low :: rest => ⟨a, .ofBytes high low⟩ :: ofBytes (a + 2) rest
  | _ => []

/-- How many whole words lie before the stop. -/
def count (stop a : Int) : Nat := ((stop - a) / 2).toNat

/-- The loop makes a line for each whole word, of the two bytes that a dump has there. -/
theorem linesUpTo_eq (b : Bus) (stop a : Int) :
    linesUpTo b stop a = (b.dump a (2 * count stop a)).map (ofBytes a) := by
  -- along the loop, which ends where no whole word is left
  induction a using linesUpTo.induct stop with
  | case1 a h ih =>
    have hcount : count stop a = count stop (a + 2) + 1 := by
      unfold count
      omega
    rw [linesUpTo, if_pos h, ih, hcount, Nat.mul_succ, Bus.dump, Bus.dump, line,
      show a + 1 + 1 = a + 2 by omega]
    cases b.peek a with
    | error e => rfl
    | ok high =>
      cases b.peek (a + 1) with
      | error e => rfl
      | ok low => cases b.dump (a + 2) (2 * count stop (a + 2)) <;> rfl
  | case2 a h =>
    have hcount : count stop a = 0 := by
      unfold count
      omega
    rw [linesUpTo, if_neg h, hcount]
    rfl

variable {a a' : Int} {n : Nat} {bytes bytes' : List UInt8}

/-- Two bytes at a time. -/
theorem exists_cons_cons (h : bytes.length = 2 * (n + 1)) :
    ∃ high low rest, bytes = high :: low :: rest ∧ rest.length = 2 * n := by
  match bytes, h with
  | high :: low :: rest, h => exact ⟨high, low, rest, rfl, by simp at h; omega⟩

theorem addresses_ofBytes (h : bytes.length = 2 * n) :
    (ofBytes a bytes).map Line.address = (List.range n).map fun (k : Nat) => a + 2 * k := by
  induction n generalizing a bytes with
  | zero =>
    rw [List.length_eq_zero_iff.1 h]
    rfl
  | succ n ih =>
    obtain ⟨high, low, rest, rfl, hrest⟩ := exists_cons_cons h
    rw [ofBytes, List.map_cons, ih hrest, List.range_succ_eq_map, List.map_cons, List.map_map]
    congr 1
    · simp
    · exact List.map_congr_left fun k _ => by simp; omega

theorem hex_ofBytes (h : bytes.length = 2 * n) :
    String.join ((ofBytes a bytes).map (·.word.hex)) =
      String.join (bytes.map fun v => Text.Hex.fixed 2 v.toNat) := by
  induction n generalizing a bytes with
  | zero =>
    rw [List.length_eq_zero_iff.1 h]
    rfl
  | succ n ih =>
    obtain ⟨high, low, rest, rfl, hrest⟩ := exists_cons_cons h
    rw [ofBytes, List.map_cons, String.join_cons, ih hrest, List.map_cons, List.map_cons,
      String.join_cons, String.join_cons, Word.hex_ofBytes, String.append_assoc]

theorem bytes_eq_of_text_eq (h : bytes.length = 2 * n) (h' : bytes'.length = 2 * n)
    (ht : (ofBytes a bytes).map Line.text = (ofBytes a' bytes').map Line.text) : bytes = bytes' := by
  induction n generalizing a a' bytes bytes' with
  | zero => rw [List.length_eq_zero_iff.1 h, List.length_eq_zero_iff.1 h']
  | succ n ih =>
    obtain ⟨high, low, rest, rfl, hrest⟩ := exists_cons_cons h
    obtain ⟨high', low', rest', rfl, hrest'⟩ := exists_cons_cons h'
    rw [ofBytes, ofBytes, List.map_cons, List.map_cons] at ht
    obtain ⟨hline, hlines⟩ := List.cons.inj ht
    obtain ⟨rfl, rfl⟩ := Word.ofBytes_inj (word_eq_of_text_eq hline)
    rw [ih hrest hrest' hlines]

theorem length_ofBytes (h : bytes.length = 2 * n) : (ofBytes a bytes).length = n := by
  have hl := congrArg List.length (addresses_ofBytes (a := a) h)
  rwa [List.length_map, List.length_map, List.length_range] at hl

theorem ofRange_eq (b : Bus) (start length : Int) :
    ofRange b start length =
      (b.dump start (2 * count (min (start + length) b.size) start)).map (ofBytes start) :=
  linesUpTo_eq b _ start

theorem exists_dump_of_ofRange {b : Bus} {start length : Int} {lines : List Line}
    (h : ofRange b start length = .ok lines) :
    ∃ bytes, b.dump start (2 * lines.length) = .ok bytes ∧ lines = ofBytes start bytes := by
  rw [ofRange_eq] at h
  cases hd : b.dump start (2 * count (min (start + length) b.size) start) with
  | error e =>
    rw [hd] at h
    cases h
  | ok bytes =>
    rw [hd] at h
    cases h
    rw [length_ofBytes (Bus.dump_eq_ok_iff.1 hd).1]
    exact ⟨bytes, hd, rfl⟩

end Listing

namespace Machine

open Listing

theorem run_listing (m : Machine) (start length : Int) :
    (listing start length).run m = ⟨m, (ofRange m.bus start length).mapError .bus, []⟩ := by
  unfold listing
  rw [Action.run_bind_of_ok (Action.run_get m)]
  rfl

/-- A range of mapped addresses is listed as one line for every two bytes up to the end of the range or
of the memory, without a trace. The words spell the bytes, and the texts alone give them away: another
machine whose listing shows the same texts holds the same bytes there. -/
theorem listing_loses_nothing (m : Machine) {start length : Int}
    (hm : ∀ a, start ≤ a → a < start + length → a < m.bus.size → m.bus.Mapped a) :
    ∃ lines bytes, (listing start length).run m = ⟨m, .ok lines, []⟩ ∧
      (lines.length : Int) = max 0 (min (start + length) m.bus.size - start) / 2 ∧
      lines.map Line.address = (List.range lines.length).map (fun (k : Nat) => start + 2 * k) ∧
      m.bus.dump start (2 * lines.length) = .ok bytes ∧
      String.join (lines.map (·.word.hex)) =
        String.join (bytes.map fun v => Text.Hex.fixed 2 v.toNat) ∧
      ∀ (m' : Machine) (lines' : List Line), ((listing start length).run m').result = .ok lines' →
        lines'.map Line.text = lines.map Line.text →
          m'.bus.dump start (2 * lines.length) = .ok bytes := by
  have hin : ∀ k < 2 * count (min (start + length) m.bus.size) start, m.bus.Mapped (start + k) := by
    intro k hk
    unfold count at hk
    exact hm (start + k) (by omega) (by omega) (by omega)
  obtain ⟨bytes, hd⟩ := Bus.exists_dump hin
  have hbytes : bytes.length = 2 * count (min (start + length) m.bus.size) start := (Bus.dump_eq_ok_iff.1 hd).1
  have hlines : (ofBytes start bytes).length = count (min (start + length) m.bus.size) start := length_ofBytes hbytes
  refine ⟨ofBytes start bytes, bytes, ?_, ?_, ?_, ?_, hex_ofBytes hbytes, ?_⟩
  · rw [run_listing, ofRange_eq, hd]
    rfl
  · rw [hlines]
    unfold count
    omega
  · rw [hlines]
    exact addresses_ofBytes hbytes
  · rw [hlines]
    exact hd
  · intro m' lines' hrun htext
    have hrange : ofRange m'.bus start length = .ok lines' := by
      rw [run_listing] at hrun
      cases hr : ofRange m'.bus start length with
      | ok ls =>
        rw [hr] at hrun
        cases hrun
        rfl
      | error e =>
        rw [hr] at hrun
        cases hrun
    obtain ⟨bytes', hd', rfl⟩ := exists_dump_of_ofRange hrange
    have hsame : (ofBytes start bytes').length = (ofBytes start bytes).length := by
      have hl := congrArg List.length htext
      rwa [List.length_map, List.length_map] at hl
    rw [hsame] at hd'
    rw [hd', bytes_eq_of_text_eq ((Bus.dump_eq_ok_iff.1 hd').1.trans (by rw [hlines])) hbytes htext]

/-- A machine with an instruction, data and half a word in its memory. -/
def halved : Machine := Deed.run (.loadRom [0x00, 0xE0, 0xF0, 0x00, 0x12]) (booted {} {})

theorem listing_loses_nothing_halved :
    (∀ a : Int, 0x200 ≤ a → a < 0x200 + 5 → a < halved.bus.size → halved.bus.Mapped a) ∧
      ∃ lines, (listing 0x200 5).run halved = ⟨halved, .ok lines, []⟩ ∧
        lines.map (fun l => (l.word.hex, l.text)) = [("00E0", "CLS"), ("F000", "DW $F000")] ∧
        ∀ (m' : Machine) (lines' : List Line), ((listing 0x200 5).run m').result = .ok lines' →
          lines'.map Line.text = ["CLS", "DW $F000"] →
            m'.bus.dump 0x200 4 = .ok [0x00, 0xE0, 0xF0, 0x00] := by
  have hreached : Reached {} {} halved := .act (.boot (boot_standard {} {})) _
  have hm : ∀ a : Int, 0x200 ≤ a → a < 0x200 + 5 → a < halved.bus.size → halved.bus.Mapped a :=
    fun a h₁ h₂ _ => hreached.fit.wellFormed.standard.mapped_iff.2 ⟨by omega, by omega⟩
  obtain ⟨lines, bytes, hrun, -, -, hdump, -, hback⟩ := listing_loses_nothing halved hm
  have hlines : ofRange halved.bus 0x200 5 = .ok [⟨0x200, 0x00E0⟩, ⟨0x202, 0xF000⟩] := by
    rw [ofRange_eq]
    decide +kernel
  have hbytes : halved.bus.dump 0x200 4 = .ok [0x00, 0xE0, 0xF0, 0x00] := by decide +kernel
  obtain rfl : lines = [⟨0x200, 0x00E0⟩, ⟨0x202, 0xF000⟩] := by
    have hresult := congrArg Outcome.result hrun
    rw [run_listing, hlines] at hresult
    exact (Except.ok.inj hresult).symm
  obtain rfl : bytes = [0x00, 0xE0, 0xF0, 0x00] := Except.ok.inj (hdump.symm.trans hbytes)
  refine ⟨hm, _, hrun, by decide +kernel, fun m' lines' hrun' htext => hback m' lines' hrun' ?_⟩
  rw [htext]
  decide +kernel

end Machine

end Chip8
