import Chip8.Screen.Frame

/-!
# Painting frames

Painting one cell changes the four bytes of that cell alone (`getElem?_paintCell`), and so painting a row
of cells changes each of them once (`getElem?_paint`). A frame of the wrong length is refused as it is;
in any other one every cell comes to show its color in place, whatever it showed before
(`renders_in_place`).
-/

namespace Chip8

namespace Color

def InRange (parts : List Int) : Prop := ∀ n ∈ parts, 0 ≤ n ∧ n ≤ 255

def toBytes (parts : List Int) : List UInt8 := parts.map fun n => UInt8.ofNat n.toNat

def ofBytes (bs : List UInt8) : List Int := bs.map fun n => n.toNat

variable {parts : List Int} {n : Int}

theorem bytes?_cons (n : Int) (parts : List Int) :
    bytes? (n :: parts) =
      (if 0 ≤ n ∧ n ≤ 255 then some (UInt8.ofNat n.toNat) else none).bind fun b =>
        (bytes? parts).map (b :: ·) := by
  unfold bytes?
  rw [List.mapM_cons]
  simp only [Option.map_eq_bind]
  rfl

theorem bytes?_of_inRange (h : InRange parts) : bytes? parts = some (toBytes parts) := by
  induction parts with
  | nil => rfl
  | cons n parts ih =>
    obtain ⟨hn, hr⟩ := List.forall_mem_cons.1 h
    rw [bytes?_cons, if_pos hn, Option.bind_some, ih hr]
    rfl

theorem bytes?_of_not_inRange (h : ¬ InRange parts) : bytes? parts = none := by
  induction parts with
  | nil => exact absurd (fun n hn => by cases hn) h
  | cons n parts ih =>
    rw [bytes?_cons]
    by_cases hn : 0 ≤ n ∧ n ≤ 255
    · rw [if_pos hn, Option.bind_some, ih fun hr => h (List.forall_mem_cons.2 ⟨hn, hr⟩)]
      rfl
    · rw [if_neg hn]
      rfl

@[simp] theorem length_toBytes (parts : List Int) : (toBytes parts).length = parts.length :=
  List.length_map _

theorem ofBytes_toBytes (h : InRange parts) : ofBytes (toBytes parts) = parts := by
  rw [ofBytes, toBytes, List.map_map]
  refine (List.map_congr_left fun n hn => ?_).trans (List.map_id parts)
  have := h n hn
  simp only [Function.comp_apply, UInt8.toNat_ofNat', id_eq]
  omega

end Color

namespace Screen

/-- The bytes that show the cell of this number. -/
def cellBytes (frame : List UInt8) (k : Nat) : List UInt8 :=
  (frame.drop (bytesPerCell * k)).take bytesPerCell

/-- Which cells of a frame show this color. -/
def cellsIn (color : List Int) (frame : List UInt8) : List Bool :=
  (List.range (frame.length / bytesPerCell)).map fun k => Color.ofBytes (cellBytes frame k) = color

variable {s : Screen} {color on off frame : List UInt8} {cells : List Bool} {i j k : Nat}

/-! ### One cell -/

theorem length_paintCell (hc : color.length = 4) (hk : 4 * (k + 1) ≤ frame.length) :
    (paintCell color k frame).length = frame.length := by
  simp only [paintCell, bytesPerCell, List.length_append, List.length_take, List.length_drop]
  omega

theorem getElem?_paintCell (hc : color.length = 4) (hk : 4 * (k + 1) ≤ frame.length) (i : Nat) :
    (paintCell color k frame)[i]? =
      if 4 * k ≤ i ∧ i < 4 * (k + 1) then color[i - 4 * k]? else frame[i]? := by
  have htake : (frame.take (4 * k)).length = 4 * k := by
    rw [List.length_take]
    omega
  rw [paintCell, bytesPerCell, List.append_assoc]
  by_cases hlow : i < 4 * k
  · rw [if_neg (by omega), List.getElem?_append_left (by omega), List.getElem?_take_of_lt hlow]
  · rw [List.getElem?_append_right (by omega), htake]
    by_cases hin : i < 4 * (k + 1)
    · rw [if_pos (by omega), List.getElem?_append_left (by omega)]
    · rw [if_neg (by omega), List.getElem?_append_right (by omega), List.getElem?_drop, hc]
      congr 1
      omega

/-! ### All cells -/

theorem length_paint (hon : on.length = 4) (hoff : off.length = 4)
    (hk : 4 * (k + cells.length) ≤ frame.length) :
    (paint on off k cells frame).length = frame.length := by
  induction cells generalizing k frame with
  | nil => rfl
  | cons lit cells ih =>
    rw [List.length_cons] at hk
    have hc : (if lit then on else off).length = 4 := by split <;> assumption
    rw [paint, ih (by rw [length_paintCell hc] <;> omega), length_paintCell hc (by omega)]

/-- The cells before the first one and behind the last one are left as they are. -/
theorem getElem?_paint (hon : on.length = 4) (hoff : off.length = 4)
    (hk : 4 * (k + cells.length) ≤ frame.length) (i : Nat) :
    (paint on off k cells frame)[i]? =
      if h : 4 * k ≤ i ∧ i < 4 * (k + cells.length) then
        (if cells[i / 4 - k] then on else off)[i % 4]?
      else frame[i]? := by
  induction cells generalizing k frame with
  | nil =>
    rw [dif_neg]
    · rfl
    · simp only [List.length_nil]
      omega
  | cons lit cells ih =>
    rw [List.length_cons] at hk
    have hc : (if lit then on else off).length = 4 := by split <;> assumption
    rw [paint, ih (by rw [length_paintCell hc] <;> omega), getElem?_paintCell hc (by omega)]
    -- the byte is in a later cell, in this one, or in none
    by_cases hlater : 4 * (k + 1) ≤ i ∧ i < 4 * (k + 1 + cells.length)
    · rw [dif_pos hlater, dif_pos (by rw [List.length_cons]; omega)]
      have hnext : i / 4 - k = (i / 4 - (k + 1)) + 1 := by omega
      simp only [hnext, List.getElem_cons_succ]
    · rw [dif_neg hlater]
      by_cases hthis : 4 * k ≤ i ∧ i < 4 * (k + 1)
      · rw [if_pos hthis, dif_pos (by rw [List.length_cons]; omega)]
        have hfirst : i / 4 - k = 0 := by omega
        have hplace : i - 4 * k = i % 4 := by omega
        simp only [hfirst, List.getElem_cons_zero, hplace]
      · rw [if_neg hthis, dif_neg (by rw [List.length_cons]; omega)]

theorem cellBytes_paint (hon : on.length = 4) (hoff : off.length = 4)
    (hf : frame.length = 4 * cells.length) (hk : k < cells.length) :
    cellBytes (paint on off 0 cells frame) k = if cells[k] then on else off := by
  have hc : (if cells[k] then on else off).length = 4 := by split <;> assumption
  refine List.ext_getElem? fun i => ?_
  rw [cellBytes, bytesPerCell]
  by_cases hi : i < 4
  · rw [List.getElem?_take_of_lt hi, List.getElem?_drop, getElem?_paint hon hoff (by omega),
      dif_pos (by omega)]
    have hcell : (4 * k + i) / 4 - 0 = k := by omega
    have hplace : (4 * k + i) % 4 = i := by omega
    simp only [hcell, hplace]
  · rw [List.getElem?_take, if_neg hi, List.getElem?_eq_none (by omega)]

/-! ### The screen -/

theorem length_pixels (s : Screen) : s.pixels.length = s.width * s.height := Vector.length_toList

theorem getElem_pixels (hk : k < s.pixels.length) (hk' : k < s.width * s.height) :
    s.pixels[k] = s.cells[k] := Vector.getElem_toList _

theorem run_render (s : Screen) (on off : List Int) (frame : List UInt8) :
    (s.render on off).run frame =
      if frame.length ≠ s.width * s.height * 4 then
        ⟨frame, .error (.screen (.badFrame (s.width * s.height * 4) frame.length)), []⟩
      else
        match Color.bytes? on, Color.bytes? off with
        | some on, some off => ⟨paint on off 0 s.pixels frame, .ok (), []⟩
        | _, _ => ⟨frame, .error (.screen .badColor), []⟩ := by
  rw [render, Action.run_bind_ok (Action.run_get frame)]
  have hn : s.width * s.height * bytesPerCell = s.width * s.height * 4 := rfl
  by_cases h : frame.length ≠ s.width * s.height * 4
  · rw [hn, if_pos h, if_pos h]
    rfl
  · rw [hn, if_neg h, if_neg h]
    cases Color.bytes? on with
    | none => cases Color.bytes? off <;> rfl
    | some on => cases Color.bytes? off <;> rfl

theorem run_render_of_inRange {on off : List Int} (h : frame.length = s.width * s.height * 4)
    (hon : Color.InRange on) (hoff : Color.InRange off) :
    (s.render on off).run frame =
      ⟨paint (Color.toBytes on) (Color.toBytes off) 0 s.pixels frame, .ok (), []⟩ := by
  rw [run_render, if_neg (not_not_intro h), Color.bytes?_of_inRange hon,
    Color.bytes?_of_inRange hoff]

theorem run_render_of_not_inRange {on off : List Int} (h : frame.length = s.width * s.height * 4)
    (hc : ¬ (Color.InRange on ∧ Color.InRange off)) :
    (s.render on off).run frame = ⟨frame, .error (.screen .badColor), []⟩ := by
  rw [run_render, if_neg (not_not_intro h)]
  by_cases hon : Color.InRange on
  · rw [Color.bytes?_of_inRange hon, Color.bytes?_of_not_inRange fun hoff => hc ⟨hon, hoff⟩]
  · rw [Color.bytes?_of_not_inRange hon]

/-- Rendering writes every cell in place, or leaves the frame alone. -/
structure RendersInPlace (s : Screen) : Prop where
  refused {frame : List UInt8} (h : frame.length ≠ s.width * s.height * 4) (on off : List Int) :
    (s.render on off).run frame =
      ⟨frame, .error (.screen (.badFrame (s.width * s.height * 4) frame.length)), []⟩
  painted {frame : List UInt8} (h : frame.length = s.width * s.height * 4) {on off : List Int}
    (hon : on.length = 4 ∧ Color.InRange on) (hoff : off.length = 4 ∧ Color.InRange off) :
    ∃ f, (s.render on off).run frame = ⟨f, .ok (), []⟩ ∧ f.length = frame.length ∧
      (∀ k (hk : k < s.width * s.height),
        Color.ofBytes (cellBytes f k) = if s.cells[k] then on else off) ∧
      (on ≠ off → cellsIn on f = s.pixels)

theorem renders_in_place (s : Screen) : s.RendersInPlace := by
  refine ⟨fun h on off => by rw [run_render, if_pos h], ?_⟩
  rintro frame h on off ⟨hon, hr⟩ ⟨hoff, hr'⟩
  rw [← Color.length_toBytes] at hon hoff
  have hf : frame.length = 4 * s.pixels.length := by
    rw [length_pixels]
    omega
  have hlen : (paint (Color.toBytes on) (Color.toBytes off) 0 s.pixels frame).length = frame.length :=
    length_paint hon hoff (by omega)
  have hcell (k : Nat) (hk : k < s.pixels.length) :
      Color.ofBytes (cellBytes (paint (Color.toBytes on) (Color.toBytes off) 0 s.pixels frame) k) =
        if s.pixels[k] then on else off := by
    rw [cellBytes_paint hon hoff hf hk, apply_ite Color.ofBytes, Color.ofBytes_toBytes hr,
      Color.ofBytes_toBytes hr']
  refine ⟨_, run_render_of_inRange h hr hr', hlen, fun k hk => ?_, fun hne => ?_⟩
  · rw [hcell k (by rwa [length_pixels]), getElem_pixels _ hk]
  refine List.ext_getElem ?_ fun k hk hk' => ?_
  · simp only [cellsIn, List.length_map, List.length_range, hlen, hf, bytesPerCell]
    omega
  · simp only [cellsIn, List.getElem_map, List.getElem_range, hcell k hk']
    cases s.pixels[k] with
    | true => simp
    | false => simpa using hne.symm

/-- Two cells, the right one lit, over whatever was there. -/
example : (((blank 2 1).invert 1).render [1, 2, 3, 4] [5, 6, 7, 8]).run (List.replicate 8 0xAA) =
    ⟨[5, 6, 7, 8, 1, 2, 3, 4], .ok (), []⟩ := rfl

end Screen

end Chip8
