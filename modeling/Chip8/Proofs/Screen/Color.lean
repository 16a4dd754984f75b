import Mathlib.Data.List.Forall2
import Chip8.Proofs.Screen.Frame
import Chip8.Proofs.Text.Integer

/-!
# Colors that can be shown

Two letters that are read as a part of a color stand for a number up to 255 (`part?_of_ne_minus`), unless
the first one is a minus: the reader of numbers takes a sign too, and `-1` is a part below zero
(`part?_minus`). A color with such a part is accepted as text, and no frame can be painted in it
(`accepted_colors_render_iff`).
-/

namespace Chip8

namespace Color

open Text.Integer (digitBelow?)

/-- The letters of a text that are to be parts of a color. -/
def lettersOf (t : Text) : List Letter := t.letters.dropWhile (· = .char '#')

def pairs : List Letter → List (Letter × Letter)
  | a :: b :: rest => (a, b) :: pairs rest
  | _ => []

/-- A minus and a digit other than zero. -/
def IsNegative (p : Letter × Letter) : Prop :=
  p.1 = .char '-' ∧ (digitBelow? 16 p.2.readable).any (· ≠ 0)

instance (p : Letter × Letter) : Decidable (IsNegative p) := inferInstanceAs (Decidable (_ ∧ _))

/-- Two letters that are read together are a negative number. -/
def HasNegative (t : Text) : Prop := ∃ p ∈ pairs (lettersOf t), IsNegative p

instance (t : Text) : Decidable (HasNegative t) := inferInstanceAs (Decidable (∃ p ∈ _, _))

variable {a b : Letter} {n : Int} {t : Text} {c : Color} {ps : List (Letter × Letter)} {ns : List Int}

/-! ### One part -/

theorem part?_eq_some_iff : part? a b = some n ↔ Text.Integer.parse 16 ⟨[a, b]⟩ = .ok n := by
  unfold part?
  cases Text.Integer.parse 16 ⟨[a, b]⟩ <;> simp [Except.toOption]

theorem part?_minus (b : Letter) :
    part? (.char '-') b = (digitBelow? 16 b.readable).map fun d : Nat => -(d : Int) := by
  have hdrop : Text.Integer.dropSign
      ((⟨[.char '-', b]⟩ : Text).readable.dropWhile Text.isBlank) = (true, [b.readable]) := rfl
  have hmark : Text.Integer.dropMark 16 [b.readable] = [b.readable] := rfl
  unfold part? Text.Integer.parse
  rw [hdrop]
  simp only [hmark, Text.Integer.digits?_singleton]
  cases digitBelow? 16 b.readable with
  | none => rfl
  | some d => simp [Text.Integer.ofDigits, Except.toOption]

theorem eq_minus_of_readable (h : a.readable = '-') : a = .char '-' := by
  cases a with
  | char c => exact congrArg Letter.char h
  | half n => exact absurd (show '\ufffd' = '-' from h) (by decide)

/-- Where a minus is taken off two letters and a digit is left, the minus is the first of them. -/
theorem eq_minus_of_dropSign {rest left : List Char} {ds : List Nat}
    (hr : (⟨[a, b]⟩ : Text).readable.dropWhile Text.isBlank = '-' :: rest)
    (hd : Text.Integer.digits? 16 (Text.Integer.dropMark 16 rest) = some (ds, left)) :
    a = .char '-' := by
  have hreadable : (⟨[a, b]⟩ : Text).readable = [a.readable, b.readable] := rfl
  rw [hreadable, List.dropWhile_cons] at hr
  split at hr
  · -- behind a blank the minus is the last letter, and no digit is left
    have hrest : rest = [] := by
      have hlen := (List.dropWhile_sublist Text.isBlank (l := [b.readable])).length_le
      rw [hr] at hlen
      simpa using hlen
    rw [hrest] at hd
    cases hd
  · exact eq_minus_of_readable (List.cons.inj hr).1

/-- Without a minus in front, two letters are a byte. -/
theorem part?_of_ne_minus (h : part? a b = some n) (ha : a ≠ .char '-') : 0 ≤ n ∧ n ≤ 255 := by
  obtain ⟨negative, cs, ds, left, hs, hd, rfl⟩ :=
    Text.Integer.exists_digits_of_parse (part?_eq_some_iff.1 h)
  rcases Text.Integer.dropSign_cases ((⟨[a, b]⟩ : Text).readable.dropWhile Text.isBlank) with
    ⟨rest, hrest, hs'⟩ | ⟨hs', hle⟩
  · rw [hs] at hs'
    cases hs'
    exact absurd (eq_minus_of_dropSign hrest hd) ha
  · rw [hs] at hs' hle
    cases hs'
    have htwo : ((⟨[a, b]⟩ : Text).readable.dropWhile Text.isBlank).length ≤ 2 :=
      (List.dropWhile_sublist _).length_le
    have hlen : ds.length ≤ 2 := calc
      ds.length ≤ (Text.Integer.dropMark 16 cs).length := Text.Integer.length_digits?_le hd
      _ ≤ cs.length := Text.Integer.length_dropMark_le 16 cs
      _ ≤ 2 := Nat.le_trans hle htwo
    have hlt : Text.Integer.ofDigits 16 ds < 16 ^ 2 := Nat.lt_of_lt_of_le
      (Text.Integer.ofDigits_lt (Text.Integer.lt_of_digits? hd))
      (Nat.pow_le_pow_right (by omega) hlen)
    simp only [Bool.false_eq_true, if_false]
    omega

theorem part?_bounds (h : part? a b = some n) : -15 ≤ n ∧ n ≤ 255 := by
  by_cases ha : a = .char '-'
  · subst ha
    rw [part?_minus] at h
    obtain ⟨d, hd, rfl⟩ := Option.map_eq_some_iff.1 h
    have := Text.Integer.lt_of_digitBelow? hd
    omega
  · have := part?_of_ne_minus h ha
    omega

theorem part?_neg_iff (h : part? a b = some n) : n < 0 ↔ IsNegative (a, b) := by
  by_cases ha : a = .char '-'
  · subst ha
    rw [part?_minus] at h
    obtain ⟨d, hd, rfl⟩ := Option.map_eq_some_iff.1 h
    simp only [IsNegative, hd, true_and, Option.any_some, decide_eq_true_eq]
    omega
  · have := part?_of_ne_minus h ha
    simp only [IsNegative, ha, false_and, iff_false]
    omega

/-! ### All parts -/

/-- Each part is what a pair of letters is read as. -/
def Reads (ps : List (Letter × Letter)) (ns : List Int) : Prop :=
  List.Forall₂ (fun p n => part? p.1 p.2 = some n) ps ns

theorem Reads.bounds (h : Reads ps ns) : ∀ n ∈ ns, -15 ≤ n ∧ n ≤ 255 := by
  induction h with
  | nil => simp
  | cons hp _ ih => exact List.forall_mem_cons.2 ⟨part?_bounds hp, ih⟩

theorem Reads.exists_neg_iff (h : Reads ps ns) : (∃ n ∈ ns, n < 0) ↔ ∃ p ∈ ps, IsNegative p := by
  induction h with
  | nil => simp
  | cons hp _ ih => simp only [List.exists_mem_cons_iff, part?_neg_iff hp, ih]

theorem Reads.inRange_iff (h : Reads ps ns) : InRange ns ↔ ¬ ∃ p ∈ ps, IsNegative p := by
  rw [← h.exists_neg_iff]
  constructor
  · rintro hr ⟨n, hn, hneg⟩
    have := hr n hn
    omega
  · intro hneg n hn
    have := h.bounds n hn
    refine ⟨?_, this.2⟩
    exact Int.not_lt.1 fun hlt => hneg ⟨n, hn, hlt⟩

theorem pairs_append {ls : List Letter} (h : ls.length % 2 = 0) (ms : List Letter) :
    pairs (ls ++ ms) = pairs ls ++ pairs ms := by
  induction ls using pairs.induct with
  | case1 a b rest ih =>
    have hrest : rest.length % 2 = 0 := by
      simp only [List.length_cons] at h
      omega
    rw [List.cons_append, List.cons_append, pairs, ih hrest, pairs, List.cons_append]
  | case2 ls hls =>
    match ls with
    | [] => rfl
    | [a] => simp at h
    | a :: b :: rest => exact absurd rfl (hls a b rest)

/-- An accepted text has a pair of letters for each part, but the one for the opacity may be left out. -/
theorem exists_reads_of_parse? (h : parse? t = some c) :
    ∃ extra, Reads (pairs (lettersOf t) ++ extra) c.parts ∧ ∀ p ∈ extra, ¬ IsNegative p := by
  unfold parse? at h
  dsimp only at h
  split at h
  · rename_i a b c d e f g i heq
    simp only [Option.bind_eq_bind, Option.bind_eq_some_iff] at h
    obtain ⟨red, hred, green, hgreen, blue, hblue, alpha, halpha, hc⟩ := h
    cases hc
    have hreads : Reads (pairs [a, b, c, d, e, f, g, i]) [red, green, blue, alpha] :=
      .cons hred (.cons hgreen (.cons hblue (.cons halpha .nil)))
    rw [← heq] at hreads
    split at hreads
    · rename_i hlen
      refine ⟨[(.char 'F', .char 'F')], ?_, by decide⟩
      rwa [pairs_append (by rw [hlen])] at hreads
    · exact ⟨[], by rwa [List.append_nil], by simp⟩
  · cases h

/-- A text is accepted with parts below zero, and it is so for the sake of a minus alone. -/
theorem inRange_iff (h : parse? t = some c) : InRange c.parts ↔ ¬ HasNegative t := by
  obtain ⟨extra, hreads, hextra⟩ := exists_reads_of_parse? h
  rw [hreads.inRange_iff, HasNegative]
  refine not_congr ⟨?_, fun ⟨p, hp, hneg⟩ => ⟨p, List.mem_append_left _ hp, hneg⟩⟩
  rintro ⟨p, hp, hneg⟩
  rcases List.mem_append.1 hp with hp | hp
  · exact ⟨p, hp, hneg⟩
  · exact absurd hneg (hextra p hp)

theorem bounds_of_parse? (h : parse? t = some c) : ∀ n ∈ c.parts, -15 ≤ n ∧ n ≤ 255 := by
  obtain ⟨extra, hreads, -⟩ := exists_reads_of_parse? h
  exact hreads.bounds

end Color

namespace Screen

/-- What becomes of two texts that are to be the colors of a screen. A text may be refused; an accepted one
has parts up to 255, and below zero by a minus alone. -/
structure RendersAccepted (s : Screen) (t u : Text) : Prop where
  accepted {on : Color} (ht : Color.parse? t = some on) :
    (∀ n ∈ on.parts, -15 ≤ n ∧ n ≤ 255) ∧ (Color.InRange on.parts ↔ ¬ Color.HasNegative t)
  renders_iff {on off : Color} (ht : Color.parse? t = some on) (hu : Color.parse? u = some off)
    {frame : List UInt8} (hf : frame.length = s.width * s.height * 4) :
    (∃ f, (s.render on.parts off.parts).run frame = ⟨f, .ok (), []⟩) ↔
      ¬ Color.HasNegative t ∧ ¬ Color.HasNegative u
  fails {on off : Color} (ht : Color.parse? t = some on) (hu : Color.parse? u = some off)
    {frame : List UInt8} (hf : frame.length = s.width * s.height * 4)
    (hneg : Color.HasNegative t ∨ Color.HasNegative u) :
    (s.render on.parts off.parts).run frame = ⟨frame, .error (.screen .badColor), []⟩

theorem accepted_colors_render_iff (s : Screen) (t u : Text) : s.RendersAccepted t u := by
  refine ⟨fun ht => ⟨Color.bounds_of_parse? ht, Color.inRange_iff ht⟩, ?_, ?_⟩
  · intro on off ht hu frame hf
    rw [← Color.inRange_iff ht, ← Color.inRange_iff hu]
    constructor
    · rintro ⟨f, hr⟩
      by_contra hc
      rw [run_render_of_not_inRange hf hc] at hr
      cases hr
    · rintro ⟨hon, hoff⟩
      exact ⟨_, run_render_of_inRange hf hon hoff⟩
  · intro on off ht hu frame hf hneg
    refine run_render_of_not_inRange hf fun ⟨hon, hoff⟩ => ?_
    rcases hneg with hneg | hneg
    · exact (Color.inRange_iff ht).1 hon hneg
    · exact (Color.inRange_iff hu).1 hoff hneg

/-- A minus in an accepted color, in which no frame can be painted. -/
example : Color.HasNegative "-1-1-1" ∧ Color.parse? "-1-1-1" = some ⟨-1, -1, -1, 255⟩ := by decide

end Screen

end Chip8
