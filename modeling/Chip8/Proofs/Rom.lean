import Chip8.Proofs.Bus.Call
import Chip8.Proofs.Machine.Standard
import Chip8.Rom

/-!
# Loading programs

`b.Copied s data c`: the bus `c` is `b` with `data` loaded from the address `s` on. Where no other address
leads to the cells of these, the data then stands in memory as it is and everything else is as before
(`Copied.verbatim`); where one device stands in several places, a later byte can take the cell of an
earlier one (`Loader.load_overwrites_mirrored`). `Loading` lists the ways in which a load can end: the
program is refused before anything is copied, or the copy comes to an address that is not mapped, or
the whole program is copied (`Loader.copies_verbatim`).
-/

namespace Chip8

namespace Bus

variable {b c : Bus} {s : Int} {data : List UInt8}

/-- The data was loaded from the address `s` on, and nothing was recorded. -/
structure Copied (b : Bus) (s : Int) (data : List UInt8) (c : Bus) : Prop where
  /-- A cell that several of the addresses lead to holds the last of their bytes. -/
  byte?_of_last {x : Int} {k : Nat} (hk : k < data.length) (hx : b.SameCell (s + k) x)
    (hlast : ∀ j, k < j → j < data.length → ¬ b.SameCell (s + j) x) : c.byte? x = data[k]?
  byte?_of_not_sameCell {x : Int} (h : ∀ k < data.length, ¬ b.SameCell (s + k) x) :
    c.byte? x = b.byte? x
  layout_eq : c.layout = b.layout
  accesses_eq : c.accesses = b.accesses

/-- The data stands in memory as it is, and nothing else is changed or recorded. -/
structure Verbatim (b : Bus) (s : Int) (data : List UInt8) (c : Bus) : Prop where
  dump_eq : c.dump s data.length = .ok data
  byte?_eq {x : Int} (h : ¬ (s ≤ x ∧ x < s + data.length)) : c.byte? x = b.byte? x
  layout_eq : c.layout = b.layout
  accesses_eq : c.accesses = b.accesses

/-- Of all addresses, these alone lead to their cells. -/
def OwnCells (b : Bus) (s : Int) (n : Nat) : Prop := ∀ k < n, ∀ x, b.SameCell (s + k) x → x = s + k

theorem Unshared.ownCells (h : b.Unshared) (s : Int) (n : Nat) : b.OwnCells s n :=
  fun _ _ _ hx => (hx.eq h).symm

theorem copied_loadAll (h : (b.loadAll s data).2 = .ok ()) : b.Copied s data (b.loadAll s data).1 where
  byte?_of_last := byte?_loadAll_of_last h
  byte?_of_not_sameCell := byte?_loadAll_of_not_sameCell h
  layout_eq := layout_loadAll ..
  accesses_eq := accesses_loadAll ..

theorem Copied.verbatim (h : b.Copied s data c) (hm : ∀ k < data.length, b.Mapped (s + k))
    (hs : b.OwnCells s data.length) : b.Verbatim s data c where
  dump_eq := by
    refine dump_eq_ok_iff.2 ⟨rfl, fun k hk => ?_⟩
    refine h.byte?_of_last hk (.refl (hm k hk)) fun j hkj hj hsame => ?_
    have := hs j hj _ hsame
    omega
  byte?_eq {x} hx := by
    refine h.byte?_of_not_sameCell fun k hk hsame => hx ?_
    have := hs k hk x hsame
    omega
  layout_eq := h.layout_eq
  accesses_eq := h.accesses_eq

end Bus

namespace Loader

variable {l : Loader} {data : List UInt8} {b : Bus} {x : Error}

/-- All that a load can come to. -/
inductive Loading (l : Loader) (data : List UInt8) (b : Bus) : Outcome Bus Nat → Prop
  | refused {x : Error} (h : l.check data = .error x) : Loading l data b ⟨b, .error x, []⟩
  /-- There is no memory for the byte of this number, which is the first such byte. -/
  | brokeOff {k : Nat} {c : Bus} (h : l.check data = .ok ()) (hk : k < data.length)
    (hbefore : ∀ j < k, b.Mapped (l.start + j)) (hm : ¬ b.Mapped (l.start + k))
    (hc : b.Copied l.start (data.take k) c) :
    Loading l data b ⟨c, .error (.bus (.unmapped (l.start + k))), []⟩
  | loaded {c : Bus} (h : l.check data = .ok ()) (hm : ∀ k < data.length, b.Mapped (l.start + k))
    (hc : b.Copied l.start data c) :
    Loading l data b ⟨c, .ok data.length, [.loaded data.length l.start]⟩

/-! ### What is refused -/

theorem check_eq_ok_iff : l.check data = .ok () ↔ data ≠ [] ∧ data.length ≤ l.capacity := by
  unfold check
  rcases data with _ | ⟨n, data⟩
  · simp
  · simp

theorem check_eq_error_iff :
    l.check data = .error x ↔
      (x = .emptyRom ∧ data = []) ∨
        x = .romTooLarge data.length l.capacity ∧ data ≠ [] ∧ l.capacity < data.length := by
  unfold check
  rcases data with _ | ⟨n, data⟩
  · simp [eq_comm]
  · by_cases h : l.capacity < (data.length : Int) + 1
    · simp [h, eq_comm]
    · simp [h]

theorem run_load_of_refused (h : l.check data = .error x) : (l.load data).run b = ⟨b, .error x, []⟩ :=
  Action.run_bind_error (by rw [h]; rfl) _

/-! ### What is copied -/

theorem run_load_of_loadAll {c : Bus} {r : Except Bus.Error Unit} (h : l.check data = .ok ())
    (hl : b.loadAll l.start data = (c, r)) :
    (l.load data).run b = match r with
      | .ok () => ⟨c, .ok data.length, [.loaded data.length l.start]⟩
      | .error e => ⟨c, .error (.bus e), []⟩ := by
  unfold load
  rw [h, Action.run_bind_of_ok (Action.run_lift ..), Action.run_bind]
  simp only [hl]
  cases r <;> rfl

theorem loading (l : Loader) (data : List UInt8) (b : Bus) : Loading l data b ((l.load data).run b) := by
  cases h : l.check data with
  | error x =>
    rw [run_load_of_refused h]
    exact .refused h
  | ok =>
    by_cases hm : ∀ k < data.length, b.Mapped (l.start + k)
    · have hl := Bus.loadAll_ok hm
      rw [run_load_of_loadAll h (Prod.ext (y := (_, .ok ())) rfl hl)]
      exact .loaded h hm (Bus.copied_loadAll hl)
    · simp only [Classical.not_forall] at hm
      obtain ⟨k, hk, hm⟩ := hm
      obtain ⟨j, hj, hbefore, hm, hl⟩ := Bus.exists_loadAll_error hk hm
      have hlen : (data.take j).length = j := by simp; omega
      have hc : (b.loadAll l.start (data.take j)).2 = .ok () := Bus.loadAll_ok (by rwa [hlen])
      rw [run_load_of_loadAll h hl]
      exact .brokeOff h hj hbefore hm (Bus.copied_loadAll hc)

/-! ### Programs in files -/

theorem run_loadFile_of_error {files : Files} {path : Path} {e : Files.Error}
    (h : files.read path = .error e) : (l.loadFile files path).run b = ⟨b, .error (.file e), []⟩ :=
  Action.run_bind_error (by rw [h]; rfl) _

theorem run_loadFile_of_ok {files : Files} {path : Path} (h : files.read path = .ok data) :
    (l.loadFile files path).run b =
      ⟨((l.load data).run b).state, ((l.load data).run b).result,
        .readingRom path.toText :: ((l.load data).run b).notices⟩ := by
  have hread : (Action.lift ((files.read path).mapError .file) : Action Bus _).run b =
      ⟨b, .ok data, []⟩ := by
    rw [h]
    rfl
  unfold loadFile
  rw [Action.run_bind_of_ok hread, Action.run_bind_ok (Action.run_report ..)]
  rfl

/-! ### The program in memory -/

/-- A program is refused for being empty or too large, and for these causes alone; or it is copied, wherever
there is memory for it, and stands there as it is if no other address leads to its cells. -/
structure CopiesVerbatim (l : Loader) (data : List UInt8) (b : Bus) : Prop where
  empty_iff : ((l.load data).run b).result = .error .emptyRom ↔ data = []
  tooLarge_iff {size : Nat} {capacity : Int} :
    ((l.load data).run b).result = .error (.romTooLarge size capacity) ↔
      (data ≠ [] ∧ l.capacity < data.length) ∧ size = data.length ∧ capacity = l.capacity
  refused (h : data = [] ∨ l.capacity < data.length) : ((l.load data).run b).state = b
  loaded (hd : data ≠ []) (hl : data.length ≤ l.capacity)
    (hm : ∀ k < data.length, b.Mapped (l.start + k)) :
    ((l.load data).run b).result = .ok data.length ∧
      b.Copied l.start data ((l.load data).run b).state ∧
      (b.OwnCells l.start data.length → b.Verbatim l.start data ((l.load data).run b).state)
  standard (hl : l = {}) (hb : b.Standard) (h₁ : 1 ≤ data.length) (h₂ : data.length ≤ 0xE00) :
    ((l.load data).run b).result = .ok data.length ∧
      b.Verbatim 0x200 data ((l.load data).run b).state ∧
      ∀ a, 0 ≤ a → a < 80 → ((l.load data).run b).state.byte? a = b.byte? a

theorem result_of_loaded {o : Outcome Bus Nat} (h : Loading l data b o) (hd : data ≠ [])
    (hl : data.length ≤ l.capacity) (hm : ∀ k < data.length, b.Mapped (l.start + k)) :
    o.result = .ok data.length ∧ b.Copied l.start data o.state := by
  cases h with
  | refused h =>
    rw [check_eq_ok_iff.2 ⟨hd, hl⟩] at h
    cases h
  | brokeOff _ hk _ hm' => exact absurd (hm _ hk) hm'
  | loaded _ _ hc => exact ⟨rfl, hc⟩

theorem copies_verbatim (l : Loader) (data : List UInt8) (b : Bus) : l.CopiesVerbatim data b := by
  have h := l.loading data b
  refine ⟨?_, ?_, ?_, ?_, ?_⟩
  all_goals generalize (l.load data).run b = o at h
  · cases h with
    | @refused x h =>
      rcases check_eq_error_iff.1 h with ⟨rfl, rfl⟩ | ⟨rfl, hd, -⟩
      · simp
      · simp [hd]
    | brokeOff h => simp [(check_eq_ok_iff.1 h).1]
    | loaded h => simp [(check_eq_ok_iff.1 h).1]
  · intro size capacity
    cases h with
    | @refused x h =>
      rcases check_eq_error_iff.1 h with ⟨rfl, rfl⟩ | ⟨rfl, hd, hl⟩
      · simp
      · simp [hd, hl, eq_comm]
    | brokeOff h => simp [Int.not_lt.2 (check_eq_ok_iff.1 h).2]
    | loaded h => simp [Int.not_lt.2 (check_eq_ok_iff.1 h).2]
  · rintro hd
    cases h with
    | refused => rfl
    | brokeOff h | loaded h =>
      obtain ⟨hne, hle⟩ := check_eq_ok_iff.1 h
      rcases hd with hd | hd
      · exact absurd hd hne
      · exact absurd hle (Int.not_le.2 hd)
  · intro hd hl hm
    obtain ⟨hr, hc⟩ := result_of_loaded h hd hl hm
    exact ⟨hr, hc, hc.verbatim hm⟩
  · rintro rfl hb h₁ h₂
    have hm : ∀ k < data.length, b.Mapped (({} : Loader).start + k) := fun k hk =>
      hb.mapped_program (by omega)
    have hne : data ≠ [] := fun hd => by simp [hd] at h₁
    obtain ⟨hr, hc⟩ := result_of_loaded h hne (by show (data.length : Int) ≤ 0xE00; omega) hm
    have hv := hc.verbatim hm (hb.unshared.ownCells _ _)
    refine ⟨hr, hv, fun a h₀ ha => hv.byte?_eq ?_⟩
    show ¬ ((0x200 : Int) ≤ a ∧ _)
    omega

/-- Two bytes of writable memory, at two addresses each. -/
def mirrored : Bus :=
  ({} : Bus).calls [.register 0x200 0x201 (some (.blank .ram 2)), .place 0x202 0x203 0]

def loadMirrored (data : List UInt8) : Outcome Bus Nat := (({} : Loader).load data).run mirrored

/-- The second half of a program takes the cells of the first one, and a program that fits into the first
range is seen in the second one, too. -/
theorem load_overwrites_mirrored :
    (∀ k : Nat, k < 4 → mirrored.Mapped (0x200 + k)) ∧
      (loadMirrored [1, 2, 3, 4]).result = .ok 4 ∧
      (loadMirrored [1, 2, 3, 4]).state.dump 0x200 4 = .ok [3, 4, 3, 4] ∧
      (loadMirrored [1, 2]).result = .ok 2 ∧
      mirrored.byte? 0x202 = some 0 ∧ (loadMirrored [1, 2]).state.byte? 0x202 = some 1 := by
  refine ⟨by decide +kernel, rfl, rfl, rfl, rfl, rfl⟩

end Loader

end Chip8
