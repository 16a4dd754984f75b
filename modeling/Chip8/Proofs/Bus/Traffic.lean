import Chip8.Proofs.Bus.Bytes

/-!
# Traffic on a bus

`Trafficked b as c`: the reads and writes `as`, one after the other, lead from `b` to `c`. Each write
holds the byte that it found, so that traffic can be taken back: `unwrite` puts those bytes into place
again, the latest first, and comes to a bus like the one that the traffic began with
(`Trafficked.exists_unwrite`), also where writes were lost in a read-only device.
-/

namespace Chip8.Bus

/-- Two buses of one layout that show the same bytes. The accesses that they remember may differ. -/
structure Alike (b c : Bus) : Prop where
  layout_eq : b.layout = c.layout
  byte?_eq : ∀ a, b.byte? a = c.byte? a

namespace Alike
variable {b c d b' : Bus} {a v : Int}

theorem trans (h : b.Alike c) (h' : c.Alike d) : b.Alike d :=
  ⟨h.layout_eq.trans h'.layout_eq, fun a => (h.byte?_eq a).trans (h'.byte?_eq a)⟩

theorem withAccesses (b : Bus) (l : List Access) : b.Alike { b with accesses := l } :=
  ⟨rfl, fun _ => rfl⟩

end Alike

inductive Trafficked : Bus → List Access → Bus → Prop
  | refl (b : Bus) : Trafficked b [] b
  | read {b b' c : Bus} {a : Int} {n : UInt8} {as : List Access} (h : b.read a = .ok (n, b'))
    (t : Trafficked b' as c) : Trafficked b (.read a n :: as) c
  | write {b b' c : Bus} {a v : Int} {n : UInt8} {as : List Access} (h : b.write a v = .ok b')
    (hn : b.byte? a = some n) (t : Trafficked b' as c) : Trafficked b (.write a v n :: as) c

/-- Put the bytes that accesses overwrote back into place, the latest access first. -/
def unwrite (b : Bus) : List Access → Except Error Bus
  | [] => .ok b
  | .read .. :: rest => b.unwrite rest
  | .write a _ n :: rest => b.unwrite rest >>= fun b => b.load a n.toNat

theorem unwrite_write_eq_ok_iff {b b' : Bus} {a v : Int} {n : UInt8} {as : List Access} :
    b.unwrite (.write a v n :: as) = .ok b' ↔
      ∃ c, b.unwrite as = .ok c ∧ c.load a n.toNat = .ok b' := by
  rw [unwrite]
  cases b.unwrite as with
  | error e => exact ⟨nofun, fun ⟨_, h, _⟩ => nomatch h⟩
  | ok c => exact ⟨fun h => ⟨c, rfl, h⟩, fun ⟨_, hc, h⟩ => Except.ok.inj hc ▸ h⟩

theorem layout_unwrite {b b' : Bus} {as : List Access} (h : b.unwrite as = .ok b') :
    b'.layout = b.layout := by
  induction as generalizing b' with
  | nil => rw [Except.ok.inj h]
  | cons a as ih =>
    cases a with
    | read => exact ih h
    | write a v n =>
      obtain ⟨c, hc, hl⟩ := unwrite_write_eq_ok_iff.1 h
      rw [layout_load hl, ih hc]

theorem layout_read {b b' : Bus} {a : Int} {n : UInt8} (h : b.read a = .ok (n, b')) :
    b'.layout = b.layout := by
  obtain ⟨-, rfl⟩ := read_eq_ok_iff.1 h
  rfl

theorem byte?_read {b b' : Bus} {a : Int} {n : UInt8} (h : b.read a = .ok (n, b')) (x : Int) :
    b'.byte? x = b.byte? x := by
  obtain ⟨-, rfl⟩ := read_eq_ok_iff.1 h
  rfl

theorem byte?_write_of_rom {b b' : Bus} {a v x : Int} (h : b.write a v = .ok b')
    (hx : b.kind? x = some .rom) : b'.byte? x = b.byte? x := by
  rw [byte?_write h, if_neg]
  rintro ⟨hsame, hk⟩
  rw [hsame.kind?_eq, hx] at hk
  cases hk

namespace Trafficked
variable {b c d : Bus} {as bs : List Access}

theorem trans (t : Trafficked b as c) (t' : Trafficked c bs d) : Trafficked b (as ++ bs) d := by
  induction t with
  | refl b => exact t'
  | read h _ ih => exact .read h (ih t')
  | write h hn _ ih => exact .write h hn (ih t')

theorem layout_eq (t : Trafficked b as c) : c.layout = b.layout := by
  induction t with
  | refl b => rfl
  | read h _ ih => rw [ih, layout_read h]
  | write h _ _ ih => rw [ih, layout_write h]

theorem accesses_eq (t : Trafficked b as c) : c.accesses = b.accesses ++ as := by
  induction t with
  | refl b => simp
  | read h _ ih =>
    obtain ⟨-, rfl⟩ := read_eq_ok_iff.1 h
    simp [ih]
  | write h hn _ ih => simp [ih, accesses_write h hn]

theorem byte?_of_rom (t : Trafficked b as c) {a : Int} (ha : b.kind? a = some .rom) :
    c.byte? a = b.byte? a := by
  induction t with
  | refl b => rfl
  | read h _ ih => rw [ih (by rwa [kind?_congr (layout_read h)]), byte?_read h]
  | write h _ _ ih => rw [ih (by rwa [kind?_congr (layout_write h)]), byte?_write_of_rom h ha]

/-- What a lost write found is what is there all along. -/
theorem found_of_rom (t : Trafficked b as c) {a v : Int} {n : UInt8} (h : .write a v n ∈ as)
    (ha : b.kind? a = some .rom) : b.byte? a = some n := by
  induction t with
  | refl b => cases h
  | read hr _ ih =>
    rcases List.mem_cons.1 h with h | h
    · cases h
    · rw [← byte?_read hr a]
      exact ih h (by rwa [kind?_congr (layout_read hr)])
  | write hw hn _ ih =>
    rcases List.mem_cons.1 h with h | h
    · cases h
      exact hn
    · rw [← byte?_write_of_rom hw ha]
      exact ih h (by rwa [kind?_congr (layout_write hw)])

theorem exists_unwrite (t : Trafficked b as c) (h : c.Alike d) :
    ∃ d', d.unwrite as = .ok d' ∧ b.Alike d' ∧ d'.accesses = d.accesses := by
  induction t with
  | refl b => exact ⟨d, rfl, h, rfl⟩
  | read hr _ ih =>
    obtain ⟨d', hu, hd, ha⟩ := ih h
    exact ⟨d', hu, ⟨(layout_read hr).symm.trans hd.layout_eq,
      fun a => (byte?_read hr a).symm.trans (hd.byte?_eq a)⟩, ha⟩
  | @write b b' _ a v n _ hw hn _ ih =>
    -- the later accesses are taken back already, so that the cell of `a` holds `v` or, where it was
    -- lost, `n`
    obtain ⟨d', hu, hd, ha⟩ := ih h
    have hl : b.layout = d'.layout := (layout_write hw).symm.trans hd.layout_eq
    have hlt := n.toNat_lt
    obtain ⟨e, he⟩ := exists_load (b := d') (a := a) (v := n.toNat)
      ((mapped_congr hl a).1 (mapped_of_byte? hn)) (by omega)
    refine ⟨e, unwrite_write_eq_ok_iff.2 ⟨d', hu, he⟩, ⟨hl.trans (layout_load he).symm, fun x => ?_⟩,
      (accesses_load he).trans ha⟩
    rw [byte?_load he]
    by_cases hx : b.SameCell a x
    · rw [if_pos ((sameCell_congr hl a x).1 hx), ← hx.byte?_eq, hn]
      simp
    · rw [if_neg fun h => hx ((sameCell_congr hl a x).2 h), ← hd.byte?_eq x, byte?_write hw,
        if_neg fun h => hx h.1]

end Trafficked

end Chip8.Bus
