import Chip8.Proofs.Bus.Layout

/-!
# The bytes on a bus

A bus is a memory: `byte?` at an address changes only by a write or a load at an address that leads to the
same cell, and a write to a read-only device changes nothing. The layout is changed by registrations alone.
-/

namespace Chip8.Bus

variable {b b' : Bus} {a v : Int} {k : Nat} {o : Int}

/-! ### Looking at a byte -/

theorem byte?_eq_cell? (h : b.resolve a = .ok (k, o)) : b.byte? a = (b.device k).cell? o := by
  unfold byte? peek Device.cell?
  rw [h]
  show (((b.device k).read o).mapError Error.device).toOption = ((b.device k).read o).toOption
  cases (b.device k).read o <;> rfl

theorem peek_of_not_mapped (h : ¬ b.Mapped a) : b.peek a = .error (.unmapped a) := by
  unfold peek
  rw [resolve_eq_error_iff.2 ⟨h, rfl⟩]
  rfl

theorem isSome_byte?_iff : (b.byte? a).isSome ↔ b.Mapped a := by
  constructor
  · intro h
    refine Classical.byContradiction fun hm => ?_
    unfold byte? at h
    rw [peek_of_not_mapped hm] at h
    cases h
  · intro h
    obtain ⟨k, o, hr⟩ := exists_resolve h
    rw [byte?_eq_cell? hr]
    exact Device.isSome_cell?_iff.2 (lt_of_resolve hr)

theorem exists_byte? (h : b.Mapped a) : ∃ n, b.byte? a = some n :=
  Option.isSome_iff_exists.1 (isSome_byte?_iff.2 h)

theorem mapped_of_byte? {n : UInt8} (h : b.byte? a = some n) : b.Mapped a :=
  isSome_byte?_iff.1 (by rw [h]; rfl)

theorem byte?_of_not_mapped (h : ¬ b.Mapped a) : b.byte? a = none := by
  rw [← Option.not_isSome_iff_eq_none, isSome_byte?_iff]
  exact h

theorem peek_eq_ok_iff {n : UInt8} : b.peek a = .ok n ↔ b.byte? a = some n := by
  unfold byte?
  cases b.peek a <;> simp [Except.toOption]

theorem SameCell.byte?_eq {x : Int} (h : b.SameCell a x) : b.byte? a = b.byte? x := by
  obtain ⟨k, o, hr⟩ := exists_resolve h.1
  rw [byte?_eq_cell? hr, byte?_eq_cell? (h.2 ▸ hr)]

/-! ### Changing a device -/

theorem device_set (b : Bus) {k : Nat} (hk : k < b.devices.length) (d : Device) (j : Nat) :
    ({ b with devices := b.devices.set k d } : Bus).device j = if k = j then d else b.device j := by
  unfold device
  rw [List.getD_eq_getElem?_getD, List.getD_eq_getElem?_getD, List.getElem?_set]
  by_cases hj : k = j
  · subst hj
    simp [hk]
  · simp [hj]

/-- A bus keeps its layout as long as its devices keep their shapes. -/
theorem layout_of_sameShape (hp : b'.placements = b.placements)
    (hd : ∀ k, (b.device k).SameShape (b'.device k)) : b'.layout = b.layout := by
  unfold layout
  rw [hp]
  refine List.map_congr_left fun p _ => ?_
  obtain ⟨hk, hs⟩ := hd p.device
  simp [slot, hk, hs]

section update

variable {f : Device → Int → Except Device.Error Device}

theorem update_eq_ok_iff : b.update a f = .ok b' ↔
    ∃ k o d, b.resolve a = .ok (k, o) ∧ f (b.device k) o = .ok d ∧
      b' = { b with devices := b.devices.set k d } := by
  unfold update
  cases hr : b.resolve a with
  | error e => exact ⟨nofun, fun ⟨_, _, _, h, _⟩ => nomatch h⟩
  | ok c =>
    obtain ⟨k, o⟩ := c
    show ((f (b.device k) o).mapError Error.device >>= fun d => .ok _) = .ok b' ↔ _
    cases hf : f (b.device k) o with
    | error e =>
      refine ⟨nofun, ?_⟩
      rintro ⟨_, _, _, h, hd, -⟩
      cases h
      rw [hf] at hd
      cases hd
    | ok d =>
      constructor
      · intro h
        cases h
        exact ⟨k, o, d, rfl, hf, rfl⟩
      · rintro ⟨_, _, _, h, hd, rfl⟩
        cases h
        rw [hf] at hd
        cases hd
        rfl

theorem update_of_not_mapped (h : ¬ b.Mapped a) : b.update a f = .error (.unmapped a) := by
  unfold update
  rw [resolve_eq_error_iff.2 ⟨h, rfl⟩]
  rfl

theorem update_of_error {e : Device.Error} (h : b.resolve a = .ok (k, o))
    (hf : f (b.device k) o = .error e) : b.update a f = .error (.device e) := by
  unfold update
  rw [h]
  show ((f (b.device k) o).mapError Error.device >>= fun d => .ok _) = _
  rw [hf]
  rfl

theorem accesses_update (h : b.update a f = .ok b') : b'.accesses = b.accesses := by
  obtain ⟨k, o, d, -, -, rfl⟩ := update_eq_ok_iff.1 h
  rfl

/-- An update keeps to the devices that there are. -/
theorem devices_update (h : b.update a f = .ok b') :
    b'.placements = b.placements ∧ b'.devices.length = b.devices.length := by
  obtain ⟨k, o, d, -, -, rfl⟩ := update_eq_ok_iff.1 h
  exact ⟨rfl, List.length_set⟩

theorem layout_update (hf : ∀ d o d', f d o = .ok d' → d.SameShape d') (h : b.update a f = .ok b') :
    b'.layout = b.layout := by
  obtain ⟨k, o, d, hr, hd, rfl⟩ := update_eq_ok_iff.1 h
  refine layout_of_sameShape rfl fun j => ?_
  rw [device_set b (number_lt_of_resolve hr)]
  split
  · rename_i hj
    exact hj ▸ hf _ _ _ hd
  · exact ⟨rfl, rfl⟩

/-- What happens to one cell of a device shows at all addresses of the cell, and at no other one. -/
theorem byte?_update {q : Device.Kind → Prop} [DecidablePred q] {n : UInt8}
    (hs : ∀ d o d', f d o = .ok d' → d.SameShape d')
    (hf : ∀ d o d', f d o = .ok d' → ∀ y, d'.cell? y = if y = o ∧ q d.kind then some n else d.cell? y)
    (h : b.update a f = .ok b') (x : Int) :
    b'.byte? x = if b.SameCell a x ∧ (b.kind? a).any (q ·) then some n else b.byte? x := by
  have hl := layout_update hs h
  obtain ⟨k, o, d, hr, hd, rfl⟩ := update_eq_ok_iff.1 h
  have hm := mapped_of_resolve hr
  by_cases hx : b.Mapped x
  · obtain ⟨j, y, hxr⟩ := exists_resolve hx
    rw [byte?_eq_cell? hxr, byte?_eq_cell? ((resolve_congr hl x).trans hxr),
      device_set b (number_lt_of_resolve hr), kind?_of_resolve hr]
    have hsame : b.SameCell a x ↔ k = j ∧ y = o := by
      unfold SameCell
      rw [hr, hxr]
      simp [hm, eq_comm]
    simp only [hsame]
    by_cases hk : k = j
    · subst hk
      rw [if_pos rfl, hf _ _ _ hd]
      simp
    · rw [if_neg hk, if_neg fun h => hk h.1.1]
  · have hnot : ¬ b.SameCell a x := fun h => hx h.mapped
    rw [if_neg fun h => hnot h.1, byte?_of_not_mapped hx,
      byte?_of_not_mapped fun h => hx ((mapped_congr hl x).1 h)]

end update

/-! ### Reads -/

theorem read_eq_ok_iff {n : UInt8} :
    b.read a = .ok (n, b') ↔
      b.byte? a = some n ∧ b' = { b with accesses := b.accesses ++ [.read a n] } := by
  rw [← peek_eq_ok_iff]
  unfold read
  cases b.peek a with
  | ok m =>
    constructor
    · intro h
      cases h
      exact ⟨rfl, rfl⟩
    · rintro ⟨h, rfl⟩
      cases h
      rfl
  | error e => exact ⟨nofun, fun h => nomatch h.1⟩

theorem exists_read (hm : b.Mapped a) : ∃ n b', b.read a = .ok (n, b') ∧ b.byte? a = some n := by
  obtain ⟨n, hn⟩ := exists_byte? hm
  exact ⟨n, _, read_eq_ok_iff.2 ⟨hn, rfl⟩, hn⟩

/-! ### Loads -/

theorem exists_load (hm : b.Mapped a) (hv : 0 ≤ v ∧ v ≤ 0xFF) : ∃ b', b.load a v = .ok b' := by
  obtain ⟨k, o, hr⟩ := exists_resolve hm
  exact ⟨_, update_eq_ok_iff.2 ⟨k, o, _, hr, Device.put_eq_ok_iff.2 ⟨lt_of_resolve hr, hv, rfl⟩, rfl⟩⟩

theorem accesses_load (h : b.load a v = .ok b') : b'.accesses = b.accesses := accesses_update h

theorem layout_load (h : b.load a v = .ok b') : b'.layout = b.layout :=
  layout_update (fun _ _ _ => Device.sameShape_put) h

theorem byte?_load (h : b.load a v = .ok b') (x : Int) :
    b'.byte? x = if b.SameCell a x then some (UInt8.ofNat v.toNat) else b.byte? x := by
  obtain ⟨k, o, d, hr, -⟩ := update_eq_ok_iff.1 h
  rw [byte?_update (q := fun _ => True) (n := UInt8.ofNat v.toNat) (fun _ _ _ => Device.sameShape_put)
    (fun _ _ _ h y => by simpa using Device.cell?_put h y) h x, kind?_of_resolve hr]
  simp

theorem byte?_load_of_unshared (hb : b.Unshared) (h : b.load a v = .ok b') (x : Int) :
    b'.byte? x = if x = a then some (UInt8.ofNat v.toNat) else b.byte? x := by
  obtain ⟨k, o, d, hr, -⟩ := update_eq_ok_iff.1 h
  have hsame : b.SameCell a x ↔ x = a := by
    rw [sameCell_iff_of_unshared hb, and_iff_right (mapped_of_resolve hr), eq_comm]
  simp only [byte?_load h, hsame]

/-! ### Writes -/

theorem write_eq_ok_iff :
    b.write a v = .ok b' ↔ ∃ n c, b.byte? a = some n ∧
      b.update a (fun d o => d.write o v) = .ok c ∧
      b' = { c with accesses := c.accesses ++ [.write a v n] } := by
  unfold write
  simp only [← peek_eq_ok_iff]
  cases b.peek a with
  | ok n =>
    cases b.update a (fun d o => d.write o v) with
    | ok c =>
      constructor
      · intro h
        cases h
        exact ⟨n, c, rfl, rfl, rfl⟩
      · rintro ⟨_, _, h, h', rfl⟩
        cases h
        cases h'
        rfl
    | error e => exact ⟨nofun, fun ⟨_, _, _, h, _⟩ => nomatch h⟩
  | error e => exact ⟨nofun, fun ⟨_, _, h, _⟩ => nomatch h⟩

/-- A byte is needed only where it would be kept. -/
theorem exists_write (hm : b.Mapped a) (hv : b.kind? a = some .ram → 0 ≤ v ∧ v ≤ 0xFF) :
    ∃ b', b.write a v = .ok b' := by
  obtain ⟨k, o, hr⟩ := exists_resolve hm
  obtain ⟨n, hn⟩ := exists_byte? hm
  have ho := lt_of_resolve hr
  have hd : ∃ d, (b.device k).write o v = .ok d := by
    cases hk : (b.device k).kind with
    | ram =>
      have hv := hv (by rw [kind?_of_resolve hr, hk])
      rw [Device.write_eq_put hk]
      exact ⟨_, Device.put_eq_ok_iff.2 ⟨ho, hv, rfl⟩⟩
    | rom => exact ⟨_, (Device.write_eq_ok_iff_of_rom hk).2 ⟨ho, rfl⟩⟩
  obtain ⟨d, hd⟩ := hd
  exact ⟨_, write_eq_ok_iff.2 ⟨n, _, hn, update_eq_ok_iff.2 ⟨k, o, d, hr, hd, rfl⟩, rfl⟩⟩

theorem layout_write (h : b.write a v = .ok b') : b'.layout = b.layout := by
  obtain ⟨n, c, -, hu, rfl⟩ := write_eq_ok_iff.1 h
  show c.layout = b.layout
  exact layout_update (fun _ _ _ => Device.sameShape_write) hu

theorem byte?_write (h : b.write a v = .ok b') (x : Int) :
    b'.byte? x = if b.SameCell a x ∧ b.kind? a = some .ram then some (UInt8.ofNat v.toNat)
      else b.byte? x := by
  obtain ⟨n, c, hn, hu, rfl⟩ := write_eq_ok_iff.1 h
  obtain ⟨k, o, hr⟩ := exists_resolve (mapped_of_byte? hn)
  show c.byte? x = _
  rw [byte?_update (q := (· = .ram)) (n := UInt8.ofNat v.toNat)
    (fun _ _ _ => Device.sameShape_write) (fun _ _ _ => Device.cell?_write) hu x, kind?_of_resolve hr]
  simp

theorem byte?_write_of_unshared (hb : b.Unshared) (h : b.write a v = .ok b') (x : Int) :
    b'.byte? x =
      if x = a ∧ b.kind? a = some .ram then some (UInt8.ofNat v.toNat) else b.byte? x := by
  obtain ⟨n, c, hn, -⟩ := write_eq_ok_iff.1 h
  have hsame : b.SameCell a x ↔ x = a := by
    rw [sameCell_iff_of_unshared hb, and_iff_right (mapped_of_byte? hn), eq_comm]
  simp only [byte?_write h, hsame]

theorem accesses_write (h : b.write a v = .ok b') {n : UInt8} (hn : b.byte? a = some n) :
    b'.accesses = b.accesses ++ [.write a v n] := by
  obtain ⟨n', c, hn', hu, rfl⟩ := write_eq_ok_iff.1 h
  rw [hn] at hn'
  cases hn'
  rw [← accesses_update hu]

/-! ### How accesses fail -/

theorem peek_congr {c : Bus} (h : b.byte? a = c.byte? a) : b.peek a = c.peek a := by
  by_cases hm : b.Mapped a
  · obtain ⟨n, hn⟩ := exists_byte? hm
    rw [peek_eq_ok_iff.2 hn, peek_eq_ok_iff.2 (h ▸ hn)]
  · have hm' : ¬ c.Mapped a := by rwa [← isSome_byte?_iff, ← h, isSome_byte?_iff]
    rw [peek_of_not_mapped hm, peek_of_not_mapped hm']

theorem read_of_not_mapped (h : ¬ b.Mapped a) : b.read a = .error (.unmapped a) := by
  unfold read
  rw [peek_of_not_mapped h]
  rfl

theorem write_of_not_mapped (v : Int) (h : ¬ b.Mapped a) : b.write a v = .error (.unmapped a) := by
  unfold write
  rw [peek_of_not_mapped h]
  rfl

theorem load_of_not_mapped (v : Int) (h : ¬ b.Mapped a) : b.load a v = .error (.unmapped a) :=
  update_of_not_mapped h

/-- No device takes what is no byte from a loader. -/
theorem load_of_not_byte (hm : b.Mapped a) (hv : ¬ (0 ≤ v ∧ v ≤ 0xFF)) :
    b.load a v = .error (.device (.notAByte v)) := by
  obtain ⟨k, o, hr⟩ := exists_resolve hm
  refine update_of_error hr ?_
  rw [Device.put, Device.checkOffset_ok (lt_of_resolve hr), if_neg hv]
  rfl

/-- Writable memory refuses what is no byte. -/
theorem write_of_not_byte (hk : b.kind? a = some .ram) (hv : ¬ (0 ≤ v ∧ v ≤ 0xFF)) :
    b.write a v = .error (.device (.notAByte v)) := by
  have hm := mapped_of_kind? hk
  obtain ⟨n, hn⟩ := exists_byte? hm
  obtain ⟨k, o, hr⟩ := exists_resolve hm
  rw [kind?_of_resolve hr, Option.some.injEq] at hk
  have hd : (b.device k).write o v = .error (.notAByte v) := by
    rw [Device.write_eq_put hk, Device.put, Device.checkOffset_ok (lt_of_resolve hr), if_neg hv]
    rfl
  unfold write
  rw [peek_eq_ok_iff.2 hn, update_of_error (f := fun d o => d.write o v) hr hd]
  rfl

/-! ### Many bytes -/

theorem next_add (s : Int) (k : Nat) : s + 1 + k = s + (k + 1 : Nat) := by omega

theorem dump_eq_ok_iff {s : Int} {n : Nat} {l : List UInt8} :
    b.dump s n = .ok l ↔ l.length = n ∧ ∀ k < n, b.byte? (s + k) = l[k]? := by
  induction n generalizing s l with
  | zero =>
    unfold dump
    constructor
    · intro h
      cases h
      simp
    · rintro ⟨h, -⟩
      rw [List.length_eq_zero_iff.1 h]
  | succ n ih =>
    have hd : b.dump s (n + 1) = .ok l ↔
        ∃ m rest, b.peek s = .ok m ∧ b.dump (s + 1) n = .ok rest ∧ l = m :: rest := by
      rw [dump]
      cases b.peek s with
      | error e => exact ⟨nofun, fun ⟨_, _, h, _⟩ => nomatch h⟩
      | ok m =>
        cases b.dump (s + 1) n with
        | error e => exact ⟨nofun, fun ⟨_, _, _, h, _⟩ => nomatch h⟩
        | ok rest =>
          constructor
          · intro h
            cases h
            exact ⟨m, rest, rfl, rfl, rfl⟩
          · rintro ⟨_, _, h, h', rfl⟩
            cases h
            cases h'
            rfl
    rw [hd]
    constructor
    · rintro ⟨m, rest, hm, hr, rfl⟩
      obtain ⟨hl, hb⟩ := ih.1 hr
      refine ⟨by simp [hl], fun k hk => ?_⟩
      cases k with
      | zero => simpa using peek_eq_ok_iff.1 hm
      | succ k =>
        have := hb k (by omega)
        rw [List.getElem?_cons_succ, ← this, next_add]
    · rintro ⟨hl, hb⟩
      cases l with
      | nil => simp at hl
      | cons m rest =>
        refine ⟨m, rest, peek_eq_ok_iff.2 (by simpa using hb 0 (by omega)),
          ih.2 ⟨by simpa using hl, fun k hk => ?_⟩, rfl⟩
        have := hb (k + 1) (by omega)
        rwa [List.getElem?_cons_succ, ← next_add] at this

theorem exists_dump {s : Int} {n : Nat} (h : ∀ k < n, b.Mapped (s + k)) :
    ∃ l, b.dump s n = .ok l := by
  induction n generalizing s with
  | zero => exact ⟨[], rfl⟩
  | succ n ih =>
    obtain ⟨v, hv⟩ := exists_byte? (by simpa using h 0 (by omega))
    obtain ⟨rest, hr⟩ := ih (s := s + 1) fun k hk => by
      have := h (k + 1) (by omega)
      rwa [← next_add] at this
    rw [dump, peek_eq_ok_iff.2 hv, hr]
    exact ⟨v :: rest, rfl⟩

/-- A dump stops at the first address that is not mapped. -/
theorem exists_dump_error {s : Int} {n k : Nat} (hk : k < n) (h : ¬ b.Mapped (s + k)) :
    ∃ j < n, ¬ b.Mapped (s + j) ∧ b.dump s n = .error (.unmapped (s + j)) := by
  induction n generalizing s k with
  | zero => omega
  | succ n ih =>
    by_cases hs : b.Mapped s
    · obtain ⟨v, hv⟩ := exists_byte? hs
      cases k with
      | zero => exact absurd (by simpa using hs) h
      | succ k =>
        obtain ⟨j, hj, hm, hd⟩ := ih (s := s + 1) (k := k) (by omega)
          (by rwa [next_add])
        rw [next_add] at hm hd
        refine ⟨j + 1, by omega, hm, ?_⟩
        rw [dump, peek_eq_ok_iff.2 hv, hd]
        rfl
    · refine ⟨0, by omega, by simpa using hs, ?_⟩
      rw [dump, peek_of_not_mapped hs]
      simp only [Int.ofNat_zero, Int.add_zero]
      rfl

theorem loadAll_cons_of_ok {s : Int} {n : UInt8} {data : List UInt8}
    (h : b.load s n.toNat = .ok b') : b.loadAll s (n :: data) = b'.loadAll (s + 1) data := by
  rw [loadAll, h]

theorem layout_loadAll (b : Bus) (s : Int) (data : List UInt8) :
    (b.loadAll s data).1.layout = b.layout := by
  induction data generalizing b s with
  | nil => rfl
  | cons n data ih =>
    cases h : b.load s n.toNat with
    | ok b' => rw [loadAll_cons_of_ok h, ih, layout_load h]
    | error e => rw [loadAll, h]

theorem accesses_loadAll (b : Bus) (s : Int) (data : List UInt8) :
    (b.loadAll s data).1.accesses = b.accesses := by
  induction data generalizing b s with
  | nil => rfl
  | cons n data ih =>
    cases h : b.load s n.toNat with
    | ok b' => rw [loadAll_cons_of_ok h, ih, accesses_load h]
    | error e => rw [loadAll, h]

theorem loadAll_ok {s : Int} {data : List UInt8} (h : ∀ k < data.length, b.Mapped (s + k)) :
    (b.loadAll s data).2 = .ok () := by
  induction data generalizing b s with
  | nil => rfl
  | cons n data ih =>
    have hn := n.toNat_lt
    obtain ⟨b', hb⟩ := exists_load (v := n.toNat) (by simpa using h 0 (by simp)) (by omega)
    rw [loadAll_cons_of_ok hb]
    refine ih fun k hk => (mapped_congr (layout_load hb) _).2 ?_
    have := h (k + 1) (by simpa using hk)
    rwa [← next_add] at this

theorem mapped_of_loadAll {s : Int} {data : List UInt8} (h : (b.loadAll s data).2 = .ok ()) :
    ∀ k < data.length, b.Mapped (s + k) := by
  induction data generalizing b s with
  | nil => simp
  | cons n data ih =>
    cases hb : b.load s n.toNat with
    | error e => rw [loadAll, hb] at h; cases h
    | ok b' =>
      rw [loadAll_cons_of_ok hb] at h
      intro k hk
      cases k with
      | zero =>
        obtain ⟨j, o, d, hr, -⟩ := update_eq_ok_iff.1 hb
        simpa using mapped_of_resolve hr
      | succ k =>
        have hm := (mapped_congr (layout_load hb) _).1 (ih h k (by simpa using hk))
        rwa [next_add] at hm

/-- A load stops at the first address that is not mapped, with what stands before it put into place. -/
theorem exists_loadAll_error {s : Int} {data : List UInt8} {k : Nat} (hk : k < data.length)
    (h : ¬ b.Mapped (s + k)) :
    ∃ j < data.length, (∀ i < j, b.Mapped (s + i)) ∧ ¬ b.Mapped (s + j) ∧
      b.loadAll s data = ((b.loadAll s (data.take j)).1, .error (.unmapped (s + j))) := by
  induction data generalizing b s k with
  | nil => simp at hk
  | cons n data ih =>
    by_cases hs : b.Mapped s
    · have hn := n.toNat_lt
      obtain ⟨b', hb⟩ := exists_load (v := n.toNat) hs (by omega)
      have hm (a : Int) : b'.Mapped a ↔ b.Mapped a := mapped_congr (layout_load hb) a
      cases k with
      | zero => exact absurd (by simpa using hs) h
      | succ k =>
        obtain ⟨j, hj, hbefore, hm', hl⟩ := ih (b := b') (s := s + 1) (k := k) (by simpa using hk)
          (by rwa [hm, next_add])
        rw [hm, next_add] at hm'
        refine ⟨j + 1, by simpa using hj, fun i hi => ?_, hm', ?_⟩
        · cases i with
          | zero => simpa using hs
          | succ i =>
            rw [← next_add, ← hm]
            exact hbefore i (by omega)
        · rw [loadAll_cons_of_ok hb, hl, next_add, List.take_succ_cons, loadAll_cons_of_ok hb]
    · refine ⟨0, by simp, by simp, by simpa using hs, ?_⟩
      rw [loadAll, load_of_not_mapped _ hs]
      simp [loadAll]

/-- An address whose cell is not loaded keeps its byte. -/
theorem byte?_loadAll_of_not_sameCell {s : Int} {data : List UInt8}
    (h : (b.loadAll s data).2 = .ok ()) {x : Int}
    (hx : ∀ k < data.length, ¬ b.SameCell (s + k) x) :
    (b.loadAll s data).1.byte? x = b.byte? x := by
  induction data generalizing b s with
  | nil => rfl
  | cons n data ih =>
    cases hb : b.load s n.toNat with
    | error e => rw [loadAll, hb] at h; cases h
    | ok b' =>
      rw [loadAll_cons_of_ok hb] at h ⊢
      have hrest : (b'.loadAll (s + 1) data).1.byte? x = b'.byte? x := by
        refine ih h fun k hk hsame => hx (k + 1) (by simpa using hk) ?_
        rw [sameCell_congr (layout_load hb)] at hsame
        rwa [next_add] at hsame
      rw [hrest, byte?_load hb, if_neg (by simpa using hx 0 (by simp))]

/-- Of the bytes that are loaded into the cell of an address, the last one stays. -/
theorem byte?_loadAll_of_last {s : Int} {data : List UInt8} (h : (b.loadAll s data).2 = .ok ())
    {x : Int} {k : Nat} (hk : k < data.length) (hx : b.SameCell (s + k) x)
    (hlast : ∀ j, k < j → j < data.length → ¬ b.SameCell (s + j) x) :
    (b.loadAll s data).1.byte? x = data[k]? := by
  induction data generalizing b s k with
  | nil => simp at hk
  | cons n data ih =>
    cases hb : b.load s n.toNat with
    | error e => rw [loadAll, hb] at h; cases h
    | ok b' =>
      have hsame (y : Int) : b'.SameCell y x ↔ b.SameCell y x := sameCell_congr (layout_load hb) y x
      rw [loadAll_cons_of_ok hb] at h ⊢
      cases k with
      | zero =>
        rw [byte?_loadAll_of_not_sameCell h fun j hj => ?_, byte?_load hb,
          if_pos (by simpa using hx)]
        · simp
        · rw [hsame, next_add]
          exact hlast (j + 1) (by omega) (by simpa using hj)
      | succ k =>
        rw [List.getElem?_cons_succ]
        refine ih h (by simpa using hk) (by rwa [hsame, next_add]) fun j hj hlen => ?_
        rw [hsame, next_add]
        exact hlast (j + 1) (by omega) (by simpa using hlen)

theorem byte?_loadAll {s : Int} {data : List UInt8} (hu : b.Unshared)
    (h : (b.loadAll s data).2 = .ok ()) (x : Int) :
    (b.loadAll s data).1.byte? x =
      if s ≤ x ∧ x < s + data.length then data[(x - s).toNat]? else b.byte? x := by
  have hend := mapped_of_loadAll h
  split
  · rename_i hx
    have hk : s + (x - s).toNat = x := by omega
    refine byte?_loadAll_of_last h (by omega) ?_ fun j hj hlen hsame => ?_
    · rw [hk]
      exact .refl (hk ▸ hend (x - s).toNat (by omega))
    · have := hsame.eq hu
      omega
  · rename_i hx
    refine byte?_loadAll_of_not_sameCell h fun k hk hsame => hx ?_
    have := hsame.eq hu
    omega

/-! ### Without power -/

theorem device_clearDevice (b : Bus) (k j : Nat) :
    (b.clearDevice k).device j = if k = j then (b.device j).clear else b.device j := by
  unfold clearDevice device
  rw [List.getD_eq_getElem?_getD, List.getD_eq_getElem?_getD, List.getElem?_modify]
  by_cases hk : k = j
  · subst hk
    cases b.devices[k]? <;> simp [Device.clear_blank]
  · cases b.devices[j]? <;> simp [hk]

/-- Clearing a device once more changes nothing, so that it does not matter in how many places it stands. -/
theorem device_powerOff (b : Bus) (k : Nat) :
    b.powerOff.device k =
      if k ∈ b.placements.map (·.device) then (b.device k).clear else b.device k := by
  unfold powerOff
  generalize b.placements = ps
  induction ps generalizing b with
  | nil => simp
  | cons p ps ih =>
    rw [List.foldl_cons, ih, device_clearDevice, List.map_cons]
    by_cases hk : p.device = k
    · rw [if_pos hk, if_pos (List.mem_cons.2 (.inl hk.symm)), Device.clear_clear, ite_self]
    · simp only [if_neg hk, List.mem_cons, eq_comm.not.1 hk, false_or]

theorem placements_powerOff (b : Bus) : b.powerOff.placements = b.placements := by
  unfold powerOff
  -- the devices are cleared along the placements, which stay what they are
  suffices h : ∀ (ps : List Placement) (c : Bus),
      (ps.foldl (fun b p => b.clearDevice p.device) c).placements = c.placements from h _ b
  intro ps
  induction ps with
  | nil => exact fun _ => rfl
  | cons p ps ih => exact fun c => ih (c.clearDevice p.device)

theorem layout_powerOff (b : Bus) : b.powerOff.layout = b.layout := by
  refine layout_of_sameShape (placements_powerOff b) fun k => ?_
  rw [device_powerOff]
  split
  · exact (b.device k).sameShape_clear
  · exact ⟨rfl, rfl⟩

theorem byte?_powerOff (b : Bus) (x : Int) :
    b.powerOff.byte? x =
      if b.kind? x = some .ram then (b.byte? x).map fun _ => 0 else b.byte? x := by
  by_cases hx : b.Mapped x
  · obtain ⟨k, o, hr⟩ := exists_resolve hx
    rw [byte?_eq_cell? hr, byte?_eq_cell? ((resolve_congr (layout_powerOff b) x).trans hr),
      device_powerOff, if_pos (number_mem_of_resolve hr), Device.cell?_clear, kind?_of_resolve hr]
    simp
  · rw [byte?_of_not_mapped hx,
      byte?_of_not_mapped fun h => hx ((mapped_congr (layout_powerOff b) x).1 h)]
    simp

end Chip8.Bus
