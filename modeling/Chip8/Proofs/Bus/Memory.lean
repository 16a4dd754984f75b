import Chip8.Proofs.Bus.Call

/-!
# A bus is a memory

What was stored at an address is found there again, and at no other address (`acts_as_memory`): on every
bus that registers a fresh device each time, for on such a bus no two addresses lead to one cell
(`Owned.call`). What the bus keeps and records is bytes, except for the values of the writes that a
read-only device ignores (`records_bytes_unless_lost`), on every bus.
-/

namespace Chip8.Bus

/-- The call puts a device that is on the bus in one more place. -/
def Call.Shares : Call → Prop
  | place .. => True
  | register .. | read _ | write .. | peek _ | load .. | dump .. | takeAccesses => False

/-- Each device stands in one place at most, and no place is without its device. -/
structure Owned (b : Bus) : Prop where
  unshared : b.Unshared
  lt_length {p : Placement} (h : p ∈ b.placements) : p.device < b.devices.length

variable {b b' : Bus} {a v x : Int}

/-! ### Each device in its own place -/

namespace Owned

theorem empty : Owned {} := ⟨.nil, nofun⟩

theorem congr (h : b.Owned) (hp : b'.placements = b.placements)
    (hd : b'.devices.length = b.devices.length) : b'.Owned where
  unshared := by
    unfold Unshared
    rw [hp]
    exact h.unshared
  lt_length hm := by
    rw [hd]
    exact h.lt_length (hp ▸ hm)

/-- The number of a new device is that of no device in its place. -/
theorem register (h : b.Owned) (d : Device) (start : Nat) :
    Owned { b.addDevice (some d) with
      placements := insertPlacement ⟨start, b.devices.length⟩ b.placements } where
  unshared := by
    refine ((perm_insertPlacement _ _).map _).nodup_iff.2 (List.nodup_cons.2 ⟨fun hm => ?_, h.unshared⟩)
    obtain ⟨p, hp, hlen⟩ := List.mem_map.1 hm
    exact absurd hlen (Nat.ne_of_lt (h.lt_length hp))
  lt_length hm := by
    have hlen : (b.addDevice (some d)).devices.length = b.devices.length + 1 := List.length_append
    refine Nat.lt_of_lt_of_eq (Nat.lt_succ_of_le ?_) hlen.symm
    rcases mem_insertPlacement.1 hm with rfl | hm
    · exact Nat.le_refl _
    · exact Nat.le_of_lt (h.lt_length hm)

theorem call (h : b.Owned) {c : Call} (hc : ¬ c.Shares) : (b.call c).state.Owned := by
  have hcalled := b.called c
  generalize b.call c = o at hcalled
  cases hcalled with
  | registered ha =>
    obtain ⟨-, -, d, rfl, -⟩ := ha
    exact h.register d _
  | placed => exact absurd trivial hc
  | wrote hw =>
    obtain ⟨n, c, -, hu, rfl⟩ := write_eq_ok_iff.1 hw
    obtain ⟨hp, hd⟩ := devices_update hu
    exact h.congr hp hd
  | loaded hl =>
    obtain ⟨hp, hd⟩ := devices_update hl
    exact h.congr hp hd
  | _ => exact h.congr rfl rfl

theorem calls (h : b.Owned) {cs : List Call} (hcs : ∀ c ∈ cs, ¬ c.Shares) : (b.calls cs).Owned := by
  induction cs generalizing b with
  | nil => exact h
  | cons c cs ih =>
    rw [List.forall_mem_cons] at hcs
    exact ih (h.call hcs.1) hcs.2

end Owned

/-! ### What is stored -/

/-- The host and the program both find the value at the address. -/
def Shows (b : Bus) (a v : Int) : Prop :=
  ∃ n : UInt8, n.toNat = v ∧ (b.call (.peek a)).result = .ok (.byte n) ∧
    (b.call (.read a)).result = .ok (.byte n)

/-- The host finds the same on both buses, or finds nothing on either. -/
def Agree (b b' : Bus) (x : Int) : Prop :=
  (b'.call (.peek x)).result = (b.call (.peek x)).result

/-- What was stored is found again, nothing else changes, and only the program's accesses are recorded. -/
structure ActsAsMemory (b : Bus) : Prop where
  misses_iff (c : Call) :
    (∃ e, (b.call c).result = .error (.bus e) ∧ e.IsPlace) ↔ ∃ x, c.Touches x ∧ ¬ b.Mapped x
  answers_iff (c : Call) :
    (∃ y, (b.call c).result = .ok y) ↔ (∀ x, c.Touches x → b.Mapped x) ∧ b.Accepts c
  failed {c : Call} {e : Chip8.Error} (h : (b.call c).result = .error e) : (b.call c).state = b
  loaded {a v : Int} {y : Answer} (h : (b.call (.load a v)).result = .ok y) :
    (b.call (.load a v)).state.Shows a v ∧ (∀ x ≠ a, b.Agree (b.call (.load a v)).state x) ∧
      (b.call (.load a v)).state.accesses = b.accesses
  wrote {a v : Int} {y : Answer} (h : (b.call (.write a v)).result = .ok y) :
    (b.kind? a = some .ram → (b.call (.write a v)).state.Shows a v) ∧
      (b.kind? a = some .rom → b.Agree (b.call (.write a v)).state a) ∧
      (∀ x ≠ a, b.Agree (b.call (.write a v)).state x) ∧
      ∃ n, (b.call (.peek a)).result = .ok (.byte n) ∧
        (b.call (.write a v)).state.accesses = b.accesses ++ [.write a v n]
  read {a : Int} {y : Answer} (h : (b.call (.read a)).result = .ok y) :
    (∀ x, b.Agree (b.call (.read a)).state x) ∧
      ∃ n, y = .byte n ∧ (b.call (.peek a)).result = .ok (.byte n) ∧
        (b.call (.read a)).state.accesses = b.accesses ++ [.read a n]
  peeked (a : Int) : (b.call (.peek a)).state = b
  dumped (start length : Int) : (b.call (.dump start length)).state = b

theorem result_peek {n : UInt8} (h : b.byte? a = some n) :
    (b.call (.peek a)).result = .ok (.byte n) := by
  rw [call_peek, peek_eq_ok_iff.2 h]
  rfl

theorem result_read {n : UInt8} (h : b.byte? a = some n) :
    (b.call (.read a)).result = .ok (.byte n) := by
  rw [call_read, read_eq_ok_iff.2 ⟨h, rfl⟩]

theorem agree_of_byte? (h : b'.byte? x = b.byte? x) : b.Agree b' x := by
  unfold Agree
  rw [call_peek, call_peek, peek_congr h]

theorem shows_of_byte? (hv : IsByte v) (h : b.byte? a = some (UInt8.ofNat v.toNat)) :
    b.Shows a v := by
  refine ⟨_, ?_, result_peek h, result_read h⟩
  have hlt : v.toNat < UInt8.size := by
    have := hv.2
    show v.toNat < 256
    omega
  rw [UInt8.toNat_ofNat_of_lt' hlt]
  exact Int.toNat_of_nonneg hv.1

/-- A call is answered, or it fails without effect for want of a place or for what came with it. -/
theorem answered_or_failed (b : Bus) (c : Call) :
    ((∃ y, (b.call c).result = .ok y) ∧ (∀ x, c.Touches x → b.Mapped x) ∧ b.Accepts c) ∨
      (b.call c).state = b ∧ ∃ e, (b.call c).result = .error (.bus e) ∧
        ((e.IsPlace ∧ ∃ x, c.Touches x ∧ ¬ b.Mapped x) ∨
          (¬ e.IsPlace ∧ (∀ x, c.Touches x → b.Mapped x) ∧ ¬ b.Accepts c)) := by
  have h := b.called c
  generalize b.call c = o at h
  cases h with
  | registered ha | placed ha => exact .inl ⟨⟨_, rfl⟩, nofun, ha⟩
  | @rejected c _ hc ha he =>
    have htouches (x : Int) (hx : c.Touches x) : b.Mapped x := by cases c <;> trivial
    exact .inr ⟨rfl, _, rfl, .inr ⟨he, htouches, ha⟩⟩
  | read h | peeked h => exact .inl ⟨⟨_, rfl⟩, fun _ hx => hx ▸ mapped_of_byte? h, trivial⟩
  | wrote _ hn hv => exact .inl ⟨⟨_, rfl⟩, fun _ hx => hx ▸ mapped_of_byte? hn, hv⟩
  | loaded _ hm hv => exact .inl ⟨⟨_, rfl⟩, fun _ hx => hx ▸ hm, hv⟩
  | @dumped start length l h =>
    refine .inl ⟨⟨_, rfl⟩, fun x ⟨hs, hl⟩ => ?_, trivial⟩
    obtain ⟨hlen, hbytes⟩ := dump_eq_ok_iff.1 h
    have hx := hbytes (x - start).toNat (by omega)
    rw [show start + (x - start).toNat = x by omega,
      List.getElem?_eq_getElem (by omega)] at hx
    exact mapped_of_byte? hx
  | taken => exact .inl ⟨⟨_, rfl⟩, nofun, trivial⟩
  | unmapped h hx => exact .inr ⟨rfl, _, rfl, .inl ⟨trivial, _, h, hx⟩⟩
  | badWrite hk hv =>
    exact .inr ⟨rfl, _, rfl, .inr ⟨id, fun _ hx => hx ▸ mapped_of_kind? hk, fun h => hv (h hk)⟩⟩
  | badLoad hm hv => exact .inr ⟨rfl, _, rfl, .inr ⟨id, fun _ hx => hx ▸ hm, hv⟩⟩

theorem Unshared.actsAsMemory (hu : b.Unshared) : b.ActsAsMemory where
  misses_iff c := by
    rcases b.answered_or_failed c with ⟨⟨y, hy⟩, hm, -⟩ | ⟨-, e, he, ⟨hp, hx⟩ | ⟨hp, hm, -⟩⟩
    · exact ⟨fun ⟨e, he, _⟩ => (nomatch hy.symm.trans he), fun ⟨x, h, hx⟩ => absurd (hm x h) hx⟩
    · exact ⟨fun _ => hx, fun _ => ⟨e, he, hp⟩⟩
    · refine ⟨fun ⟨e', he', hp'⟩ => ?_, fun ⟨x, h, hx⟩ => absurd (hm x h) hx⟩
      rw [he] at he'
      cases he'
      exact absurd hp' hp
  answers_iff c := by
    rcases b.answered_or_failed c with ⟨hy, hc⟩ | ⟨-, e, he, ⟨-, x, h, hx⟩ | ⟨-, -, ha⟩⟩
    · exact ⟨fun _ => hc, fun _ => hy⟩
    · exact ⟨fun ⟨y, hy⟩ => (nomatch hy.symm.trans he), fun hc => absurd (hc.1 x h) hx⟩
    · exact ⟨fun ⟨y, hy⟩ => (nomatch hy.symm.trans he), fun hc => absurd hc.2 ha⟩
  failed {c e} h := by
    rcases b.answered_or_failed c with ⟨⟨y, hy⟩, -⟩ | ⟨hs, -⟩
    · exact nomatch hy.symm.trans h
    · exact hs
  loaded {a v y} h := by
    have hc := b.called (.load a v)
    generalize b.call (.load a v) = o at h hc
    cases hc with
    | loaded hl _ hv =>
      refine ⟨shows_of_byte? hv (by rw [byte?_load_of_unshared hu hl, if_pos rfl]), fun x hx => ?_,
        accesses_load hl⟩
      exact agree_of_byte? (by rw [byte?_load_of_unshared hu hl, if_neg hx])
    | rejected | unmapped => cases h
    | badLoad => cases h
  wrote {a v y} h := by
    have hc := b.called (.write a v)
    generalize b.call (.write a v) = o at h hc
    cases hc with
    | wrote hw hn hv =>
      refine ⟨fun hk => ?_, fun hk => ?_, fun x hx => ?_, _, result_peek hn, accesses_write hw hn⟩
      · exact shows_of_byte? (hv hk) (by rw [byte?_write_of_unshared hu hw, if_pos ⟨rfl, hk⟩])
      · exact agree_of_byte? (by rw [byte?_write_of_unshared hu hw, if_neg (by simp [hk])])
      · exact agree_of_byte? (by rw [byte?_write_of_unshared hu hw, if_neg fun h => hx h.1])
    | rejected | unmapped => cases h
    | badWrite => cases h
  read {a y} h := by
    have hc := b.called (.read a)
    generalize b.call (.read a) = o at h hc
    cases hc with
    | read hn =>
      cases h
      exact ⟨fun x => agree_of_byte? rfl, _, rfl, result_peek hn, rfl⟩
    | rejected | unmapped => cases h
  peeked a := by rw [call_peek]
  dumped start length := by rw [call_dump]

/-- Registrations bring a fresh device each; calls of all other kinds may come between them. -/
theorem acts_as_memory (hb : b.Owned) {cs : List Call} (hcs : ∀ c ∈ cs, ¬ c.Shares) :
    (b.calls cs).ActsAsMemory :=
  (hb.calls hcs).unshared.actsAsMemory

/-- Two regions that overlap, and a third one behind a gap. -/
theorem acts_as_memory_of_overlapping :
    let cs : List Call := [.register 0 3 (some (.blank .rom 4)), .register 2 5 (some (.blank .ram 4)),
      .register 8 9 (some (.blank .ram 2)), .load 2 0x12, .write 4 0x34]
    (∀ c ∈ cs, ¬ c.Shares) ∧ (({} : Bus).calls cs).ActsAsMemory := by
  intro cs
  have hcs : ∀ c ∈ cs, ¬ c.Shares := by simp [cs, Call.Shares]
  exact ⟨hcs, acts_as_memory .empty hcs⟩

/-! ### Values that are no bytes -/

/-- Among the calls is a write to a read-only device which left this access behind. -/
def Lost (b : Bus) (cs : List Call) (x : Access) : Prop :=
  ∃ before a v n after, cs = before ++ .write a v :: after ∧
    (b.calls before).kind? a = some .rom ∧ x = .write a v n

theorem isByte_toNat (n : UInt8) : IsByte n.toNat := by
  have := n.toNat_lt
  unfold IsByte
  omega

theorem lost_of_mem_call {c : Call} {y : Access} (h : y ∈ (b.call c).state.accesses) :
    y ∈ b.accesses ∨ IsByte y.data ∨ ∀ cs, b.Lost (c :: cs) y := by
  have hc := b.called c
  generalize b.call c = o at h hc
  cases hc with
  | @read a n =>
    rcases List.mem_append.1 h with h | h
    · exact .inl h
    · rw [List.mem_singleton.1 h]
      exact .inr (.inl (isByte_toNat n))
  | @wrote a v n _ hw hn hv =>
    rw [accesses_write hw hn] at h
    rcases List.mem_append.1 h with h | h
    · exact .inl h
    · rw [List.mem_singleton.1 h]
      rcases kind?_of_mapped (mapped_of_byte? hn) with hk | hk
      · exact .inr (.inl (hv hk))
      · exact .inr (.inr fun cs => ⟨[], a, v, n, cs, rfl, hk, rfl⟩)
  | loaded hl => exact .inl (by rwa [accesses_load hl] at h)
  | taken => cases h
  | _ => exact .inl h

theorem Lost.cons {c : Call} {cs : List Call} {y : Access} (h : (b.call c).state.Lost cs y) :
    b.Lost (c :: cs) y := by
  obtain ⟨before, a, v, n, after, rfl, hk, rfl⟩ := h
  exact ⟨c :: before, a, v, n, after, rfl, hk, rfl⟩

theorem lost_of_mem_calls {cs : List Call} {y : Access} (h : y ∈ (b.calls cs).accesses) :
    y ∈ b.accesses ∨ IsByte y.data ∨ b.Lost cs y := by
  -- an access that a later call left is lost on the bus that the first call led to
  induction cs generalizing b with
  | nil => exact .inl h
  | cons c cs ih =>
    rcases ih h with h | h | h
    · exact (lost_of_mem_call h).imp_right (.imp_right (· cs))
    · exact .inr (.inl h)
    · exact .inr (.inr h.cons)

/-- What becomes of values that are no bytes on a bus with `cs` behind it. -/
structure Screens (cs : List Call) (b : Bus) : Prop where
  devices {a : Int} (h : b.Mapped a) : b.kind? a = some .ram ∨ b.kind? a = some .rom
  refused {a v : Int} (hk : b.kind? a = some .ram) (hv : ¬ IsByte v) :
    b.call (.write a v) = ⟨b, .error (.bus (.device (.notAByte v))), []⟩
  /-- Read-only devices do not look at the data. -/
  lost {a : Int} (v : Int) (hk : b.kind? a = some .rom) :
    ∃ n b', b.call (.write a v) = ⟨b', .ok .done, b.losses [.write a v n]⟩ ∧
      (∀ x, b.Agree b' x) ∧ b'.accesses = b.accesses ++ [.write a v n]
  recorded {y : Access} (h : y ∈ b.accesses) :
    IsByte y.found.toNat ∧ (IsByte y.data ∨ Lost {} cs y)

theorem records_bytes_unless_lost (cs : List Call) : Screens cs (({} : Bus).calls cs) where
  devices h := kind?_of_mapped h
  refused {a v} hk hv := by rw [call_write, write_of_not_byte hk hv]
  lost {a} v hk := by
    have hm := mapped_of_kind? hk
    obtain ⟨n, hn⟩ := exists_byte? hm
    obtain ⟨b', hb⟩ := exists_write (v := v) hm (by rw [hk]; nofun)
    refine ⟨n, b', by rw [call_write, hb, losses_write], fun x => agree_of_byte? ?_,
      accesses_write hb hn⟩
    rw [byte?_write hb, if_neg (by simp [hk])]
  recorded {y} h := by
    refine ⟨isByte_toNat _, ?_⟩
    rcases lost_of_mem_calls h with h | h | h
    · cases h
    · exact .inl h
    · exact .inr h


end Chip8.Bus
