import Chip8.Processor
import Chip8.Proofs.Action
import Chip8.Proofs.Bus.Record

/-!
# Calls on a bus

`Bus.call b c` is the outcome of a call `c` on a bus of whatever regions, from registration to the taking
of the accesses. `Called` says all that a call can do.
-/

namespace Chip8

/-- A bus alone is a core without registers. -/
instance : HasCore Bus Unit where
  core b := { bus := b, state := () }
  setCore _ c := c.bus

/-- What an access writes or, for a read, reads. -/
def Access.data : Access → Int
  | read _ n => n.toNat
  | write _ v _ => v

namespace Bus

/-- The error is about a place that there is not: an address, an offset or the number of a region. -/
def Error.IsPlace : Error → Prop
  | unmapped _ | noRegion | uncountable | device (.outOfBounds ..) => True
  | _ => False

inductive Call where
  | register (first last : Int) (device : Option Device)
  | place (first last : Int) (number : Nat)
  | read (a : Int)
  | write (a data : Int)
  | peek (a : Int)
  | load (a data : Int)
  | dump (start length : Int)
  | takeAccesses

inductive Answer where
  | done
  | byte (n : UInt8)
  | bytes (l : List UInt8)
  | accesses (l : List Access)

def Call.act : Call → Action Bus Answer
  | register first last device =>
    ⟨fun b =>
      match b.register first last device with
      | .ok b' => ⟨b', .ok .done, []⟩
      | .error e => ⟨b, .error (.bus e), []⟩⟩
  | place first last number =>
    ⟨fun b =>
      match b.place first last number with
      | .ok b' => ⟨b', .ok .done, []⟩
      | .error e => ⟨b, .error (.bus e), []⟩⟩
  | read a => do return .byte (← HasCore.read a)
  | write a data => do
    HasCore.write a data
    return .done
  | peek a => do
    let b ← .get
    return .byte (← .lift ((b.peek a).mapError .bus))
  | load a data => do
    HasCore.load a data
    return .done
  | dump start length => do
    let b ← .get
    return .bytes (← .lift ((b.dump start length.toNat).mapError .bus))
  | takeAccesses => do return .accesses (← HasCore.takeAccesses)

def call (b : Bus) (c : Call) : Outcome Bus Answer := c.act.run b

/-- The bus after calls one after the other, however each of them ends. -/
def calls (b : Bus) : List Call → Bus
  | [] => b
  | c :: cs => (b.call c).state.calls cs

/-- The addresses that a call asks for. -/
def Call.Touches : Call → Int → Prop
  | read a, x | write a _, x | peek a, x | load a _, x => x = a
  | dump start length, x => start ≤ x ∧ x < start + length
  | register .., _ | place .., _ | takeAccesses, _ => False

/-- The call may change the layout. -/
def Call.Registers : Call → Prop
  | register .. | place .. => True
  | read _ | write .. | peek _ | load .. | dump .. | takeAccesses => False

abbrev IsByte (v : Int) : Prop := 0 ≤ v ∧ v ≤ 0xFF

/-- What comes with the call is in order: the device fits its addresses, and data is a byte where it would
be kept. -/
def Accepts (b : Bus) : Call → Prop
  | .register first last device =>
    0 ≤ first ∧ first ≤ last ∧ ∃ d, device = some d ∧ last - first + 1 = d.size
  | .place first last number =>
    0 ≤ first ∧ first ≤ last ∧ ∃ d, b.devices[number]? = some d ∧ last - first + 1 = d.size
  | .write a v => b.kind? a = some .ram → IsByte v
  | .load _ v => IsByte v
  | .read _ | .peek _ | .dump .. | .takeAccesses => True

/-- All that a call can come to. -/
inductive Called (b : Bus) : Call → Outcome Bus Answer → Prop
  | registered {first last : Int} {device : Option Device}
    (h : b.Accepts (.register first last device)) :
    Called b (.register first last device)
      ⟨{ b.addDevice device with
        placements := insertPlacement ⟨first.toNat, b.devices.length⟩ b.placements }, .ok .done, []⟩
  | placed {first last : Int} {number : Nat} (h : b.Accepts (.place first last number)) :
    Called b (.place first last number)
      ⟨{ b with placements := insertPlacement ⟨first.toNat, number⟩ b.placements }, .ok .done, []⟩
  | rejected {c : Call} {e : Error} (hc : c.Registers) (h : ¬ b.Accepts c) (he : ¬ e.IsPlace) :
    Called b c ⟨b, .error (.bus e), []⟩
  | read {a : Int} {n : UInt8} (h : b.byte? a = some n) :
    Called b (.read a) ⟨{ b with accesses := b.accesses ++ [.read a n] }, .ok (.byte n), []⟩
  | wrote {a v : Int} {n : UInt8} {b' : Bus} (h : b.write a v = .ok b') (hn : b.byte? a = some n)
    (hv : b.kind? a = some .ram → IsByte v) :
    Called b (.write a v) ⟨b', .ok .done, b.losses [.write a v n]⟩
  | peeked {a : Int} {n : UInt8} (h : b.byte? a = some n) :
    Called b (.peek a) ⟨b, .ok (.byte n), []⟩
  | loaded {a v : Int} {b' : Bus} (h : b.load a v = .ok b') (hm : b.Mapped a)
    (hv : IsByte v) :
    Called b (.load a v) ⟨b', .ok .done, []⟩
  | dumped {start length : Int} {l : List UInt8} (h : b.dump start length.toNat = .ok l) :
    Called b (.dump start length) ⟨b, .ok (.bytes l), []⟩
  | taken : Called b .takeAccesses ⟨{ b with accesses := [] }, .ok (.accesses b.accesses), []⟩
  /-- Nothing is there. -/
  | unmapped {c : Call} {x : Int} (h : c.Touches x) (hx : ¬ b.Mapped x) :
    Called b c ⟨b, .error (.bus (.unmapped x)), []⟩
  | badWrite {a v : Int} (hk : b.kind? a = some .ram) (hv : ¬ IsByte v) :
    Called b (.write a v) ⟨b, .error (.bus (.device (.notAByte v))), []⟩
  | badLoad {a v : Int} (hm : b.Mapped a) (hv : ¬ IsByte v) :
    Called b (.load a v) ⟨b, .error (.bus (.device (.notAByte v))), []⟩

variable {b b' : Bus} {a v x : Int}

/-! ### What a call comes to -/

theorem call_register (b : Bus) (first last : Int) (device : Option Device) :
    b.call (.register first last device) = match b.register first last device with
      | .ok b' => ⟨b', .ok .done, []⟩
      | .error e => ⟨b, .error (.bus e), []⟩ := rfl

theorem call_place (b : Bus) (first last : Int) (number : Nat) :
    b.call (.place first last number) = match b.place first last number with
      | .ok b' => ⟨b', .ok .done, []⟩
      | .error e => ⟨b, .error (.bus e), []⟩ := rfl

theorem call_read (b : Bus) (a : Int) :
    b.call (.read a) = match b.read a with
      | .ok (n, b') => ⟨b', .ok (.byte n), []⟩
      | .error e => ⟨b, .error (.bus e), []⟩ := by
  have hr : (HasCore.read a : Action Bus UInt8).run b = match b.read a with
    | .ok (n, b') => ⟨b', .ok n, []⟩
    | .error e => ⟨b, .error (.bus e), []⟩ := rfl
  simp only [call, Call.act, bind_pure_comp, Action.run_map, hr]
  cases b.read a <;> rfl

theorem call_write (b : Bus) (a v : Int) :
    b.call (.write a v) = match b.write a v with
      | .ok b' => ⟨b', .ok .done, (b.lostWrite? a).toList.map (.ignoredWrite v ·)⟩
      | .error e => ⟨b, .error (.bus e), []⟩ := by
  have hw : (HasCore.write a v : Action Bus Unit).run b = match b.write a v with
    | .ok b' => ⟨b', .ok (), (b.lostWrite? a).toList.map (.ignoredWrite v ·)⟩
    | .error e => ⟨b, .error (.bus e), []⟩ := rfl
  simp only [call, Call.act, bind_pure_comp, Action.run_map, hw]
  cases b.write a v <;> rfl

theorem call_load (b : Bus) (a v : Int) :
    b.call (.load a v) = match b.load a v with
      | .ok b' => ⟨b', .ok .done, []⟩
      | .error e => ⟨b, .error (.bus e), []⟩ := by
  have hl : (HasCore.load a v : Action Bus Unit).run b = match b.load a v with
    | .ok b' => ⟨b', .ok (), []⟩
    | .error e => ⟨b, .error (.bus e), []⟩ := rfl
  simp only [call, Call.act, bind_pure_comp, Action.run_map, hl]
  cases b.load a v <;> rfl

theorem call_peek (b : Bus) (a : Int) :
    b.call (.peek a) = ⟨b, ((b.peek a).mapError .bus).map .byte, []⟩ := by
  simp [call, Call.act, Action.run_bind, Action.run_map]

theorem call_dump (b : Bus) (start length : Int) :
    b.call (.dump start length) =
      ⟨b, ((b.dump start length.toNat).mapError .bus).map .bytes, []⟩ := by
  simp [call, Call.act, Action.run_bind, Action.run_map]

theorem place_cases (b : Bus) (first last : Int) (number : Nat) :
    (b.Accepts (.place first last number) ∧ b.place first last number =
      .ok { b with placements := insertPlacement ⟨first.toNat, number⟩ b.placements }) ∨
    (¬ b.Accepts (.place first last number) ∧
      ∃ e, b.place first last number = .error e ∧ ¬ e.IsPlace) := by
  unfold place Accepts
  by_cases hr : first < 0 ∨ last < first
  · rw [if_pos hr]
    exact .inr ⟨by omega, _, rfl, id⟩
  · rw [if_neg hr]
    cases hd : b.devices[number]? with
    | none => exact .inr ⟨fun ⟨_, _, _, hd', _⟩ => (nomatch hd.symm.trans hd'), _, rfl, id⟩
    | some d =>
      by_cases hs : last - first + 1 = d.size
      · exact .inl ⟨⟨by omega, by omega, d, hd, hs⟩, if_pos hs⟩
      · refine .inr ⟨?_, _, if_neg hs, id⟩
        rintro ⟨-, -, d', hd', hs'⟩
        rw [hd, Option.some.injEq] at hd'
        exact hs (hd' ▸ hs')

/-- A new device has the next number. -/
theorem accepts_register_iff (b : Bus) (first last : Int) (device : Option Device) :
    b.Accepts (.register first last device) ↔
      (b.addDevice device).Accepts (.place first last b.devices.length) := by
  have hnew : (b.addDevice device).devices[b.devices.length]? = device := by
    cases device <;> simp [addDevice]
  unfold Accepts
  dsimp only
  rw [hnew]

theorem called (b : Bus) (c : Call) : Called b c (b.call c) := by
  cases c with
  | register first last device =>
    rw [call_register, register]
    rcases (b.addDevice device).place_cases first last b.devices.length with
      ⟨ha, h⟩ | ⟨ha, e, h, he⟩
    · rw [h]
      exact .registered ((b.accepts_register_iff ..).2 ha)
    · rw [h]
      exact .rejected trivial (mt (b.accepts_register_iff ..).1 ha) he
  | place first last number =>
    rw [call_place]
    rcases b.place_cases first last number with ⟨ha, h⟩ | ⟨ha, e, h, he⟩
    · rw [h]
      exact .placed ha
    · rw [h]
      exact .rejected trivial ha he
  | read a =>
    rw [call_read]
    by_cases hm : b.Mapped a
    · obtain ⟨n, hn⟩ := exists_byte? hm
      rw [read_eq_ok_iff.2 ⟨hn, rfl⟩]
      exact .read hn
    · rw [read_of_not_mapped hm]
      exact .unmapped (c := .read a) rfl hm
  | write a v =>
    rw [call_write]
    by_cases hm : b.Mapped a
    · by_cases hv : b.kind? a = some .ram → IsByte v
      · obtain ⟨b', hb⟩ := exists_write hm hv
        obtain ⟨n, hn⟩ := exists_byte? hm
        rw [hb, ← losses_write b a v n]
        exact .wrote hb hn hv
      · obtain ⟨hk, hv⟩ := Classical.not_imp.1 hv
        rw [write_of_not_byte hk hv]
        exact .badWrite hk hv
    · rw [write_of_not_mapped v hm]
      exact .unmapped (c := .write a v) rfl hm
  | peek a =>
    rw [call_peek]
    by_cases hm : b.Mapped a
    · obtain ⟨n, hn⟩ := exists_byte? hm
      rw [peek_eq_ok_iff.2 hn]
      exact .peeked hn
    · rw [peek_of_not_mapped hm]
      exact .unmapped (c := .peek a) rfl hm
  | load a v =>
    rw [call_load]
    by_cases hm : b.Mapped a
    · by_cases hv : IsByte v
      · obtain ⟨b', hb⟩ := exists_load hm hv
        rw [hb]
        exact .loaded hb hm hv
      · rw [load_of_not_byte hm hv]
        exact .badLoad hm hv
    · rw [load_of_not_mapped v hm]
      exact .unmapped (c := .load a v) rfl hm
  | dump start length =>
    rw [call_dump]
    by_cases hm : ∀ k < length.toNat, b.Mapped (start + k)
    · obtain ⟨l, hl⟩ := exists_dump hm
      rw [hl]
      exact .dumped hl
    · simp only [Classical.not_forall] at hm
      obtain ⟨k, hk, hm⟩ := hm
      obtain ⟨j, hj, hm, hd⟩ := exists_dump_error hk hm
      rw [hd]
      exact .unmapped (c := .dump start length) ⟨by omega, by omega⟩ hm
  | takeAccesses => exact .taken

end Bus

end Chip8
