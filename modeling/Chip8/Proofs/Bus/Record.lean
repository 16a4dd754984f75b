import Chip8.Notice
import Chip8.Proofs.Bus.Traffic

/-!
# What a record of accesses tells

An access holds what was asked of the bus (`Access.request`) and the byte that was found there
(`Access.found`). `bytesAfter` carries out the writes of a record on the bytes that there were before
it: where no device stands in two places it gives the bytes behind the traffic
(`Trafficked.byte?_eq`) and, over the accesses before one of them, the byte which that one found
(`Trafficked.found_eq`). Each write to read-only memory comes with a notice (`losses`).
-/

namespace Chip8

/-- What a program asks of the bus. -/
inductive Request where
  | read (address : Int)
  | write (address data : Int)
deriving DecidableEq, Repr

namespace Access

def request : Access → Request
  | read a _ => .read a
  | write a v _ => .write a v

def address : Access → Int
  | read a _ => a
  | write a _ _ => a

def found : Access → UInt8
  | read _ n => n
  | write _ _ n => n

end Access

namespace Bus

/-- The bytes by address when the writes among accesses have been carried out, oldest first. A write
counts where bytes are kept. -/
def bytesAfter (kept : Int → Bool) : List Access → (Int → Option UInt8) → Int → Option UInt8
  | [], bytes => bytes
  | .read .. :: as, bytes => bytesAfter kept as bytes
  | .write a v _ :: as, bytes =>
    bytesAfter kept as fun x => if x = a ∧ kept a = true then some (UInt8.ofNat v.toNat) else bytes x

/-- The notices that accesses come with: one for each write that is lost. -/
def losses (b : Bus) (as : List Access) : List Notice :=
  as.filterMap fun
    | .read .. => none
    | .write a v _ => (b.lostWrite? a).map (.ignoredWrite v ·)

variable {b c : Bus} {as bs : List Access} {a v : Int} {n : UInt8}

theorem losses_congr (h : b.layout = c.layout) (as : List Access) : b.losses as = c.losses as := by
  have hl : b.lostWrite? = c.lostWrite? := funext (lostWrite?_congr h)
  unfold losses
  rw [hl]

theorem losses_append (b : Bus) (as bs : List Access) :
    b.losses (as ++ bs) = b.losses as ++ b.losses bs :=
  List.filterMap_append

theorem losses_write (b : Bus) (a v : Int) (n : UInt8) :
    b.losses [.write a v n] = (b.lostWrite? a).toList.map (.ignoredWrite v ·) := by
  unfold losses
  cases h : b.lostWrite? a <;> simp [h]

namespace Trafficked

/-- Traffic can be parted anywhere. -/
theorem of_append (t : Trafficked b (as ++ bs) c) : ∃ d, Trafficked b as d ∧ Trafficked d bs c := by
  induction as generalizing b with
  | nil => exact ⟨b, .refl b, t⟩
  | cons a as ih =>
    cases t with
    | read h t =>
      obtain ⟨d, hd, hc⟩ := ih t
      exact ⟨d, .read h hd, hc⟩
    | write h hn t =>
      obtain ⟨d, hd, hc⟩ := ih t
      exact ⟨d, .write h hn hd, hc⟩

theorem head_found {x : Access} (t : Trafficked b (x :: as) c) : b.byte? x.address = some x.found := by
  cases t with
  | read h t => exact (read_eq_ok_iff.1 h).1
  | write h hn t => exact hn

variable {kept : Int → Bool}

theorem byte?_eq (t : Trafficked b as c) (hu : b.Unshared)
    (hk : ∀ a, kept a = true ↔ b.kind? a = some .ram) : c.byte? = bytesAfter kept as b.byte? := by
  induction t with
  | refl b => rfl
  | read h _ ih =>
    have hl := layout_read h
    rw [ih ((unshared_congr hl).2 hu) fun a => by rw [hk, kind?_congr hl], funext (byte?_read h)]
    rfl
  | @write b b' _ a v n _ h _ _ ih =>
    have hl := layout_write h
    rw [ih ((unshared_congr hl).2 hu) fun a => by rw [hk, kind?_congr hl], bytesAfter]
    congr 1
    funext x
    rw [byte?_write_of_unshared hu h]
    simp only [hk]

/-- Every access found the byte which those before it had left. -/
theorem found_eq (t : Trafficked b as c) (hu : b.Unshared)
    (hk : ∀ a, kept a = true ↔ b.kind? a = some .ram) {before after : List Access} {x : Access}
    (h : as = before ++ x :: after) :
    bytesAfter kept before b.byte? x.address = some x.found := by
  subst h
  obtain ⟨d, hd, hc⟩ := t.of_append
  rw [← hd.byte?_eq hu hk]
  exact hc.head_found

end Trafficked

end Bus

end Chip8
