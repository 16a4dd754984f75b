import Chip8.Proofs.Bus.Call

/-!
# Taking reads and writes back

The record of what a program read and wrote is enough to take all of it back. `Bus.undoing` makes calls
of a record: it loads what each write had found, the latest write first. After them the host finds every
byte as it was before the program's calls (`record_undoes_accesses`), whichever of these failed, and
also where one device stands in several places and a write showed at all of them.
-/

namespace Chip8.Bus

/-- The calls that a program makes. -/
def Call.IsAccess : Call → Prop
  | read _ | write .. => True
  | register .. | place .. | peek _ | load .. | dump .. | takeAccesses => False

/-- What the bus answers to calls one after the other. -/
def answers (b : Bus) : List Call → List (Except Chip8.Error Answer)
  | [] => []
  | c :: cs => (b.call c).result :: (b.call c).state.answers cs

/-- The calls by which a host takes accesses back. -/
def undoing (as : List Access) : List Call :=
  as.reverse.filterMap fun
    | .read .. => none
    | .write a _ n => some (.load a n.toNat)

variable {b b' : Bus} {a v : Int} {n : UInt8} {as : List Access} {cs ds : List Call}

theorem calls_append (b : Bus) (cs ds : List Call) :
    b.calls (cs ++ ds) = (b.calls cs).calls ds := by
  induction cs generalizing b with
  | nil => rfl
  | cons c cs ih => exact ih _

theorem answers_append (b : Bus) (cs ds : List Call) :
    b.answers (cs ++ ds) = b.answers cs ++ (b.calls cs).answers ds := by
  induction cs generalizing b with
  | nil => rfl
  | cons c cs ih =>
    simp only [List.cons_append, answers, calls]
    rw [ih]

/-! ### What a program's calls leave -/

theorem trafficked_call {c : Call} (b : Bus) (hc : c.IsAccess) :
    ∃ as, b.Trafficked as (b.call c).state := by
  have h := b.called c
  generalize b.call c = o at h
  cases h with
  | @read a n h => exact ⟨[.read a n], .read (read_eq_ok_iff.2 ⟨h, rfl⟩) (.refl _)⟩
  | @wrote a v n _ h hn => exact ⟨[.write a v n], .write h hn (.refl _)⟩
  | registered | placed | peeked | loaded | dumped | taken => exact hc.elim
  | rejected | unmapped | badWrite | badLoad => exact ⟨[], .refl b⟩

theorem trafficked_calls (b : Bus) (hcs : ∀ c ∈ cs, c.IsAccess) :
    ∃ as, b.Trafficked as (b.calls cs) := by
  induction cs generalizing b with
  | nil => exact ⟨[], .refl b⟩
  | cons c cs ih =>
    obtain ⟨hc, hcs⟩ := List.forall_mem_cons.1 hcs
    obtain ⟨as, h⟩ := b.trafficked_call hc
    obtain ⟨bs, h'⟩ := ih (b.call c).state hcs
    exact ⟨as ++ bs, h.trans h'⟩

/-! ### Taking accesses back, call by call -/

theorem undoing_read (a : Int) (n : UInt8) (as : List Access) :
    undoing (.read a n :: as) = undoing as := by
  simp [undoing]

theorem undoing_write (a v : Int) (n : UInt8) (as : List Access) :
    undoing (.write a v n :: as) = undoing as ++ [.load a n.toNat] := by
  simp [undoing]

theorem call_load_of_ok (h : b.load a v = .ok b') : b.call (.load a v) = ⟨b', .ok .done, []⟩ := by
  rw [call_load, h]

/-- Where the bytes can be put back into place, each of the calls puts one of them back. -/
theorem calls_undoing (h : b.unwrite as = .ok b') :
    b.calls (undoing as) = b' ∧ ∀ r ∈ b.answers (undoing as), r = .ok .done := by
  induction as generalizing b' with
  | nil =>
    cases h
    exact ⟨rfl, by simp [undoing, answers]⟩
  | cons x as ih =>
    cases x with
    | read a n =>
      rw [undoing_read]
      exact ih h
    | write a v n =>
      obtain ⟨c, hc, hl⟩ := unwrite_write_eq_ok_iff.1 h
      obtain ⟨hs, hr⟩ := ih hc
      have hlast := call_load_of_ok hl
      rw [undoing_write, calls_append, answers_append, hs]
      simp only [calls, answers, hlast, true_and]
      intro r h
      rcases List.mem_append.1 h with h | h
      · exact hr r h
      · exact List.mem_singleton.1 h

/-- Once the record is empty, any reads and writes, failing ones among them, can be taken back by what
the record then holds: every load is answered, the layout and all bytes are those from before, and
nothing is recorded. -/
theorem record_undoes_accesses (b : Bus) (hcs : ∀ c ∈ cs, c.IsAccess) :
    let used := (b.call .takeAccesses).state.calls cs
    ∃ as, (used.call .takeAccesses).result = .ok (.accesses as) ∧
      let taken := (used.call .takeAccesses).state
      (∀ r ∈ taken.answers (undoing as), r = .ok .done) ∧
        b.Alike (taken.calls (undoing as)) ∧ (taken.calls (undoing as)).accesses = [] := by
  intro used
  obtain ⟨as, ht⟩ := trafficked_calls { b with accesses := [] } hcs
  have hrecord : used.accesses = as := ht.accesses_eq
  refine ⟨as, by rw [← hrecord]; rfl, ?_⟩
  intro taken
  obtain ⟨c, hu, hc, ha⟩ := ht.exists_unwrite (d := taken) (.withAccesses used [])
  obtain ⟨hs, hr⟩ := calls_undoing hu
  rw [hs]
  exact ⟨hr, (Alike.withAccesses b []).trans hc, ha⟩

/-- Four bytes of read-only memory, and above them four of writable memory, twice. -/
def small : Bus :=
  ({} : Bus).calls [.register 4 7 (some (.blank .ram 4)), .register 0 3 (some (.blank .rom 4)),
    .place 8 11 0]

/-- A cell is written twice, at both of its addresses, one write is lost, one is refused, and one goes to
no place at all. -/
theorem record_undoes_lost_write :
    let cs := [.write 5 1, .write 9 2, .read 5, .write 0 300, .write 6 300, .write 12 1]
    (∀ c ∈ cs, c.IsAccess) ∧
      ((small.call .takeAccesses).state.calls cs).byte? 5 = some 2 ∧
      ∃ as, as = [.write 5 1 0, .write 9 2 1, .read 5 2, .write 0 300 0] ∧
        let taken := (((small.call .takeAccesses).state.calls cs).call .takeAccesses).state
        (∀ r ∈ taken.answers (undoing as), r = .ok .done) ∧ small.Alike (taken.calls (undoing as)) := by
  intro cs
  have hcs : ∀ c ∈ cs, c.IsAccess := by simp [cs, Call.IsAccess]
  obtain ⟨as, has, hr, hb, -⟩ := record_undoes_accesses small hcs
  have hrecord : (((small.call .takeAccesses).state.calls cs).call .takeAccesses).result =
      .ok (.accesses [.write 5 1 0, .write 9 2 1, .read 5 2, .write 0 300 0]) := by rfl
  rw [hrecord] at has
  cases has
  exact ⟨hcs, by decide +kernel, _, rfl, hr, hb⟩

end Chip8.Bus
